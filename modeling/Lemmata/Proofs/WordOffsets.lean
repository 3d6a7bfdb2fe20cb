import Lemmata.Proofs.Rebuilding
import Lemmata.Proofs.Runnable
import Mathlib.Data.List.TakeWhile

/-!
Where the words of a text stand. The words are the longest runs of characters without white space, from
left to right, and the offset of a word is the byte at which the whole text has it. So an error about a
label points at that label in the text of the proof.
-/

set_option autoImplicit false

namespace Lemmata

open Text

namespace Text

def fields (chars : List Char) : List (List Char) := (chars.splitOnP isBlank).filter (!·.isEmpty)

def Stops (behind : List Char) : Prop := ∀ c, behind.head? = some c → isBlank c = true

-- The word is a run that cannot be made longer, between `front` and `behind` in the characters whose first
-- one stands at byte `offset`.
structure IsRun (offset : Nat) (chars : List Char) (word : Word) (front behind : List Char) : Prop where
  parts : chars = front ++ word.chars ++ behind
  place : word.offset = offset + byteLength front
  nonempty : word.chars ≠ []
  solid : ∀ c ∈ word.chars, isBlank c = false
  starts : ∀ c, front.getLast? = some c → isBlank c = true
  stops : Stops behind

theorem run_induction {motive : List Char → Prop} (empty : motive [])
    (blank : ∀ c rest, isBlank c = true → motive rest → motive (c :: rest))
    (run : ∀ label behind, label ≠ [] → (∀ c ∈ label, isBlank c = false) → Stops behind →
      motive behind → motive (label ++ behind)) (chars : List Char) : motive chars := by
  induction size : chars.length using Nat.strongRecOn generalizing chars with
  | ind n ih =>
      cases chars with
      | nil => exact empty
      | cons c rest =>
          rw [List.length_cons] at size
          by_cases white : isBlank c = true
          · exact blank c rest white (ih rest.length (by omega) rest rfl)
          · have whole : (c :: rest.takeWhile fun d => !isBlank d) ++ rest.dropWhile (fun d => !isBlank d) =
                c :: rest := by
              rw [List.cons_append, List.takeWhile_append_dropWhile]
            have shorter := (List.dropWhile_sublist (l := rest) fun d => !isBlank d).length_le
            rw [← whole]
            refine run _ _ (List.cons_ne_nil _ _) ?_ ?_ (ih _ (by omega) _ rfl)
            · refine List.forall_mem_cons.mpr ⟨by simpa using white, fun d member => ?_⟩
              simpa using List.mem_takeWhile_imp member
            · intro d first
              have ends := List.head?_dropWhile_not (fun d => !isBlank d) rest
              rw [first] at ends
              simpa using ends

section Runs

variable (label behind : List Char) (nonempty : label ≠ []) (solid : ∀ c ∈ label, isBlank c = false)
  (stops : Stops behind)

include nonempty solid stops

theorem words_first (offset : Nat) :
    words offset (label ++ behind) = ⟨label, offset⟩ :: words (offset + byteLength label) behind := by
  cases behind with
  | nil => rw [List.append_nil, words_alone label nonempty solid, words]
  | cons c rest => exact words_run label nonempty solid offset c rest (stops c rfl)

theorem fields_first : fields (label ++ behind) = label :: fields behind := by
  have kept : (!label.isEmpty) = true := by simpa using nonempty
  cases behind with
  | nil =>
      rw [List.append_nil, fields, List.splitOnP_eq_singleton solid, fields, List.splitOnP_nil]
      simp [kept]
  | cons c rest =>
      have white := stops c rfl
      have cut : (c :: rest).splitOnP isBlank = [] :: rest.splitOnP isBlank := by
        simpa using List.splitOnP_append_cons (p := isBlank) [] rest white
      rw [fields, List.splitOnP_append_cons label rest white, List.splitOnP_eq_singleton solid, fields, cut]
      simp [kept]

end Runs

theorem fields_blank (c : Char) (rest : List Char) (white : isBlank c = true) :
    fields (c :: rest) = fields rest := by
  have cut := List.splitOnP_append_cons (p := isBlank) [] rest white
  rw [List.nil_append, List.splitOnP_nil] at cut
  rw [fields, cut]
  rfl

theorem words_fields (offset : Nat) (chars : List Char) :
    (words offset chars).map Word.chars = fields chars := by
  induction chars using run_induction generalizing offset with
  | empty => rfl
  | blank c rest white ih => rw [words_blank offset c rest white, fields_blank c rest white, ih]
  | run label behind nonempty solid stops ih =>
      rw [words_first label behind nonempty solid stops, fields_first label behind nonempty solid stops,
        List.map_cons, ih]

theorem words_ordered (offset : Nat) (chars : List Char) :
    (words offset chars).Pairwise fun word later => word.offset + byteLength word.chars < later.offset := by
  induction chars using run_induction generalizing offset with
  | empty => exact .nil
  | blank c rest white ih => exact words_blank offset c rest white ▸ ih _
  | run label behind nonempty solid stops ih =>
      rw [words_first label behind nonempty solid stops]
      refine List.pairwise_cons.mpr ⟨fun later member => ?_, ih _⟩
      cases behind with
      | nil => cases member
      | cons c rest =>
          have size := c.utf8Size_pos
          rw [words_blank _ c rest (stops c rfl)] at member
          have bound := words_offset _ rest later member
          dsimp only
          omega

section Maximal

variable {offset : Nat} {c : Char} {rest label behind front back : List Char} {word : Word}

theorem IsRun.solid_start (run : IsRun offset behind word [] back) : ¬ Stops behind := by
  intro stops
  obtain ⟨first, others, shape⟩ := List.exists_cons_of_ne_nil run.nonempty
  have solid := run.solid first (by simp [shape])
  have white := stops first (by simp [run.parts, shape])
  rw [solid] at white
  cases white

theorem IsRun.blank_iff (white : isBlank c = true) :
    IsRun offset (c :: rest) word front back ↔
      ∃ others, front = c :: others ∧ IsRun (offset + c.utf8Size) rest word others back := by
  constructor
  · intro run
    have parts := run.parts
    cases front with
    | nil => exact absurd (fun d first => by cases first; exact white) run.solid_start
    | cons d others =>
        obtain ⟨rfl, tail⟩ := List.cons.inj parts
        refine ⟨others, rfl, tail, ?_, run.nonempty, run.solid, ?_, run.stops⟩
        · rw [run.place, byte_length_cons, Nat.add_assoc]
        · intro d last
          apply run.starts d
          cases others with
          | nil => cases last
          | cons e more => simpa using last
  · rintro ⟨others, rfl, run⟩
    refine ⟨by rw [run.parts]; rfl, ?_, run.nonempty, run.solid, ?_, run.stops⟩
    · rw [run.place, byte_length_cons, Nat.add_assoc]
    · intro d last
      cases others with
      | nil =>
          cases last
          exact white
      | cons e more => exact run.starts d (by simpa using last)

theorem solid_unique (solid : ∀ c ∈ label, isBlank c = false) (stops : Stops behind)
    (otherSolid : ∀ c ∈ front, isBlank c = false) (otherStops : Stops back)
    (same : label ++ behind = front ++ back) : label = front ∧ behind = back := by
  have taken : ∀ solidPart stopped : List Char, (∀ c ∈ solidPart, isBlank c = false) → Stops stopped →
      (solidPart ++ stopped).takeWhile (fun c => !isBlank c) = solidPart := by
    intro solidPart stopped plain ends
    have nothing : stopped.takeWhile (fun c => !isBlank c) = [] := by
      cases stopped with
      | nil => rfl
      | cons c rest => simp [ends c rfl]
    rw [List.takeWhile_append_of_pos (by simpa using plain), nothing, List.append_nil]
  have equal : label = front := by
    rw [← taken label behind solid stops, same, taken front back otherSolid otherStops]
  subst equal
  exact ⟨rfl, List.append_cancel_left same⟩

theorem IsRun.first_iff (nonempty : label ≠ []) (solid : ∀ c ∈ label, isBlank c = false)
    (stops : Stops behind) :
    IsRun offset (label ++ behind) word front back ↔
      (word = ⟨label, offset⟩ ∧ front = [] ∧ back = behind) ∨
        ∃ others, front = label ++ others ∧ IsRun (offset + byteLength label) behind word others back := by
  constructor
  · intro run
    have parts := run.parts
    rw [List.append_assoc] at parts
    by_cases start : front = []
    · subst start
      obtain ⟨same, rfl⟩ := solid_unique solid stops run.solid run.stops parts
      refine Or.inl ⟨?_, rfl, rfl⟩
      rw [same, ← Nat.add_zero offset]
      exact congrArg (Word.mk word.chars) run.place
    · rcases List.append_eq_append_iff.mp parts with ⟨others, rfl, tail⟩ | ⟨others, rfl, _⟩
      · refine Or.inr ⟨others, rfl, by rw [tail, List.append_assoc], ?_, run.nonempty, run.solid, ?_,
          run.stops⟩
        · rw [run.place, byte_length_append, Nat.add_assoc]
        · intro d last
          exact run.starts d (by rw [List.getLast?_append, last]; rfl)
      · -- The run would begin inside of the label, behind a character that is no white space.
        have last := List.getLast?_eq_some_getLast start
        have white := run.starts _ last
        rw [solid _ (List.mem_append_left _ (List.getLast_mem start))] at white
        cases white
  · rintro (⟨rfl, rfl, rfl⟩ | ⟨others, rfl, run⟩)
    · exact ⟨rfl, rfl, nonempty, solid, by simp, stops⟩
    · refine ⟨by rw [run.parts]; simp, ?_, run.nonempty, run.solid, ?_, run.stops⟩
      · rw [run.place, byte_length_append, Nat.add_assoc]
      · intro d last
        cases others with
        | nil => exact absurd stops run.solid_start
        | cons e more =>
            rw [List.getLast?_append_of_ne_nil _ (List.cons_ne_nil e more)] at last
            exact run.starts d last

theorem mem_words_iff (offset : Nat) (chars : List Char) (word : Word) :
    word ∈ words offset chars ↔ ∃ front back, IsRun offset chars word front back := by
  induction chars using run_induction generalizing offset with
  | empty =>
      constructor
      · intro member
        cases member
      · rintro ⟨front, back, run⟩
        have nothing := run.parts
        simp [run.nonempty] at nothing
  | blank c rest white ih =>
      rw [words_blank offset c rest white, ih]
      simp only [IsRun.blank_iff white]
      constructor
      · rintro ⟨front, back, run⟩
        exact ⟨c :: front, back, front, rfl, run⟩
      · rintro ⟨_, back, front, rfl, run⟩
        exact ⟨front, back, run⟩
  | run label behind nonempty solid stops ih =>
      rw [words_first label behind nonempty solid stops, List.mem_cons, ih]
      simp only [IsRun.first_iff nonempty solid stops]
      constructor
      · rintro (rfl | ⟨front, back, run⟩)
        · exact ⟨[], behind, Or.inl ⟨rfl, rfl, rfl⟩⟩
        · exact ⟨label ++ front, back, Or.inr ⟨front, rfl, run⟩⟩
      · rintro ⟨_, back, ⟨rfl, _, _⟩ | ⟨front, rfl, run⟩⟩
        · exact Or.inl rfl
        · exact Or.inr ⟨front, back, run⟩

end Maximal

def Word.StandsIn (text : String) (word : Word) : Prop :=
  ((textBytes text).drop word.offset).take (textBytes word.name).length = textBytes word.name

theorem text_bytes_length (chars : List Char) :
    (textBytes (String.ofList chars)).length = byteLength chars := by
  have size := byte_length_text (String.ofList chars)
  rw [String.toList_ofList, ← String.size_toByteArray] at size
  rw [text_bytes_data, Array.length_toList, size]
  rfl

-- The characters may be any part of the text, if their first one stands where the text has it.
theorem words_stand (text : String) (before chars after : List Char)
    (parts : text.toList = before ++ chars ++ after) (word : Word)
    (member : word ∈ words (byteLength before) chars) : word.StandsIn text := by
  obtain ⟨front, behind, run⟩ := (mem_words_iff _ _ word).mp member
  have whole : text = String.ofList (before ++ front) ++ word.name ++ String.ofList (behind ++ after) := by
    rw [Word.name, ← String.ofList_append, ← String.ofList_append, ← String.toList_inj, parts, run.parts]
    simp
  have place : word.offset = (textBytes (String.ofList (before ++ front))).length := by
    rw [run.place, text_bytes_length, byte_length_append]
  rw [Word.StandsIn, whole, text_bytes_append, text_bytes_append, List.append_assoc, place,
    List.drop_left, List.take_left]

structure Tokenises (text : String) (start : text.Pos) (found : List Word) : Prop where
  names : found.map Word.chars = fields (text.sliceFrom start).copy.toList
  runs : ∀ word, word ∈ found ↔
    ∃ front behind, IsRun start.offset.byteIdx (text.sliceFrom start).copy.toList word front behind
  ordered : found.Pairwise fun word later => word.offset + byteLength word.chars < later.offset
  placed : ∀ word ∈ found, word.StandsIn text

theorem words_tokenise (text : String) (start : text.Pos) :
    Tokenises text start (words start.offset.byteIdx (text.sliceFrom start).copy.toList) := by
  have cut := start.splits
  have before : start.offset.byteIdx = byteLength (text.sliceTo start).copy.toList := by
    rw [byte_length_text, cut.offset_eq_rawEndPos, String.byteIdx_rawEndPos]
  have parts : text.toList = (text.sliceTo start).copy.toList ++ (text.sliceFrom start).copy.toList ++ [] := by
    rw [List.append_nil, ← String.toList_append, ← cut.eq_append]
  refine ⟨words_fields _ _, mem_words_iff _ _, words_ordered _ _, fun word member => ?_⟩
  rw [before] at member
  exact words_stand text _ _ [] parts word member

end Text

def DecodeCause.aboutLabel : DecodeCause → Bool
  | .undeclared _ | .declaredAfter _ _ | .outsideFrame _ _ | .notUsable _ | .requiredListed _
  | .parenthesis => true
  | _ => false

def DecodeCause.Blames (cause : DecodeCause) (word : Word) : Prop :=
  match cause with
  | .undeclared label | .declaredAfter label _ | .outsideFrame label _ | .notUsable label
  | .requiredListed label => label = word.name
  | .parenthesis => '(' ∈ word.chars
  | _ => False

namespace Proof

def labelWords (text : String) : List Word :=
  match trimStart text.toList with
  | '(' :: rest =>
      words (byteLength (text.toList.takeWhile isBlank) + 1) (rest.takeWhile (· != ')'))
  | _ => words 0 text.toList

theorem label_words_stand (text : String) : ∀ word ∈ labelWords text, word.StandsIn text := by
  intro word member
  unfold labelWords at member
  split at member
  · rename_i rest shape
    have parts : text.toList = (text.toList.takeWhile isBlank ++ ['(']) ++ rest.takeWhile (· != ')') ++
        rest.dropWhile (· != ')') := by
      rw [List.append_assoc, List.takeWhile_append_dropWhile, List.append_assoc, List.singleton_append,
        ← shape, trimStart, List.takeWhile_append_dropWhile]
    have place : byteLength (text.toList.takeWhile isBlank) + 1 =
        byteLength (text.toList.takeWhile isBlank ++ ['(']) := by
      rw [byte_length_append]
      rfl
    rw [place] at member
    exact words_stand text _ _ _ parts word member
  · exact words_stand text [] text.toList [] (by simp) word member

section Blame

variable {t : Table} {owner : Statement} {error : DecodeError} {word : Word}

theorem resolve_blames (failed : resolve t owner word = .error error) : error.cause.Blames word := by
  unfold resolve at failed
  split at failed
  · cases failed
    rfl
  · split at failed
    · cases failed
      rfl
    · split at failed
      · split at failed
        · cases failed
        · cases failed
          rfl
      · split at failed
        · cases failed
        · cases failed
          rfl

theorem decode_word_blames (failed : decodeWord t owner word = .error error) : error.cause.Blames word := by
  by_cases unknown : word.chars = ['?']
  · rw [decodeWord, if_pos unknown] at failed
    cases failed
  · rw [decodeWord, if_neg unknown, bind_error] at failed
    rcases failed with unresolved | ⟨id, _, made⟩
    · exact resolve_blames unresolved
    · cases made

theorem listed_label_blames (failed : listedLabel t owner word = .error error) : error.cause.Blames word := by
  by_cases opening : word.chars.contains '(' = true
  · rw [listedLabel, if_pos opening] at failed
    cases failed
    exact List.contains_iff_mem.mp opening
  · rw [listedLabel, if_neg opening, bind_error] at failed
    rcases failed with unresolved | ⟨id, _, refused⟩
    · exact resolve_blames unresolved
    · split at refused
      · cases refused
        rfl
      · cases refused

theorem letters_blameless (required listed : List Int) (state : LetterState) (offset : Nat) (chars : List Char)
    (place : Nat) (cause : DecodeCause)
    (failed : letters required listed state offset chars = .error (place, cause)) :
    cause.aboutLabel = false := by
  induction chars generalizing state offset with
  | nil =>
      simp only [letters] at failed
      split at failed
      · cases failed
      · cases failed
        rfl
  | cons c rest ih =>
      have later : ∀ next (instruction : Instruction),
          (do let others ← letters required listed next (offset + 1) rest
              return instruction :: others) = .error (place, cause) → cause.aboutLabel = false := by
        intro next instruction behind
        rcases bind_error.mp behind with failed | ⟨_, _, finished⟩
        · exact ih next (offset + 1) failed
        · cases finished
      simp only [letters] at failed
      split at failed
      · exact ih _ _ failed
      · split at failed
        · split at failed
          · cases failed
            rfl
          · exact ih _ _ failed
        · split at failed
          · cases failed
            rfl
          · exact later _ _ failed
        · split at failed
          · cases failed
            rfl
          · split at failed
            · cases failed
              rfl
            · split at failed
              · cases failed
                rfl
              · exact ih _ _ failed
        · split at failed
          · cases failed
            rfl
          · exact later _ _ failed
        · cases failed
          rfl

theorem decode_compressed_blames (opening : Nat) (chars : List Char)
    (failed : decodeCompressed t owner opening chars = .error error) (label : error.cause.aboutLabel = true) :
    ∃ word ∈ words (opening + 1) (chars.takeWhile (· != ')')),
      error.cause.Blames word ∧ error.offset = word.offset := by
  rw [decodeCompressed, bind_error] at failed
  rcases failed with unlisted | ⟨listed, _, failed⟩
  · obtain ⟨word, member, own⟩ := map_m_error _ _ _ unlisted
    exact ⟨word, member, listed_label_blames own, listed_label_offset word own⟩
  · exfalso
    split at failed
    · cases failed
      cases label
    · dsimp only at failed
      split at failed
      · rename_i place cause read
        cases failed
        rw [letters_blameless _ _ _ _ _ _ _ read] at label
        cases label
      · cases failed
        cases label
      · cases failed

theorem decode_blames (text : String) (failed : decode t owner text = .error error)
    (label : error.cause.aboutLabel = true) :
    ∃ word ∈ labelWords text, error.cause.Blames word ∧ error.offset = word.offset := by
  unfold decode at failed
  dsimp only at failed
  split at failed
  · rename_i rest shape
    simp only [labelWords, shape]
    exact decode_compressed_blames _ rest failed label
  · rename_i plain
    have found : labelWords text = words 0 text.toList := by
      unfold labelWords
      split
      · exact absurd ‹_› (plain _)
      · rfl
    rw [found]
    unfold decodePlain at failed
    split at failed
    · cases failed
      cases label
    · obtain ⟨word, member, own⟩ := map_m_error _ _ _ failed
      exact ⟨word, member, decode_word_blames own, decode_word_offset word own⟩

end Blame

end Proof

theorem words_exact (text : String) :
    (∀ start : text.Pos, Tokenises text start (words start.offset.byteIdx (text.sliceFrom start).copy.toList)) ∧
      ∀ t owner error, Proof.decode t owner text = .error error → error.cause.aboutLabel = true →
        ∃ word ∈ Proof.labelWords text,
          error.cause.Blames word ∧ error.offset = word.offset ∧ word.StandsIn text := by
  refine ⟨words_tokenise text, fun t owner error failed label => ?_⟩
  obtain ⟨word, member, blamed, place⟩ := Proof.decode_blames text failed label
  exact ⟨word, member, blamed, place, Proof.label_words_stand text word member⟩

theorem words_exact_sample :
    Proof.decode sampleTable (sampleStatement 8) "\u00a0(rule\u2003wz)A" =
        .error ⟨"exchanged", 10, .undeclared "wz"⟩ ∧
      ∃ word ∈ Proof.labelWords "\u00a0(rule\u2003wz)A",
        "wz" = word.name ∧ 10 = word.offset ∧ word.StandsIn "\u00a0(rule\u2003wz)A" := by
  have failed : Proof.decode sampleTable (sampleStatement 8) "\u00a0(rule\u2003wz)A" =
      .error ⟨"exchanged", 10, .undeclared "wz"⟩ := by rfl
  exact ⟨failed, (words_exact _).2 _ _ _ failed rfl⟩

end Lemmata
