import Lemmata.Proofs.Building
import Lemmata.Proofs.LetterReading
import Mathlib.Algebra.Group.Nat.Defs

/-!
Compressed proofs keep their proof. What a text reads as can be written in compressed form, and the
compressed text reads as the same instructions.
-/

set_option autoImplicit false

namespace Lemmata

open Text LetterCode

namespace Text

theorem words_blank (offset : Nat) (blank : Char) (rest : List Char) (white : isBlank blank = true) :
    words offset (blank :: rest) = words (offset + blank.utf8Size) rest := by
  simp [words, white]

theorem words_offset (offset : Nat) (chars : List Char) :
    ∀ word ∈ words offset chars, offset ≤ word.offset := by
  induction chars generalizing offset with
  | nil => simp [words]
  | cons c rest ih =>
      have behind : ∀ word ∈ words (offset + c.utf8Size) rest, offset ≤ word.offset :=
        fun word member => Nat.le_trans (Nat.le_add_right _ _) (ih (offset + c.utf8Size) word member)
      by_cases blank : isBlank c = true
      · simpa [words, blank] using behind
      · cases found : words (offset + c.utf8Size) rest with
        | nil => simp [words, blank, found]
        | cons first others =>
            rw [found, List.forall_mem_cons] at behind
            by_cases adjacent : first.offset = offset + c.utf8Size
            · simpa [words, blank, found, adjacent] using behind.2
            · simpa [words, blank, found, adjacent] using behind

theorem words_run (label : List Char) (nonempty : label ≠ [])
    (plain : ∀ c ∈ label, isBlank c = false) (offset : Nat) (blank : Char) (rest : List Char)
    (white : isBlank blank = true) :
    words offset (label ++ blank :: rest) =
      ⟨label, offset⟩ :: words (offset + byteLength label) (blank :: rest) := by
  induction label generalizing offset with
  | nil => exact absurd rfl nonempty
  | cons c others ih =>
      rw [List.forall_mem_cons] at plain
      cases others with
      | nil =>
          have later := words_offset (offset + c.utf8Size + blank.utf8Size) rest
          have positive := blank.utf8Size_pos
          rw [List.singleton_append, words]
          simp only [plain.1, byteLength, List.foldr_cons, List.foldr_nil, Nat.add_zero,
            words_blank _ blank rest white, Bool.false_eq_true, if_false]
          cases found : words (offset + c.utf8Size + blank.utf8Size) rest with
          | nil => rfl
          | cons first more =>
              rw [found, List.forall_mem_cons] at later
              have apart : first.offset ≠ offset + c.utf8Size := by omega
              simp only [if_neg apart]
      | cons d more =>
          rw [List.cons_append, words, ih (List.cons_ne_nil d more) plain.2]
          simp only [plain.1, byteLength, List.foldr_cons, Nat.add_assoc, Bool.false_eq_true, if_false,
            if_true]

end Text

namespace Proof

structure Listable (t : Table) (owner : Statement) (id : Int) : Prop where
  nonempty : (t.labelOf id).toList ≠ []
  plain : ∀ c ∈ (t.labelOf id).toList, isBlank c = false
  unclosed : ∀ c ∈ (t.labelOf id).toList, c ≠ ')'
  read : ∀ offset, listedLabel t owner ⟨(t.labelOf id).toList, offset⟩ = .ok id

def labelText (t : Table) (listed : List Int) : List Char :=
  listed.flatMap fun id => ' ' :: (t.labelOf id).toList

theorem label_text_cons (t : Table) (id : Int) (listed : List Int) :
    labelText t (id :: listed) = ' ' :: (t.labelOf id).toList ++ labelText t listed := rfl

theorem label_text_spaced (t : Table) (listed : List Int) :
    ∃ rest, labelText t listed ++ [' '] = ' ' :: rest := by
  cases listed with
  | nil => exact ⟨[], rfl⟩
  | cons id others => exact ⟨_, rfl⟩

theorem read_labels (t : Table) (owner : Statement) (listed : List Int)
    (listable : ∀ id ∈ listed, Listable t owner id) (offset : Nat) :
    (words offset (labelText t listed ++ [' '])).mapM (listedLabel t owner) = .ok listed := by
  have white : isBlank ' ' = true := by decide
  induction listed generalizing offset with
  | nil => simp [labelText, words, white, pure, Except.pure]
  | cons id others ih =>
      have own := listable id List.mem_cons_self
      obtain ⟨rest, spaced⟩ := label_text_spaced t others
      have behind := ih (fun other member => listable other (List.mem_cons_of_mem id member))
      rw [spaced] at behind
      rw [label_text_cons, List.append_assoc, spaced, List.cons_append, words_blank _ _ _ white,
        words_run _ own.nonempty own.plain _ ' ' rest white, List.mapM_cons, own.read, behind]
      rfl

theorem mem_listed (owner : Statement) (proof : Proof) (id : Int) :
    id ∈ listedStatements owner proof ↔
      .reference id ∈ proof ∧ id ∉ owner.frame.required := by
  simp only [listedStatements, List.mem_eraseDups, List.mem_filterMap]
  constructor
  · rintro ⟨instruction, member, made⟩
    cases instruction with
    | reference other =>
        have read : other ∉ owner.frame.required ∧ other = id := by simpa using made
        obtain ⟨missing, rfl⟩ := read
        exact ⟨member, missing⟩
    | _ => cases made
  · rintro ⟨member, missing⟩
    exact ⟨.reference id, member, by simp [missing]⟩

theorem resolve_usable (t : Table) (owner s : Statement) (word : Word)
    (named : t.lookup word.name = some s) (before : s.id < owner.id)
    (usable : s.isAssertion = true ∨ s.isHypothesis = true ∧ owner.frame.contains s.id = true) :
    resolve t owner word = .ok s.id := by
  have early : ¬ owner.id ≤ s.id := by omega
  simp only [resolve, named, if_neg early]
  rcases usable with asserted | ⟨hypothesis, inside⟩
  · simp only [s.assertion_not_hypothesis asserted, asserted, Bool.false_eq_true, if_false, if_true]
  · simp only [hypothesis, inside, if_true]

theorem listable_of_readable (t : Table) (coherent : t.Coherent) (owner : Statement) (id : Int)
    (position : Nat) (readable : (Instruction.reference id).Readable t owner position)
    (missing : id ∉ owner.frame.required) : Listable t owner id := by
  obtain ⟨word, plain, resolved⟩ := readable.resolve_left missing
  obtain ⟨s, found, member, label, before, usable⟩ := resolve_ok t coherent owner word id resolved
  have formed := coherent.formed s member
  have labelled : s.label ≠ "" := formed.labelled.mpr (usable.symm.imp_left And.left)
  have own : s.id = id := coherent.statement_id id s found
  subst own
  have chars : (t.labelOf s.id).toList = word.chars := by
    simp only [Table.labelOf, found, label, Word.name, String.toList_ofList]
  have nameable : ∀ c ∈ word.chars, c ≠ '(' ∧ c ≠ ')' := by
    have plainLabel := formed.plain
    simp only [label, isLabelName, Word.name, String.toList_ofList, List.all_eq_true,
      Bool.and_eq_true, bne_iff_ne] at plainLabel
    exact fun c present => ⟨(plainLabel c present).1.1.2, (plainLabel c present).1.2⟩
  refine ⟨?_, chars ▸ plain, chars ▸ fun c present => (nameable c present).2, ?_⟩
  · rw [chars]
    intro empty
    exact labelled (by rw [label, Word.name, empty])
  · intro offset
    have named : t.lookup (Word.name ⟨word.chars, offset⟩) = some s :=
      (congrArg t.lookup label.symm).trans (coherent.lookup_label s member labelled)
    have noParenthesis : word.chars.contains '(' = false := by
      simpa using fun present => (nameable '(' present).1 rfl
    simp only [chars, listedLabel, noParenthesis, Bool.false_eq_true, if_false,
      resolve_usable t owner s _ named before usable]
    exact if_neg (by simpa using missing)

theorem check_steps_ok (t : Table) (owner : Statement) (proof : Proof) (step : Nat)
    (admissible : proof.EachFrom (Instruction.Admissible t owner) step) :
    checkSteps t owner step proof = .ok () := by
  induction proof generalizing step with
  | nil => rfl
  | cons instruction rest ih =>
      have others := ih (step + 1) admissible.2
      cases instruction with
      | reference id =>
          obtain ⟨s, found, _⟩ := admissible.1
          simp [checkSteps, found, others]
      | reuse target =>
          have bounds : 0 ≤ target ∧ target < step := admissible.1
          simp only [checkSteps, if_pos bounds, others]
      | unknown => exact others
      | invalid kind => exact others

theorem numbered_of_readable (t : Table) (owner : Statement) (proof : Proof)
    (readable : proof.EachFrom (Instruction.Readable t owner) 0) :
    proof.EachFrom (fun position instruction => instruction.Numbered owner.frame.required
      (listedStatements owner proof) (savedBefore proof position)) 0 := by
  apply readable.imp
  intro position instruction member readable
  cases instruction with
  | reference id =>
      by_cases needed : id ∈ owner.frame.required
      · exact Or.inl needed
      · exact Or.inr ((mem_listed owner proof id).mpr ⟨member, needed⟩)
  | reuse step =>
      obtain ⟨nonnegative, before⟩ := readable
      refine ⟨nonnegative, List.mem_filter.mpr ⟨List.mem_range.mpr (by omega), ?_⟩⟩
      rw [Int.toNat_of_nonneg nonnegative]
      exact List.contains_iff_mem.mpr member
  | unknown => trivial
  | invalid kind => exact readable

theorem compress_text (t : Table) (owner : Statement) (proof : Proof)
    (checked : checkSteps t owner 0 proof = .ok ()) :
    ∃ text, compress t owner proof = .ok text ∧
      text.toList = '(' :: (labelText t (listedStatements owner proof) ++ ' ' :: ')' :: ' ' ::
        letterRun owner.frame.required (listedStatements owner proof) (savedSteps proof) 0 proof) := by
  refine ⟨_, by simp only [compress, checked]; rfl, ?_⟩
  simp only [String.toList_append, String.toList_join, String.toList_ofList, List.flatMap_map,
    labelText]
  simp

-- The label list ends at the first closing parenthesis, which no label has.
theorem decode_text (t : Table) (owner : Statement) (listed : List Int)
    (listable : ∀ id ∈ listed, Listable t owner id) (run : List Char) (text : String)
    (shape : text.toList = '(' :: (labelText t listed ++ ' ' :: ')' :: ' ' :: run)) (proof : Proof)
    (nonempty : proof ≠ [])
    (read : ∀ offset, letters owner.frame.required listed {} offset run = .ok proof) :
    decompress t owner text = .ok proof := by
  have unclosed : ∀ c ∈ labelText t listed ++ [' '], (c != ')') = true := by
    intro c member
    simp only [labelText, List.mem_append, List.mem_flatMap, List.mem_cons, List.not_mem_nil,
      or_false] at member
    rcases member with ⟨id, present, rfl | inside⟩ | rfl
    · decide
    · simpa using (listable id present).unclosed c inside
    · decide
  have spaced : labelText t listed ++ ' ' :: ')' :: ' ' :: run =
      (labelText t listed ++ [' ']) ++ ')' :: ' ' :: run := by simp
  have notBlank : isBlank '(' = false := by decide
  have start : trimStart text.toList = '(' :: (labelText t listed ++ ' ' :: ')' :: ' ' :: run) := by
    rw [shape, trimStart, List.dropWhile_cons_of_neg (by simp [notBlank])]
  have compressed : isCompressed text = true := by simp only [isCompressed, start]
  have blankRun : ∀ offset, letters owner.frame.required listed {} offset (' ' :: run) = .ok proof :=
    fun offset => read (offset + 1)
  simp only [decompress, compressed, if_true, decode, start, decodeCompressed, spaced,
    List.takeWhile_append_of_pos unclosed, List.dropWhile_append_of_pos unclosed]
  simp only [List.takeWhile_cons, List.dropWhile_cons, bne_self_eq_false, Bool.false_eq_true, if_false,
    List.append_nil, read_labels t owner listed listable, bind, Except.bind, blankRun]
  cases proof with
  | nil => exact absurd rfl nonempty
  | cons instruction rest => rfl

-- Fifteen high digits and the last one are enough for every number up to this capacity.
theorem letter_of_length (required listed : List Int) (saved : List Nat) (instruction : Instruction)
    (known : instruction.Numbered required listed saved)
    (capacity : required.length + listed.length + saved.length ≤ 5 ^ 17 - 5) :
    (letterOf required listed saved instruction).length ≤ 16 := by
  rcases letter_of_number required listed saved saved List.prefix_rfl instruction known with
    ⟨_, code⟩ | ⟨index, target, code⟩
  · simp [code]
  · obtain ⟨bounded, _⟩ := List.getElem?_eq_some_iff.mp target
    have length : (numbered required listed saved).length =
        required.length + listed.length + saved.length := by
      simp [numbered, Nat.add_assoc]
    have limit : highCapacity 15 * 20 + 20 = 5 ^ 17 - 5 := by decide
    rw [code]
    apply encode_length
    omega

end Proof

theorem compress_round_trip (name : String) (declarations : List Declaration) (t : Table)
    (built : Table.build name declarations = .ok t) (owner : Statement) (proved : owner ∈ t.theorems)
    (text : String) (proof : Proof) (decoded : Proof.decode t owner text = .ok proof) :
    ∃ squished, Proof.compress t owner proof = .ok squished ∧
      Proof.decompress t owner squished = .ok proof ∧
      (owner.frame.required.length + (Proof.listedStatements owner proof).length +
          (Proof.savedSteps proof).length ≤ 5 ^ 17 - 5 →
        ∀ instruction ∈ proof, (Proof.letterOf owner.frame.required
          (Proof.listedStatements owner proof) (Proof.savedSteps proof) instruction).length ≤ 16) := by
  have coherent := Table.build_coherent name declarations t built
  obtain ⟨member, asserted⟩ := t.theorem_asserted owner proved
  have readable := Proof.decode_readable t owner text proof decoded
  have admissible := Proof.decode_admissible t coherent owner member asserted text proof decoded
  have known := Proof.numbered_of_readable t owner proof readable
  have listable : ∀ id ∈ Proof.listedStatements owner proof, Proof.Listable t owner id := by
    intro id listed
    obtain ⟨present, missing⟩ := (Proof.mem_listed owner proof id).mp listed
    obtain ⟨position, _, own⟩ := readable.member 0 proof _ present
    exact Proof.listable_of_readable t coherent owner id position own missing
  obtain ⟨squished, compressed, shape⟩ :=
    Proof.compress_text t owner proof (Proof.check_steps_ok t owner proof 0 admissible)
  refine ⟨squished, compressed, ?_, ?_⟩
  · apply Proof.decode_text t owner _ listable _ squished shape proof
      (Proof.decode_nonempty t owner text proof decoded)
    intro offset
    exact Proof.letters_run _ _ proof proof 0 {} offset (Nat.zero_add _) known rfl rfl rfl
  · intro capacity instruction present
    obtain ⟨position, bounded, own⟩ := known.member 0 proof instruction present
    have included := (Proof.saved_before_prefix proof position (by omega)).subset
    exact Proof.letter_of_length _ _ _ instruction (own.more included) capacity

def sampleReuse : Proof :=
  [.reference 3, .reference 2, .reference 5, .reference 7, .reuse 3, .reuse 4, .unknown]

theorem compress_round_trip_sample :
    Proof.decode sampleTable (sampleStatement 8) "( repeated repeated ) BACEZFZG?" = .ok sampleReuse ∧
      ∃ squished, Proof.compress sampleTable (sampleStatement 8) sampleReuse = .ok squished ∧
        Proof.decompress sampleTable (sampleStatement 8) squished = .ok sampleReuse ∧
        ∀ instruction ∈ sampleReuse, (Proof.letterOf (sampleStatement 8).frame.required
          (Proof.listedStatements (sampleStatement 8) sampleReuse) (Proof.savedSteps sampleReuse)
          instruction).length ≤ 16 := by
  obtain ⟨squished, compressed, restored, short⟩ := compress_round_trip "sample" sampleDeclarations
    sampleTable sample_built (sampleStatement 8) (by decide) "( repeated repeated ) BACEZFZG?"
    sampleReuse rfl
  exact ⟨rfl, squished, compressed, restored, short (by decide)⟩

end Lemmata
