import Lemmata.Proofs.LetterTokens

/-!
Compressed proofs as a whole. A text whose label list is closed is read as the tokens of its letter run
say. In a text of less than `2 ^ 58` bytes, required hypotheses included, no value that is computed over
the run leaves a word of 64 bits.
-/

set_option autoImplicit false

namespace Lemmata

open Text LetterCode

namespace Proof

def word (value : Nat) : Option Nat := if value < 2 ^ 63 then some value else none

def minus (value less : Nat) : Option Nat := if less ≤ value then some (value - less) else none

theorem word_fits (value : Nat) (small : value < 2 ^ 63) : word value = some value := if_pos small

theorem minus_fits (value less : Nat) (enough : less ≤ value) : minus value less = some (value - less) :=
  if_pos enough

def chosenChecked (required listed : List Int) (saved : List Nat) (number : Nat) :
    Option (Option Instruction) := do
  if number ≤ required.length then
    let place ← minus number 1
    return required[place]?.map .reference
  else
    let known ← word (required.length + listed.length)
    if number ≤ known then
      let behind ← minus number required.length
      let place ← minus behind 1
      return listed[place]?.map .reference
    else
      let limit ← word (known + saved.length)
      if number ≤ limit then
        let behind ← minus number required.length
        let later ← minus behind listed.length
        let place ← minus later 1
        return saved[place]?.map fun (step : Nat) => .reuse step
      else return none

-- The reader of letter runs with every value that it computes. There is no result if one of them does
-- not fit.
def lettersChecked (required listed : List Int) :
    LetterState → Nat → List Char → Option (Except (Nat × DecodeCause) (List Instruction))
  | state, offset, [] =>
      some (if state.pending = 0 then .ok [] else .error (offset - 1, .unfinishedNumber))
  | state, offset, c :: rest => do
      let next ← word (offset + 1)
      if isSpacing c then lettersChecked required listed state next rest
      else
        let known ← word (required.length + listed.length)
        let limit ← word (known + state.saved.length)
        match Letter.ofChar c with
        | some (.high digit) =>
            let shifted ← word (state.pending * 5)
            let pending ← word (shifted + digit)
            if limit < pending then return .error (offset, .highRange limit)
            else lettersChecked required listed { state with pending } next rest
        | some (.last digit) =>
            let shifted ← word (state.pending * 20)
            let number ← word (shifted + digit)
            match ← chosenChecked required listed state.saved number with
            | none => return .error (offset, .numberRange number limit)
            | some instruction =>
                let others ← lettersChecked required listed
                  { state with pending := 0, count := state.count + 1, justSaved := false } next rest
                return others.map (instruction :: ·)
        | some .save =>
            if state.pending ≠ 0 then return .error (offset, .saveInNumber)
            else if state.count = 0 then return .error (offset, .saveFirst)
            else
              let step ← minus state.count 1
              if state.justSaved then return .error (offset, .savedTwice step)
              else
                lettersChecked required listed
                  { state with saved := state.saved ++ [step], justSaved := true } next rest
        | some .unknown =>
            if state.pending ≠ 0 then return .error (offset, .unknownInNumber)
            else
              let others ← lettersChecked required listed
                { state with count := state.count + 1, justSaved := false } next rest
              return others.map (.unknown :: ·)
        | none => return .error (offset, .illegal (leadByte c))

theorem high_digit_bound (c : Char) (letter : isHigh c = true) : c.toNat - 'U'.toNat + 1 ≤ 5 := by
  simp only [isHigh, decide_eq_true_eq, Char.le_def, UInt32.le_iff_toNat_le] at letter
  have width : 'Y'.val.toNat = 'U'.val.toNat + 4 := by decide
  simp only [Char.toNat]
  omega

theorem last_digit_bound (c : Char) (letter : isLast c = true) : c.toNat - 'A'.toNat + 1 ≤ 20 := by
  simp only [isLast, decide_eq_true_eq, Char.le_def, UInt32.le_iff_toNat_le] at letter
  have width : 'T'.val.toNat = 'A'.val.toNat + 19 := by decide
  simp only [Char.toNat]
  omega

theorem chosen_checked (required listed : List Int) (saved : List Nat) (number : Nat)
    (positive : 0 < number) (small : required.length + listed.length + saved.length < 2 ^ 63) :
    chosenChecked required listed saved number = some (numbered required listed saved)[number - 1]? := by
  have known := word_fits (required.length + listed.length) (by omega)
  have limit := word_fits _ small
  rw [chosenChecked, numbered]
  by_cases first : number ≤ required.length
  · rw [if_pos first, minus_fits number 1 positive, List.getElem?_append_left (by simp; omega),
      List.getElem?_map, List.getElem?_append_left (by omega)]
    rfl
  · simp only [if_neg first, known, Option.bind_eq_bind, Option.bind_some]
    by_cases second : number ≤ required.length + listed.length
    · rw [if_pos second, minus_fits number required.length (by omega), Option.bind_some,
        minus_fits _ 1 (by omega), List.getElem?_append_left (by simp; omega),
        List.getElem?_map, List.getElem?_append_right (by omega), Nat.sub_right_comm]
      rfl
    · rw [if_neg second, limit, Option.bind_some, List.getElem?_append_right (by simp; omega),
        List.length_map, List.length_append, List.getElem?_map]
      by_cases third : number ≤ required.length + listed.length + saved.length
      · rw [if_pos third, minus_fits number required.length (by omega), Option.bind_some,
          minus_fits _ listed.length (by omega), Option.bind_some, minus_fits _ 1 (by omega),
          Nat.sub_right_comm number 1, Nat.sub_sub number]
        rfl
      · rw [if_neg third, List.getElem?_eq_none (by omega)]
        rfl

section Checked

variable (required listed : List Int) (state : LetterState) (offset : Nat) (c : Char) (rest : List Char)
  (plain : isSpacing c = false)
  (pending : state.pending ≤ required.length + listed.length + state.saved.length)
  (small : required.length + listed.length + state.saved.length < 2 ^ 58) (near : offset + 1 < 2 ^ 63)
  (continues : ∀ next : LetterState,
    next.pending ≤ required.length + listed.length + next.saved.length →
    next.saved.length ≤ state.saved.length + 1 →
    lettersChecked required listed next (offset + 1) rest =
      some (letters required listed next (offset + 1) rest))

include plain pending small near continues

theorem letters_checked_high (letter : isHigh c = true) :
    lettersChecked required listed state offset (c :: rest) =
      some (letters required listed state offset (c :: rest)) := by
  have digit := high_digit_bound c letter
  have known := word_fits (required.length + listed.length) (by omega)
  have limit := word_fits (required.length + listed.length + state.saved.length) (by omega)
  have shifted := word_fits (state.pending * 5) (by omega)
  have pushed : word (state.pending * 5 + (c.toNat - 'U'.toNat + 1)) =
      some (pushHigh state.pending (c.toNat - 'U'.toNat + 1)) := word_fits _ (by omega)
  simp only [lettersChecked, letters, plain, Bool.false_eq_true, if_false, of_char_high c letter,
    word_fits (offset + 1) near, Option.bind_eq_bind, Option.bind_some, known, limit, shifted, pushed,
    numbered_length]
  by_cases out : required.length + listed.length + state.saved.length <
      pushHigh state.pending (c.toNat - 'U'.toNat + 1)
  · rw [if_pos out, if_pos out]
    rfl
  · rw [if_neg out, if_neg out]
    exact continues { state with pending := _ } (Nat.not_lt.mp out) (Nat.le_succ _)

theorem letters_checked_last (letter : isLast c = true) :
    lettersChecked required listed state offset (c :: rest) =
      some (letters required listed state offset (c :: rest)) := by
  have digit := last_digit_bound c letter
  have known := word_fits (required.length + listed.length) (by omega)
  have limit := word_fits (required.length + listed.length + state.saved.length) (by omega)
  have shifted := word_fits (state.pending * 20) (by omega)
  have pushed : word (state.pending * 20 + (c.toNat - 'A'.toNat + 1)) =
      some (pushLast state.pending (c.toNat - 'A'.toNat + 1)) := word_fits _ (by omega)
  have chosen := chosen_checked required listed state.saved
    (pushLast state.pending (c.toNat - 'A'.toNat + 1)) (Nat.succ_pos _) (by omega)
  have read := continues { state with pending := 0, count := state.count + 1, justSaved := false }
    (Nat.zero_le _) (Nat.le_succ _)
  simp only [lettersChecked, letters, plain, Bool.false_eq_true, if_false, of_char_last c letter,
    word_fits (offset + 1) near, Option.bind_eq_bind, Option.bind_some, known, limit, shifted, pushed,
    chosen, read, numbered_length]
  cases (numbered required listed state.saved)[pushLast state.pending (c.toNat - 'A'.toNat + 1) - 1]? with
  | none => rfl
  | some instruction => cases letters required listed _ (offset + 1) rest <;> rfl

theorem letters_checked_marker (noHigh : isHigh c = false) (noLast : isLast c = false) :
    lettersChecked required listed state offset (c :: rest) =
      some (letters required listed state offset (c :: rest)) := by
  have known := word_fits (required.length + listed.length) (by omega)
  have limit := word_fits (required.length + listed.length + state.saved.length) (by omega)
  simp only [lettersChecked, letters, plain, Bool.false_eq_true, if_false, of_char_other c noHigh noLast,
    word_fits (offset + 1) near, Option.bind_eq_bind, Option.bind_some, known, limit]
  by_cases save : c = 'Z'
  · simp only [if_pos save]
    by_cases inside : state.pending ≠ 0
    · rw [if_pos inside, if_pos inside]
      rfl
    · rw [if_neg inside, if_neg inside]
      by_cases first : state.count = 0
      · rw [if_pos first, if_pos first]
        rfl
      · rw [if_neg first, if_neg first, minus_fits state.count 1 (by omega), Option.bind_some]
        cases state.justSaved with
        | true => rfl
        | false => exact continues _ (by simp; omega) (by simp)
  · by_cases unknown : c = '?'
    · have read := continues { state with count := state.count + 1, justSaved := false } pending
        (Nat.le_succ _)
      simp only [if_neg save, if_pos unknown, read, Option.bind_some]
      by_cases inside : state.pending ≠ 0
      · rw [if_pos inside, if_pos inside]
        rfl
      · rw [if_neg inside, if_neg inside]
        cases letters required listed _ (offset + 1) rest <;> rfl
    · simp only [if_neg save, if_neg unknown]
      rfl

end Checked

-- By induction on the characters. Between two letters the pending number is within the limit, and each
-- letter raises the limit by at most one.
theorem letters_checked (required listed : List Int) (state : LetterState) (offset : Nat)
    (chars : List Char)
    (pending : state.pending ≤ required.length + listed.length + state.saved.length)
    (small : required.length + listed.length + state.saved.length + chars.length < 2 ^ 58)
    (near : offset + chars.length < 2 ^ 63) :
    lettersChecked required listed state offset chars = some (letters required listed state offset chars) := by
  induction chars generalizing state offset with
  | nil => rfl
  | cons c rest ih =>
      rw [List.length_cons] at small near
      have continues : ∀ next : LetterState,
          next.pending ≤ required.length + listed.length + next.saved.length →
          next.saved.length ≤ state.saved.length + 1 →
          lettersChecked required listed next (offset + 1) rest =
            some (letters required listed next (offset + 1) rest) :=
        fun next within grown => ih next (offset + 1) within (by omega) (by omega)
      cases plain : isSpacing c with
      | true =>
          simp only [lettersChecked, letters, plain, if_true, word_fits (offset + 1) (by omega)]
          exact continues state pending (Nat.le_succ _)
      | false =>
          cases isH : isHigh c with
          | true =>
              exact letters_checked_high required listed state offset c rest plain pending (by omega)
                (by omega) continues isH
          | false =>
              cases isL : isLast c with
              | true =>
                  exact letters_checked_last required listed state offset c rest plain pending (by omega)
                    (by omega) continues isL
              | false =>
                  exact letters_checked_marker required listed state offset c rest plain pending (by omega)
                    (by omega) continues isH isL

end Proof

theorem char_count_le (chars : List Char) : chars.length ≤ byteLength chars := by
  induction chars with
  | nil => exact Nat.le_refl 0
  | cons c rest ih =>
      have size := c.utf8Size_pos
      rw [List.length_cons, byte_length_cons]
      omega

theorem word_count_le (offset : Nat) (chars : List Char) : (words offset chars).length ≤ chars.length := by
  induction chars generalizing offset with
  | nil => simp [words]
  | cons c rest ih =>
      have fewer := ih (offset + c.utf8Size)
      rw [words]
      split
      · exact Nat.le_succ_of_le fewer
      · split
        · simp
        · rename_i others shape
          split
          · rw [shape] at fewer
            exact Nat.le_succ_of_le fewer
          · exact Nat.succ_le_succ fewer

section Compressed

variable (t : Table) (owner : Statement) (text : String) (list run : List Char) (listed : List Int)
  (shape : trimStart text.toList = '(' :: (list ++ ')' :: run)) (unclosed : ')' ∉ list)
  (resolved : (words (byteLength (text.toList.takeWhile isBlank) + 1) list).mapM (Proof.listedLabel t owner) =
    .ok listed)

include shape in
theorem compressed_size :
    byteLength (text.toList.takeWhile isBlank) + 1 + byteLength list + 1 + byteLength run =
      text.utf8ByteSize := by
  have parts : text.toList = text.toList.takeWhile isBlank ++ '(' :: (list ++ ')' :: run) := by
    rw [← shape, trimStart, List.takeWhile_append_dropWhile]
  have total := congrArg byteLength parts
  rw [byte_length_text, byte_length_append, byte_length_cons, byte_length_append, byte_length_cons] at total
  have opening : '('.utf8Size = 1 := by decide
  have closing : ')'.utf8Size = 1 := by decide
  omega

include resolved in
theorem listed_length : listed.length ≤ byteLength list := by
  have pairs := ((map_m_ok _ _ _).mp resolved).length_eq
  have words := word_count_le (byteLength (text.toList.takeWhile isBlank) + 1) list
  have chars := char_count_le list
  omega

include shape unclosed resolved in
theorem decode_letters (proof : Proof) :
    Proof.decode t owner text = .ok proof ↔
      Proof.letters owner.frame.required listed {}
        (byteLength (text.toList.takeWhile isBlank) + 1 + byteLength list + 1) run = .ok proof ∧
        proof ≠ [] := by
  have within : ∀ c ∈ list, (c != ')') = true := by
    intro c member
    rw [bne_iff_ne]
    rintro rfl
    exact unclosed member
  have front : (list ++ ')' :: run).takeWhile (· != ')') = list := by
    rw [List.takeWhile_append_of_pos within]
    simp
  have behind : (list ++ ')' :: run).dropWhile (· != ')') = ')' :: run := by
    rw [List.dropWhile_append_of_pos within]
    simp
  simp only [Proof.decode, shape, Proof.decodeCompressed, front, behind, resolved, bind_ok, Except.ok.injEq,
    exists_eq_left']
  split
  · rename_i failed
    simp [failed, Proof.failAt]
  · rename_i found
    simp [found, Proof.failAt, eq_comm]
  · rename_i steps nonempty found
    rw [found, pure_ok, Except.ok.injEq]
    constructor
    · rintro rfl
      exact ⟨rfl, nonempty⟩
    · exact And.left

end Compressed

-- Giving a number up at its high digits loses nothing: the tokens alone decide whether the proof is read,
-- and as what.
theorem compressed_tokens (t : Table) (owner : Statement) (text : String) (list run : List Char)
    (listed : List Int) (shape : trimStart text.toList = '(' :: (list ++ ')' :: run))
    (unclosed : ')' ∉ list)
    (resolved : (words (byteLength (text.toList.takeWhile isBlank) + 1) list).mapM
      (Proof.listedLabel t owner) = .ok listed) :
    (∀ proof, Proof.decode t owner text = .ok proof ↔
        ∃ tokens, split (run.filter fun c => !isSpacing c) = some tokens ∧
          Accepted owner.frame.required.length listed.length tokens ∧
          proof = instructionsAfter owner.frame.required listed [] tokens) ∧
      (owner.frame.required.length + text.utf8ByteSize < 2 ^ 58 →
        Proof.lettersChecked owner.frame.required listed {}
            (byteLength (text.toList.takeWhile isBlank) + 1 + byteLength list + 1) run =
          some (Proof.letters owner.frame.required listed {}
            (byteLength (text.toList.takeWhile isBlank) + 1 + byteLength list + 1) run)) := by
  constructor
  · intro proof
    have start : Proof.LetterState.Follows {} [] [] := ⟨rfl, by simp, rfl, rfl, rfl⟩
    rw [decode_letters t owner text list run listed shape unclosed resolved,
      Proof.letters_ok_iff _ run proof start, List.nil_append]
    simp only [accepted_iff, ReadsAfter]
    constructor
    · rintro ⟨⟨tokens, found, fits, rfl⟩, something⟩
      exact ⟨tokens, found, ⟨fits, something⟩, rfl⟩
    · rintro ⟨tokens, found, ⟨fits, something⟩, rfl⟩
      exact ⟨⟨tokens, found, fits, rfl⟩, something⟩
  · intro small
    have size := compressed_size text list run shape
    have labels := listed_length t owner text list listed resolved
    have chars := char_count_le run
    exact Proof.letters_checked _ _ _ _ run (Nat.zero_le _) (by simp; omega) (by omega)

theorem compressed_tokens_sample :
    trimStart "( repeated ) B AZ CD".toList = '(' :: (" repeated ".toList ++ ')' :: " B AZ CD".toList) ∧
      ')' ∉ " repeated ".toList ∧
      (words 1 " repeated ".toList).mapM (Proof.listedLabel sampleTable (sampleStatement 8)) = .ok [7] ∧
      (∃ tokens, split "BAZCD".toList = some tokens ∧ Accepted 3 1 tokens ∧
        [.reference 3, .reference 2, .reference 5, .reference 7] = instructionsAfter [2, 3, 5] [7] [] tokens) ∧
      Proof.lettersChecked [2, 3, 5] [7] {} 12 " B AZ CD".toList =
        some (Proof.letters [2, 3, 5] [7] {} 12 " B AZ CD".toList) := by
  have shape : trimStart "( repeated ) B AZ CD".toList =
      '(' :: (" repeated ".toList ++ ')' :: " B AZ CD".toList) := by decide
  have unclosed : ')' ∉ " repeated ".toList := by decide
  have resolved : (words 1 " repeated ".toList).mapM (Proof.listedLabel sampleTable (sampleStatement 8)) =
      .ok [7] := rfl
  obtain ⟨same, fits⟩ := compressed_tokens sampleTable (sampleStatement 8) "( repeated ) B AZ CD"
    " repeated ".toList " B AZ CD".toList [7] shape unclosed resolved
  exact ⟨shape, unclosed, resolved, (same _).mp rfl, fits (by decide)⟩

end Lemmata
