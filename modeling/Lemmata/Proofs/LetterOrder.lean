import Lemmata.Proofs.CompressedReading
import Mathlib.Data.List.Lex

/-!
Letter codes in their order. A code is written backwards into a buffer of sixteen letters, which is
enough for the numbers up to `5 ^ 17 - 5` and for no others. The codes of these numbers are the words of
at most fifteen letters from `U` to `Y` and one letter from `A` to `T`, each word once, and the larger of
two numbers has the longer code, or the one that comes later in the alphabet.
-/

set_option autoImplicit false

namespace Lemmata

open LetterCode

namespace LetterCode

def put (buffer : List Char) (place : Nat) (letter : Char) : Option (List Char) :=
  if place < buffer.length then some (buffer.set place letter) else none

-- The high digits of a number in front of the letter at `place`, the last digit first. The result also
-- has the place of the first digit.
def writeHigh (buffer : List Char) (place number : Nat) : Option (List Char × Nat) :=
  match number with
  | 0 => some (buffer, place)
  | n + 1 => do
      let before ← Proof.minus place 1
      let next ← put buffer before (highLetter (n % 5 + 1))
      writeHigh next before (n / 5)
termination_by number
decreasing_by omega

def write (size number : Nat) : Option (List Char) := do
  let place ← Proof.minus size 1
  let first ← put (List.replicate size ' ') place (lastLetter ((number - 1) % 20 + 1))
  let (buffer, start) ← writeHigh first place ((number - 1) / 20)
  return buffer.drop start

section Letters

theorem high_letter_class (digit : Nat) (small : digit < 5) : isHigh (highLetter (digit + 1)) = true := by
  revert digit
  decide

theorem last_letter_class (digit : Nat) (small : digit < 20) : isLast (lastLetter (digit + 1)) = true := by
  revert digit
  decide

theorem high_letter_digit (digit : Nat) (small : digit < 5) :
    (highLetter (digit + 1)).toNat - 'U'.toNat + 1 = digit + 1 := by
  revert digit
  decide

theorem last_letter_digit (digit : Nat) (small : digit < 20) :
    (lastLetter (digit + 1)).toNat - 'A'.toNat + 1 = digit + 1 := by
  revert digit
  decide

theorem class_start (first c : Char) (above : first ≤ c) : first.toNat ≤ c.toNat :=
  UInt32.le_iff_toNat_le.mp above

theorem high_letter_of_digit (c : Char) (letter : isHigh c = true) :
    highLetter (c.toNat - 'U'.toNat + 1) = c := by
  simp only [isHigh, decide_eq_true_eq] at letter
  have start := class_start 'U' c letter.1
  have position : 'U'.toNat + (c.toNat - 'U'.toNat + 1) - 1 = c.toNat := by omega
  rw [highLetter, position, Char.ofNat_toNat]

theorem last_letter_of_digit (c : Char) (letter : isLast c = true) :
    lastLetter (c.toNat - 'A'.toNat + 1) = c := by
  simp only [isLast, decide_eq_true_eq] at letter
  have start := class_start 'A' c letter.1
  have position : 'A'.toNat + (c.toNat - 'A'.toNat + 1) - 1 = c.toNat := by omega
  rw [lastLetter, position, Char.ofNat_toNat]

end Letters

section Values

theorem high_letters_class (number : Nat) : ∀ c ∈ highLetters number, isHigh c = true := by
  induction number using highLetters.induct with
  | case1 => simp [highLetters]
  | case2 n ih =>
      rw [highLetters, List.forall_mem_append]
      refine ⟨ih, ?_⟩
      rintro c single
      rw [List.mem_singleton.mp single]
      exact high_letter_class (n % 5) (by omega)

theorem high_value_letters (number : Nat) : highValue (highLetters number) = number := by
  induction number using highLetters.induct with
  | case1 => simp [highLetters, highValue]
  | case2 n ih =>
      rw [highLetters, high_value_snoc, ih, high_letter_digit (n % 5) (by omega), pushHigh]
      omega

theorem high_letters_value (high : List Char) (all : ∀ c ∈ high, isHigh c = true) :
    highLetters (highValue high) = high := by
  induction high using List.reverseRecOn with
  | nil => simp [highLetters, highValue]
  | append_singleton front c ih =>
      rw [List.forall_mem_append] at all
      have letter := all.2 c (List.mem_singleton_self c)
      have digit := Proof.high_digit_bound c letter
      have value : highValue (front ++ [c]) = highValue front * 5 + (c.toNat - 'U'.toNat) + 1 :=
        high_value_snoc front c
      have quotient : (highValue front * 5 + (c.toNat - 'U'.toNat)) / 5 = highValue front := by omega
      have remainder : (highValue front * 5 + (c.toNat - 'U'.toNat)) % 5 = c.toNat - 'U'.toNat := by omega
      rw [value, highLetters, quotient, remainder, ih all.1, high_letter_of_digit c letter]

theorem high_value_capacity (high : List Char) (all : ∀ c ∈ high, isHigh c = true) :
    highValue high ≤ highCapacity high.length := by
  induction high using List.reverseRecOn with
  | nil => exact Nat.le_refl 0
  | append_singleton front c ih =>
      rw [List.forall_mem_append] at all
      have digit := Proof.high_digit_bound c (all.2 c (List.mem_singleton_self c))
      have smaller := ih all.1
      rw [high_value_snoc, pushHigh, List.length_append, List.length_singleton, highCapacity]
      omega

theorem high_capacity_mono (digits more : Nat) (fewer : digits ≤ more) :
    highCapacity digits ≤ highCapacity more := by
  induction fewer with
  | refl => exact Nat.le_refl _
  | step _ ih =>
      rw [highCapacity]
      omega

theorem high_letters_fit (digits number : Nat) :
    (highLetters number).length ≤ digits ↔ number ≤ highCapacity digits := by
  constructor
  · intro short
    have bound := high_value_capacity _ (high_letters_class number)
    rw [high_value_letters] at bound
    exact Nat.le_trans bound (high_capacity_mono _ _ short)
  · exact high_letters_length digits number

theorem number_value_encode (number : Nat) (positive : 1 ≤ number) :
    numberValue (highLetters ((number - 1) / 20)) (lastLetter ((number - 1) % 20 + 1)) = number := by
  rw [numberValue, high_value_letters, last_letter_digit _ (by omega)]
  omega

theorem encode_number_value (high : List Char) (last : Char) (all : ∀ c ∈ high, isHigh c = true)
    (ends : isLast last = true) : encode (numberValue high last) = high ++ [last] := by
  have digit := Proof.last_digit_bound last ends
  have quotient : (numberValue high last - 1) / 20 = highValue high := by
    rw [numberValue]
    omega
  have remainder : (numberValue high last - 1) % 20 = last.toNat - 'A'.toNat := by
    rw [numberValue]
    omega
  rw [encode, quotient, remainder, high_letters_value high all, last_letter_of_digit last ends]

theorem encode_injective (number other : Nat) (positive : 1 ≤ number) (otherPositive : 1 ≤ other)
    (same : encode number = encode other) : number = other := by
  obtain ⟨high, last⟩ := List.append_inj' same rfl
  rw [← number_value_encode number positive, high, List.singleton_inj.mp last,
    number_value_encode other otherPositive]

end Values

section Buffer

theorem put_inside (buffer : List Char) (place : Nat) (letter : Char) (inside : place < buffer.length) :
    put buffer place letter = some (buffer.set place letter) := if_pos inside

theorem put_drop (buffer : List Char) (place : Nat) (letter : Char) (inside : place < buffer.length) :
    (buffer.set place letter).drop place = letter :: buffer.drop (place + 1) := by
  rw [List.drop_set, if_neg (Nat.lt_irrefl place), Nat.sub_self, List.drop_eq_getElem_cons inside]
  rfl

theorem write_high_inside (number : Nat) (buffer : List Char) (place : Nat) (inside : place ≤ buffer.length)
    (enough : (highLetters number).length ≤ place) :
    ∃ filled, writeHigh buffer place number = some (filled, place - (highLetters number).length) ∧
      filled.drop (place - (highLetters number).length) = highLetters number ++ buffer.drop place := by
  induction number using highLetters.induct generalizing buffer place with
  | case1 => exact ⟨buffer, by simp [writeHigh, highLetters], by simp [highLetters]⟩
  | case2 n ih =>
      have length : (highLetters (n + 1)).length = (highLetters (n / 5)).length + 1 := by
        simp [highLetters]
      rw [length] at enough ⊢
      obtain ⟨before, rfl⟩ := Nat.exists_eq_succ_of_ne_zero (show place ≠ 0 by omega)
      set letter := highLetter (n % 5 + 1) with own
      obtain ⟨filled, written, content⟩ := ih (buffer.set before letter) before
        (by rw [List.length_set]; omega) (by omega)
      have start : before.succ - ((highLetters (n / 5)).length + 1) =
          before - (highLetters (n / 5)).length := by omega
      refine ⟨filled, ?_, ?_⟩
      · rw [writeHigh, Proof.minus_fits _ _ (Nat.succ_pos before), Nat.succ_sub_one, Option.bind_eq_bind,
          Option.bind_some, put_inside buffer before _ inside, Option.bind_eq_bind, Option.bind_some, written,
          start]
      · rw [start, content, put_drop buffer before letter inside, highLetters]
        simp [own]

theorem write_high_outside (number : Nat) (buffer : List Char) (place : Nat)
    (short : place < (highLetters number).length) : writeHigh buffer place number = none := by
  induction number using highLetters.induct generalizing buffer place with
  | case1 => simp [highLetters] at short
  | case2 n ih =>
      rw [highLetters, List.length_append, List.length_singleton] at short
      cases place with
      | zero => simp [writeHigh, Proof.minus]
      | succ before =>
          rw [writeHigh, Proof.minus_fits _ _ (Nat.succ_pos before), Nat.succ_sub_one, Option.bind_eq_bind,
            Option.bind_some]
          cases put buffer before (highLetter (n % 5 + 1)) with
          | none => rfl
          | some next => exact ih next before (by omega)

theorem write_encode (digits number : Nat) :
    write (digits + 1) number =
      if number ≤ highCapacity digits * 20 + 20 then some (encode number) else none := by
  set last := lastLetter ((number - 1) % 20 + 1) with own
  have place : Proof.minus (digits + 1) 1 = some digits := Proof.minus_fits _ _ (Nat.succ_pos digits)
  have inside : digits < (List.replicate (digits + 1) ' ').length := by simp
  have begun : put (List.replicate (digits + 1) ' ') digits last =
      some ((List.replicate (digits + 1) ' ').set digits last) := put_inside _ _ _ inside
  have behind : ((List.replicate (digits + 1) ' ').set digits last).drop digits = [last] := by
    rw [put_drop _ _ _ inside]
    simp
  have fits := high_letters_fit digits ((number - 1) / 20)
  simp only [write, place, Option.bind_eq_bind, Option.bind_some, ← own, begun]
  split
  · rename_i small
    obtain ⟨filled, written, content⟩ := write_high_inside ((number - 1) / 20)
      ((List.replicate (digits + 1) ' ').set digits last) digits (by simp) (fits.mpr (by omega))
    rw [written, Option.bind_some, content, behind, encode]
    rfl
  · rename_i large
    rw [write_high_outside _ _ _ (Nat.lt_of_not_le fun short => large (by have := fits.mp short; omega))]
    rfl

end Buffer

section Order

def highFrom (start : Nat) (high : List Char) : Nat :=
  high.foldl (fun value c => value * 5 + (c.toNat - 'U'.toNat + 1)) start

theorem high_from_lt (start larger : Nat) (less : start < larger) (high more : List Char)
    (all : ∀ c ∈ high, isHigh c = true) (length : high.length = more.length) :
    highFrom start high < highFrom larger more := by
  induction high generalizing start larger more with
  | nil =>
      rw [List.length_nil, eq_comm, List.length_eq_zero_iff] at length
      rwa [length]
  | cons c rest ih =>
      cases more with
      | nil => cases length
      | cons d others =>
          rw [List.forall_mem_cons] at all
          have digit := Proof.high_digit_bound c all.1
          have pushed : start * 5 + (c.toNat - 'U'.toNat + 1) < larger * 5 + (d.toNat - 'U'.toNat + 1) := by
            omega
          exact ih _ _ pushed others all.2 (Nat.succ.inj length)

theorem letter_digit_lt (first c d : Char) (above : first ≤ c) (less : c < d) :
    c.toNat - first.toNat + 1 < d.toNat - first.toNat + 1 := by
  have start := class_start first c above
  have next : c.toNat < d.toNat := UInt32.lt_iff_toNat_lt.mp less
  omega

-- Of two codes of one length, the one that comes first in the alphabet has the smaller value: the first
-- letter in which they differ decides about both.
theorem code_value_lt (start : Nat) (high more : List Char) (last final : Char)
    (all : ∀ c ∈ high, isHigh c = true) (ends : isLast last = true) (length : high.length = more.length)
    (before : high ++ [last] < more ++ [final]) :
    highFrom start high * 20 + (last.toNat - 'A'.toNat + 1) <
      highFrom start more * 20 + (final.toNat - 'A'.toNat + 1) := by
  induction high generalizing start more with
  | nil =>
      rw [List.length_nil, eq_comm, List.length_eq_zero_iff] at length
      subst length
      simp only [List.nil_append, List.cons_lt_cons_iff, List.lt_irrefl, and_false, or_false] at before
      simp only [isLast, decide_eq_true_eq] at ends
      have digits := letter_digit_lt 'A' last final ends.1 before
      omega
  | cons c rest ih =>
      cases more with
      | nil => cases length
      | cons d others =>
          rw [List.forall_mem_cons] at all
          have lengths : rest.length = others.length := Nat.succ.inj length
          rw [List.cons_append, List.cons_append, List.cons_lt_cons_iff] at before
          rcases before with less | ⟨rfl, behind⟩
          · have letter := all.1
            simp only [isHigh, decide_eq_true_eq] at letter
            have digits := letter_digit_lt 'U' c d letter.1 less
            have smaller : highFrom start (c :: rest) < highFrom start (d :: others) :=
              high_from_lt _ _ (Nat.add_lt_add_left digits _) rest others all.2 lengths
            have digit := Proof.last_digit_bound last ends
            omega
          · exact ih _ others all.2 lengths behind

theorem encode_lt (number other : Nat) (positive : 1 ≤ number) (otherPositive : 1 ≤ other)
    (length : (encode number).length = (encode other).length) (before : encode number < encode other) :
    number < other := by
  have highs : (highLetters ((number - 1) / 20)).length = (highLetters ((other - 1) / 20)).length := by
    simpa [encode] using length
  have less := code_value_lt 0 _ _ _ _ (high_letters_class _) (last_letter_class _ (by omega)) highs before
  have value := number_value_encode number positive
  have otherValue := number_value_encode other otherPositive
  rw [numberValue] at value otherValue
  rw [← value, ← otherValue]
  exact less

theorem encode_length_mono (number other : Nat) (le : number ≤ other) :
    (encode number).length ≤ (encode other).length := by
  have highs : (highLetters ((number - 1) / 20)).length ≤ (highLetters ((other - 1) / 20)).length := by
    rw [high_letters_fit]
    have fits := (high_letters_fit _ ((other - 1) / 20)).mp (Nat.le_refl _)
    omega
  simpa [encode] using highs

theorem encode_order (number other : Nat) (positive : 1 ≤ number) (otherPositive : 1 ≤ other) :
    number < other ↔ (encode number).length < (encode other).length ∨
      (encode number).length = (encode other).length ∧ encode number < encode other := by
  constructor
  · intro less
    rcases Nat.lt_or_eq_of_le (encode_length_mono number other (Nat.le_of_lt less)) with shorter | length
    · exact Or.inl shorter
    · refine Or.inr ⟨length, ?_⟩
      rcases lt_trichotomy (encode number) (encode other) with before | same | behind
      · exact before
      · exact absurd (encode_injective number other positive otherPositive same) (Nat.ne_of_lt less)
      · exact absurd (encode_lt other number otherPositive positive length.symm behind) (Nat.lt_asymm less)
  · rintro (shorter | ⟨length, before⟩)
    · exact Nat.lt_of_not_le fun le => Nat.not_lt_of_le (encode_length_mono other number le) shorter
    · exact encode_lt number other positive otherPositive length before

end Order

structure IsCode (digits : Nat) (high : List Char) (last : Char) : Prop where
  short : high.length ≤ digits
  high : ∀ c ∈ high, isHigh c = true
  last : isLast last = true

theorem IsCode.value_bounds {digits : Nat} {high : List Char} {last : Char} (code : IsCode digits high last) :
    1 ≤ numberValue high last ∧ numberValue high last ≤ highCapacity digits * 20 + 20 := by
  have capacity := high_value_capacity high code.high
  have more := high_capacity_mono _ _ code.short
  have digit := Proof.last_digit_bound last code.last
  rw [numberValue]
  omega

theorem encode_code (digits number : Nat) (positive : 1 ≤ number)
    (fits : number ≤ highCapacity digits * 20 + 20) :
    ∃ high last, encode number = high ++ [last] ∧ IsCode digits high last ∧ numberValue high last = number := by
  refine ⟨_, _, rfl, ⟨?_, high_letters_class _, last_letter_class _ (by omega)⟩,
    number_value_encode number positive⟩
  rw [high_letters_fit]
  omega

theorem code_unique (digits : Nat) (high : List Char) (last : Char) (code : IsCode digits high last) :
    ∃! number, 1 ≤ number ∧ number ≤ highCapacity digits * 20 + 20 ∧ encode number = high ++ [last] := by
  have own := encode_number_value high last code.high code.last
  refine ⟨numberValue high last, ⟨code.value_bounds.1, code.value_bounds.2, own⟩, ?_⟩
  rintro number ⟨positive, _, same⟩
  exact encode_injective _ _ positive code.value_bounds.1 (same.trans own.symm)

end LetterCode

def Proof.TakesFor (code : List Char) (number : Nat) : Prop :=
  ∀ (required listed : List Int) (state : LetterState) (offset : Nat) (rest : List Char)
    (instruction : Instruction), state.pending = 0 →
    (numbered required listed state.saved)[number - 1]? = some instruction →
    letters required listed state offset (code ++ rest) =
      (letters required listed { state with pending := 0, count := state.count + 1, justSaved := false }
        (offset + code.length) rest).map (instruction :: ·)

theorem Proof.takes_encode (number : Nat) (positive : 1 ≤ number) : TakesFor (encode number) number := by
  intro required listed state offset rest instruction idle target
  have code := letters_encode required listed state (number - 1) instruction offset rest idle target
  rwa [Nat.sub_add_cancel positive] at code

theorem letter_codes_bijective :
    (∀ number, write 16 number = if number ≤ 5 ^ 17 - 5 then some (encode number) else none) ∧
      (∀ number, 1 ≤ number → number ≤ 5 ^ 17 - 5 →
        (∃ high last, encode number = high ++ [last] ∧ IsCode 15 high last ∧ numberValue high last = number) ∧
          Proof.TakesFor (encode number) number) ∧
      (∀ high last, IsCode 15 high last →
        ∃! number, 1 ≤ number ∧ number ≤ 5 ^ 17 - 5 ∧ encode number = high ++ [last]) ∧
      ∀ number other, 1 ≤ number → 1 ≤ other →
        (number < other ↔ (encode number).length < (encode other).length ∨
          (encode number).length = (encode other).length ∧ encode number < encode other) := by
  have capacity : highCapacity 15 * 20 + 20 = 5 ^ 17 - 5 := by decide
  rw [← capacity]
  exact ⟨write_encode 15,
    fun number positive fits => ⟨encode_code 15 number positive fits, Proof.takes_encode number positive⟩,
    code_unique 15, encode_order⟩

theorem letter_codes_bijective_limit :
    write 16 (5 ^ 17 - 5) = some (encode (5 ^ 17 - 5)) ∧ write 16 (5 ^ 17 - 4) = none ∧
      (∃! number, 1 ≤ number ∧ number ≤ 5 ^ 17 - 5 ∧ encode number = List.replicate 15 'Y' ++ ['T']) ∧
      encode 20 = ['T'] ∧ encode 21 = ['U', 'A'] ∧ Proof.TakesFor ['U', 'A'] 21 := by
  obtain ⟨written, read, unique, _⟩ := letter_codes_bijective
  have single : encode 20 = ['T'] := by simp [encode, highLetters, lastLetter]
  have double : encode 21 = ['U', 'A'] := by simp [encode, highLetters, highLetter, lastLetter]
  have last : ∀ c ∈ List.replicate 15 'Y', isHigh c = true := fun c member =>
    List.eq_of_mem_replicate member ▸ by decide
  refine ⟨(written _).trans (if_pos (Nat.le_refl _)), (written _).trans (if_neg (by decide)),
    unique _ _ ⟨by decide, last, by decide⟩, single, double, ?_⟩
  exact double ▸ (read 21 (by decide) (by decide)).2

end Lemmata
