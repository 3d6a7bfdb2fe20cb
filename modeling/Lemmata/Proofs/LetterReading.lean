import Lemmata.Proof.Compress
import Lemmata.Proofs.Reading
import Mathlib.Data.List.Basic

/-!
Letter runs are read back. A reader that meets the code of a number takes exactly that code and
gives the instruction that the number stands for, and the run of a whole proof reads as the proof.
-/

set_option autoImplicit false

namespace Lemmata

open Text LetterCode

namespace LetterCode

theorem high_letter_read (digit : Nat) (small : digit < 5) :
    isSpacing (highLetter (digit + 1)) = false ∧
      Letter.ofChar (highLetter (digit + 1)) = some (.high (digit + 1)) := by
  revert digit
  decide

theorem last_letter_read (digit : Nat) (small : digit < 20) :
    isSpacing (lastLetter (digit + 1)) = false ∧
      Letter.ofChar (lastLetter (digit + 1)) = some (.last (digit + 1)) := by
  revert digit
  decide

def highCapacity : Nat → Nat
  | 0 => 0
  | digits + 1 => highCapacity digits * 5 + 5

theorem high_letters_length (digits number : Nat) (fits : number ≤ highCapacity digits) :
    (highLetters number).length ≤ digits := by
  induction digits generalizing number with
  | zero =>
      have none : number = 0 := by simpa [highCapacity] using fits
      simp [none, highLetters]
  | succ digits ih =>
      cases number with
      | zero => simp [highLetters]
      | succ n =>
          have fewer : n / 5 ≤ highCapacity digits := by
            simp only [highCapacity] at fits
            omega
          have shorter := ih (n / 5) fewer
          simp only [highLetters, List.length_append, List.length_singleton]
          omega

theorem encode_length (digits number : Nat) (fits : number ≤ highCapacity digits * 20 + 20) :
    (encode number).length ≤ digits + 1 := by
  have high : (number - 1) / 20 ≤ highCapacity digits := by omega
  have shorter := high_letters_length digits ((number - 1) / 20) high
  simp only [encode, List.length_append, List.length_singleton]
  omega

end LetterCode

namespace Proof

section Reading

variable (required listed : List Int) (state : LetterState)

theorem letters_high (digit : Nat) (small : digit < 5) (offset : Nat) (rest : List Char)
    (inRange : pushHigh state.pending (digit + 1) ≤ (numbered required listed state.saved).length) :
    letters required listed state offset (highLetter (digit + 1) :: rest) =
      letters required listed { state with pending := pushHigh state.pending (digit + 1) } (offset + 1)
        rest := by
  obtain ⟨plain, high⟩ := high_letter_read digit small
  have fits : ¬ (numbered required listed state.saved).length < pushHigh state.pending (digit + 1) := by
    omega
  simp only [letters, plain, high, if_neg fits, Bool.false_eq_true, if_false]

-- Every number on the way to the last high digit is smaller, so the range check passes.
theorem letters_high_letters (number : Nat) (offset : Nat) (rest : List Char)
    (idle : state.pending = 0)
    (inRange : number ≤ (numbered required listed state.saved).length) :
    letters required listed state offset (highLetters number ++ rest) =
      letters required listed { state with pending := number } (offset + (highLetters number).length)
        rest := by
  induction number using highLetters.induct generalizing offset rest with
  | case1 =>
      have same : { state with pending := 0 } = state := by
        cases state
        cases idle
        rfl
      simp [highLetters, same]
  | case2 n ih =>
      have value : pushHigh (n / 5) (n % 5 + 1) = n + 1 := by
        unfold pushHigh
        omega
      rw [highLetters, List.append_assoc, ih offset _ (by omega), List.singleton_append,
        letters_high required listed _ (n % 5) (by omega) _ rest (value.symm ▸ inRange), value,
        List.length_append, List.length_singleton, Nat.add_assoc]

theorem letters_encode (index : Nat) (instruction : Instruction) (offset : Nat) (rest : List Char)
    (idle : state.pending = 0)
    (target : (numbered required listed state.saved)[index]? = some instruction) :
    letters required listed state offset (encode (index + 1) ++ rest) =
      (letters required listed
        { state with pending := 0, count := state.count + 1, justSaved := false }
        (offset + (encode (index + 1)).length) rest).map (instruction :: ·) := by
  obtain ⟨bounded, _⟩ := List.getElem?_eq_some_iff.mp target
  have high : index / 20 ≤ (numbered required listed state.saved).length := by omega
  have value : pushLast (index / 20) (index % 20 + 1) - 1 = index := by
    unfold pushLast
    omega
  obtain ⟨plain, last⟩ := last_letter_read (index % 20) (by omega)
  rw [encode, Nat.add_sub_cancel, List.append_assoc,
    letters_high_letters required listed state (index / 20) offset _ idle high, List.singleton_append]
  simp only [letters, plain, last, value, target, Bool.false_eq_true, if_false, List.length_append,
    List.length_singleton, Nat.add_assoc]
  rfl

theorem letters_unknown (offset : Nat) (rest : List Char) (idle : state.pending = 0) :
    letters required listed state offset ('?' :: rest) =
      (letters required listed { state with pending := 0, count := state.count + 1, justSaved := false }
        (offset + 1) rest).map (.unknown :: ·) := by
  have plain : isSpacing '?' = false := by decide
  have unknown : Letter.ofChar '?' = some .unknown := by decide
  simp only [letters, plain, unknown, idle, ne_eq, not_true_eq_false, Bool.false_eq_true, if_false]
  rfl

theorem letters_save (offset : Nat) (rest : List Char) (idle : state.pending = 0)
    (started : state.count ≠ 0) (fresh : state.justSaved = false) :
    letters required listed state offset ('Z' :: rest) =
      letters required listed
        { state with saved := state.saved ++ [state.count - 1], justSaved := true } (offset + 1) rest := by
  have plain : isSpacing 'Z' = false := by decide
  have save : Letter.ofChar 'Z' = some .save := by decide
  simp only [letters, plain, save, idle, fresh, if_neg started, ne_eq, not_true_eq_false,
    Bool.false_eq_true, if_false]

theorem numbered_reference (saved : List Nat) (index : Nat) (id : Int)
    (found : (required ++ listed)[index]? = some id) :
    (numbered required listed saved)[index]? = some (.reference id) := by
  have bounded := (List.getElem?_eq_some_iff.mp found).1
  rw [numbered, List.getElem?_append_left (by simpa using bounded), List.getElem?_map, found]
  rfl

theorem numbered_reuse (saved : List Nat) (index step : Nat) (found : saved[index]? = some step) :
    (numbered required listed saved)[required.length + listed.length + index]? =
      some (.reuse step) := by
  rw [numbered, List.getElem?_append_right (by simp)]
  simp [found]

end Reading

end Proof

def Instruction.Numbered (required listed : List Int) (saved : List Nat) : Instruction → Prop
  | .reference id => id ∈ required ∨ id ∈ listed
  | .reuse step => 0 ≤ step ∧ step.toNat ∈ saved
  | .unknown => True
  | .invalid _ => False

theorem Instruction.Numbered.more {required listed : List Int} {now saved : List Nat}
    (included : now ⊆ saved) (instruction : Instruction)
    (known : instruction.Numbered required listed now) : instruction.Numbered required listed saved := by
  cases instruction with
  | reuse step => exact ⟨known.1, included known.2⟩
  | _ => exact known

namespace Proof

section Runs

variable (required listed : List Int)

theorem letter_of_number (saved now : List Nat) (savedPrefix : now <+: saved)
    (instruction : Instruction) (known : instruction.Numbered required listed now) :
    (instruction = .unknown ∧ letterOf required listed saved instruction = ['?']) ∨
      ∃ index, (numbered required listed now)[index]? = some instruction ∧
        letterOf required listed saved instruction = encode (index + 1) := by
  cases instruction with
  | reference id =>
      right
      cases found : required.idxOf? id with
      | some index =>
          refine ⟨index, ?_, by simp only [letterOf, found]⟩
          apply numbered_reference
          obtain ⟨bounded, same, _⟩ := List.idxOf?_eq_some_iff.mp found
          rw [List.getElem?_append_left bounded, List.getElem?_eq_getElem bounded]
          exact congrArg some same
      | none =>
          have missing : id ∉ required := List.idxOf?_eq_none_iff.mp found
          have present : id ∈ listed := known.resolve_left missing
          refine ⟨required.length + listed.idxOf id, ?_, by simp only [letterOf, found]⟩
          apply numbered_reference
          rw [List.getElem?_append_right (by omega), Nat.add_sub_cancel_left,
            List.getElem?_idxOf present]
  | reuse step =>
      right
      obtain ⟨nonnegative, present⟩ := known
      refine ⟨required.length + listed.length + saved.idxOf step.toNat, ?_, rfl⟩
      rw [← savedPrefix.idxOf_eq_of_mem present]
      have target := numbered_reuse required listed now _ step.toNat (List.getElem?_idxOf present)
      rw [Int.toNat_of_nonneg nonnegative] at target
      exact target
  | unknown => exact Or.inl ⟨rfl, rfl⟩
  | invalid kind => exact False.elim known

theorem letters_instruction (saved : List Nat) (state : LetterState) (offset : Nat) (rest : List Char)
    (instruction : Instruction) (known : instruction.Numbered required listed state.saved)
    (savedPrefix : state.saved <+: saved) (idle : state.pending = 0) :
    letters required listed state offset (letterOf required listed saved instruction ++ rest) =
      (letters required listed
        { state with pending := 0, count := state.count + 1, justSaved := false }
        (offset + (letterOf required listed saved instruction).length) rest).map
          (instruction :: ·) := by
  rcases letter_of_number required listed saved state.saved savedPrefix instruction known with
    ⟨rfl, code⟩ | ⟨index, target, code⟩
  · rw [code]
    exact letters_unknown required listed state offset rest idle
  · rw [code]
    exact letters_encode required listed state index instruction offset rest idle target

def savedBefore (proof : Proof) (step : Nat) : List Nat :=
  (List.range step).filter fun target => proof.contains (.reuse target)

theorem saved_before_prefix (proof : Proof) (step : Nat) (bounded : step ≤ proof.length) :
    savedBefore proof step <+: savedSteps proof := by
  apply List.IsPrefix.filter
  obtain ⟨more, same⟩ := Nat.exists_eq_add_of_le bounded
  rw [same, List.range_add]
  exact List.prefix_append _ _

theorem saved_before_succ (proof : Proof) (step : Nat) :
    savedBefore proof (step + 1) =
      savedBefore proof step ++ if proof.contains (.reuse step) then [step] else [] := by
  rw [savedBefore, List.range_succ, List.filter_append, List.filter_cons, List.filter_nil]
  rfl

theorem saved_contains (proof : Proof) (step : Nat) (bounded : step < proof.length) :
    (savedSteps proof).contains step = proof.contains (.reuse step) := by
  rw [Bool.eq_iff_iff, List.contains_iff_mem]
  simp [savedSteps, bounded]

-- By induction on the instructions that remain. Before each of them the reader is between two
-- numbers and has saved the reused steps that lie behind it.
theorem letters_run (proof rest : Proof) (step : Nat) (state : LetterState) (offset : Nat)
    (length : step + rest.length = proof.length)
    (known : rest.EachFrom
      (fun position instruction => instruction.Numbered required listed (savedBefore proof position))
      step)
    (idle : state.pending = 0) (count : state.count = step)
    (saved : state.saved = savedBefore proof step) :
    letters required listed state offset (letterRun required listed (savedSteps proof) step rest) =
      .ok rest := by
  induction rest generalizing step state offset with
  | nil => simp [letterRun, letters, idle]
  | cons instruction rest ih =>
      have inside : step < proof.length := by
        rw [List.length_cons] at length
        omega
      have remaining : step + 1 + rest.length = proof.length := by
        rw [← length, List.length_cons]
        omega
      have keeps : state.saved <+: savedSteps proof :=
        saved ▸ saved_before_prefix proof step (Nat.le_of_lt inside)
      have succ := saved_before_succ proof step
      rw [letterRun, List.append_assoc, letters_instruction required listed (savedSteps proof) state
        offset _ instruction (saved ▸ known.1) keeps idle, saved_contains proof step inside]
      by_cases reused : proof.contains (.reuse step) = true
      · rw [if_pos reused] at succ ⊢
        rw [List.singleton_append, letters_save _ _ _ _ _ rfl (Nat.succ_ne_zero _) rfl,
          ih (step + 1) _ _ remaining known.2 rfl (congrArg (· + 1) count)]
        · rfl
        · rw [succ, ← saved, ← count]
          rfl
      · rw [if_neg reused] at succ ⊢
        rw [List.nil_append, ih (step + 1) _ _ remaining known.2 rfl (congrArg (· + 1) count)]
        · rfl
        · rw [succ, ← saved, List.append_nil]

end Runs

end Proof

end Lemmata
