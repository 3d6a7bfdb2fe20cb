import Lemmata.Proofs.Compression
import Lemmata.Proofs.Runnable
import Mathlib.Data.List.Induction
import Mathlib.Data.List.TakeWhile

/-!
Letter runs cut into tokens. The reader of compressed proofs goes over the letters once and gives up a
number as soon as its high digits are out of range. It accepts the same runs, and reads them as the same
instructions, as a reader that first cuts the run into whole tokens and then looks at each of them.
-/

set_option autoImplicit false

namespace Lemmata

open Text LetterCode

namespace LetterCode

def isHigh (c : Char) : Bool := decide ('U' ≤ c ∧ c ≤ 'Y')

def isLast (c : Char) : Bool := decide ('A' ≤ c ∧ c ≤ 'T')

inductive Token where
  | save
  | unknown
  | number (high : List Char) (last : Char)
deriving DecidableEq, Repr

def split (letters : List Char) : Option (List Token) :=
  match letters with
  | [] => some []
  | c :: rest =>
      if c = 'Z' then (split rest).map (.save :: ·)
      else if c = '?' then (split rest).map (.unknown :: ·)
      else
        let high := (c :: rest).takeWhile isHigh
        let behind := (c :: rest).dropWhile isHigh
        match behind.head? with
        | some last => if isLast last then (split behind.tail).map (.number high last :: ·) else none
        | none => none
termination_by letters.length
decreasing_by
  · simp
  · simp
  · have shorter := (List.dropWhile_sublist (l := c :: rest) isHigh).length_le
    simp only [List.length_cons, List.length_tail] at shorter ⊢
    omega

def highValue (high : List Char) : Nat :=
  high.foldl (fun value c => value * 5 + (c.toNat - 'U'.toNat + 1)) 0

def numberValue (high : List Char) (last : Char) : Nat :=
  highValue high * 20 + (last.toNat - 'A'.toNat + 1)

def stepCount (tokens : List Token) : Nat := tokens.countP (· != .save)

-- The step that each save marker of the tokens belongs to, the one right before it. So many steps come
-- before the first token.
def savedFrom : Nat → List Token → List Nat
  | _, [] => []
  | count, .save :: rest => (count - 1) :: savedFrom count rest
  | count, _ :: rest => savedFrom (count + 1) rest

def Token.Fits (hypotheses labels : Nat) (before : List Token) : Token → Prop
  | .save => ∃ last, before.getLast? = some last ∧ last ≠ .save
  | .unknown => True
  | .number high last => numberValue high last ≤ hypotheses + labels + before.count .save

structure Accepted (hypotheses labels : Nat) (tokens : List Token) : Prop where
  started : ∃ token ∈ tokens, token ≠ .save
  fits : ∀ before token behind, tokens = before ++ token :: behind → token.Fits hypotheses labels before

def Token.instruction (required listed : List Int) (before : List Token) : Token → Proof
  | .save => []
  | .unknown => [.unknown]
  | .number high last =>
      (Proof.selected required listed (savedFrom 0 before) (numberValue high last)).join.toList

def instructionsAfter (required listed : List Int) : List Token → List Token → Proof
  | _, [] => []
  | before, token :: rest =>
      token.instruction required listed before ++ instructionsAfter required listed (before ++ [token]) rest

theorem of_char_high (c : Char) (letter : isHigh c = true) :
    Letter.ofChar c = some (.high (c.toNat - 'U'.toNat + 1)) := by
  simp only [isHigh, decide_eq_true_eq] at letter
  simp only [Letter.ofChar, if_pos letter]

theorem last_not_high (c : Char) (letter : isLast c = true) : isHigh c = false := by
  simp only [isLast, isHigh, decide_eq_true_eq, decide_eq_false_iff_not, Char.le_def,
    UInt32.le_iff_toNat_le] at letter ⊢
  have bound : 'T'.val.toNat < 'U'.val.toNat := by decide
  omega

theorem of_char_last (c : Char) (letter : isLast c = true) :
    Letter.ofChar c = some (.last (c.toNat - 'A'.toNat + 1)) := by
  have other : ¬ ('U' ≤ c ∧ c ≤ 'Y') := by simpa [isHigh] using last_not_high c letter
  simp only [isLast, decide_eq_true_eq] at letter
  simp only [Letter.ofChar, if_neg other, if_pos letter]

theorem of_char_other (c : Char) (high : isHigh c = false) (last : isLast c = false) :
    Letter.ofChar c = if c = 'Z' then some .save else if c = '?' then some .unknown else none := by
  simp only [isHigh, isLast, decide_eq_false_iff_not] at high last
  simp only [Letter.ofChar, if_neg high, if_neg last]

section Splitting

variable (high rest : List Char) (c : Char) (all : ∀ letter ∈ high, isHigh letter = true)

theorem high_no_marker (letter : isHigh c = true) : c ≠ 'Z' ∧ c ≠ '?' := by
  constructor <;> rintro rfl <;> revert letter <;> decide

theorem last_no_marker (letter : isLast c = true) : c ≠ 'Z' ∧ c ≠ '?' := by
  constructor <;> rintro rfl <;> revert letter <;> decide

theorem split_number_start (letters : List Char) (starts : letters.head? = some c)
    (plain : c ≠ 'Z' ∧ c ≠ '?') :
    split letters = match (letters.dropWhile isHigh).head? with
      | some last =>
          if isLast last then
            (split (letters.dropWhile isHigh).tail).map (.number (letters.takeWhile isHigh) last :: ·)
          else none
      | none => none := by
  cases letters with
  | nil => cases starts
  | cons first others =>
      cases starts
      rw [split, if_neg plain.1, if_neg plain.2]

include all in
theorem split_behind_high (stop : isHigh c = false) (inside : high ≠ [] ∨ c ≠ 'Z' ∧ c ≠ '?') :
    split (high ++ c :: rest) =
      if isLast c then (split rest).map (.number high c :: ·) else none := by
  have start : ∃ first, (high ++ c :: rest).head? = some first ∧ first ≠ 'Z' ∧ first ≠ '?' := by
    cases high with
    | nil => exact ⟨c, rfl, inside.resolve_left fun none => none rfl⟩
    | cons first others => exact ⟨first, rfl, high_no_marker first (all first List.mem_cons_self)⟩
  obtain ⟨first, starts, plain⟩ := start
  have ends : ¬ isHigh c = true := by simp [stop]
  rw [split_number_start first _ starts plain, List.dropWhile_append_of_pos all,
    List.takeWhile_append_of_pos all, List.dropWhile_cons_of_neg ends, List.takeWhile_cons_of_neg ends]
  simp

include all in
theorem split_number (last : isLast c = true) :
    split (high ++ c :: rest) = (split rest).map (.number high c :: ·) := by
  rw [split_behind_high high rest c all (last_not_high c last) (Or.inr (last_no_marker c last)), if_pos last]

include all in
theorem split_blocked (stop : isHigh c = false) (last : isLast c = false)
    (inside : high ≠ [] ∨ c ≠ 'Z' ∧ c ≠ '?') : split (high ++ c :: rest) = none := by
  rw [split_behind_high high rest c all stop inside, if_neg (by simp [last])]

include all in
theorem split_unfinished (begun : high ≠ []) : split high = none := by
  obtain ⟨first, others, rfl⟩ := List.exists_cons_of_ne_nil begun
  have nothing : (first :: others).dropWhile isHigh = [] := List.dropWhile_eq_nil_iff.mpr all
  rw [split_number_start first _ rfl (high_no_marker first (all first List.mem_cons_self)), nothing]
  rfl

include all in
theorem split_begun (begun : high ≠ []) (tokens : List Token) (found : split (high ++ rest) = some tokens) :
    ∃ more last others, isLast last = true ∧ tokens = .number (high ++ more) last :: others := by
  obtain ⟨first, others, rfl⟩ := List.exists_cons_of_ne_nil begun
  rw [split_number_start first _ rfl (high_no_marker first (all first List.mem_cons_self)),
    List.takeWhile_append_of_pos all] at found
  split at found
  · rename_i last _
    split at found
    · rename_i ends
      obtain ⟨behind, _, rfl⟩ := Option.map_eq_some_iff.mp found
      exact ⟨rest.takeWhile isHigh, last, behind, ends, rfl⟩
    · cases found
  · cases found

end Splitting

theorem high_value_snoc (high : List Char) (c : Char) :
    highValue (high ++ [c]) = pushHigh (highValue high) (c.toNat - 'U'.toNat + 1) := by
  rw [highValue, List.foldl_append]
  rfl

theorem high_value_append (high more : List Char) : highValue high ≤ highValue (high ++ more) := by
  induction more using List.reverseRecOn with
  | nil => simp
  | append_singleton front c ih =>
      rw [← List.append_assoc, high_value_snoc, pushHigh]
      omega

theorem high_value_zero (high : List Char) : highValue high = 0 ↔ high = [] := by
  constructor
  · intro zero
    cases high using List.reverseRecOn with
    | nil => rfl
    | append_singleton front c =>
        rw [high_value_snoc, pushHigh] at zero
        omega
  · rintro rfl
    rfl

theorem step_count_snoc (before : List Token) (token : Token) :
    stepCount (before ++ [token]) = stepCount before + if token = .save then 0 else 1 := by
  by_cases save : token = .save <;> simp [stepCount, save]

theorem saved_from_length (count : Nat) (tokens : List Token) :
    (savedFrom count tokens).length = tokens.count .save := by
  induction tokens generalizing count with
  | nil => rfl
  | cons token rest ih => cases token <;> simp [savedFrom, ih]

theorem saved_from_snoc (count : Nat) (before : List Token) (token : Token) :
    savedFrom count (before ++ [token]) =
      savedFrom count before ++ if token = .save then [count + stepCount before - 1] else [] := by
  induction before generalizing count with
  | nil => cases token <;> simp [savedFrom, stepCount]
  | cons first rest ih =>
      cases first with
      | save => simp [savedFrom, ih, stepCount]
      | _ => simp [savedFrom, ih, stepCount, Nat.add_assoc, Nat.add_comm]

def FitsAfter (hypotheses labels : Nat) (before tokens : List Token) : Prop :=
  ∀ front token behind, tokens = front ++ token :: behind →
    token.Fits hypotheses labels (before ++ front)

theorem fits_after_cons (hypotheses labels : Nat) (before : List Token) (token : Token)
    (rest : List Token) :
    FitsAfter hypotheses labels before (token :: rest) ↔
      token.Fits hypotheses labels before ∧ FitsAfter hypotheses labels (before ++ [token]) rest := by
  constructor
  · intro fits
    refine ⟨by simpa using fits [] token rest rfl, fun front other behind shape => ?_⟩
    simpa using fits (token :: front) other behind (by rw [shape, List.cons_append])
  · rintro ⟨own, others⟩ front other behind shape
    cases front with
    | nil =>
        cases shape
        simpa using own
    | cons first front =>
        cases shape
        simpa using others front other behind rfl

def ReadsAfter (required listed : List Int) (before : List Token) (letters : List Char) (proof : Proof) :
    Prop :=
  ∃ tokens, split letters = some tokens ∧ FitsAfter required.length listed.length before tokens ∧
    proof = instructionsAfter required listed before tokens

section Reading

variable {required listed : List Int} {before : List Token} {proof : Proof}

theorem reads_after_cons (token : Token) (letters rest : List Char)
    (cut : split letters = (split rest).map (token :: ·)) :
    ReadsAfter required listed before letters proof ↔
      token.Fits required.length listed.length before ∧
        ∃ others, ReadsAfter required listed (before ++ [token]) rest others ∧
          token.instruction required listed before ++ others = proof := by
  simp only [ReadsAfter, cut, Option.map_eq_some_iff]
  constructor
  · rintro ⟨_, ⟨tokens, found, rfl⟩, fits, rfl⟩
    obtain ⟨own, others⟩ := (fits_after_cons _ _ _ _ _).mp fits
    exact ⟨own, _, ⟨tokens, found, others, rfl⟩, rfl⟩
  · rintro ⟨own, _, ⟨tokens, found, others, rfl⟩, rfl⟩
    exact ⟨_, ⟨tokens, found, rfl⟩, (fits_after_cons _ _ _ _ _).mpr ⟨own, others⟩, rfl⟩

theorem reads_after_none (letters : List Char) (cut : split letters = none) :
    ¬ ReadsAfter required listed before letters proof := by
  rintro ⟨tokens, found, _⟩
  rw [cut] at found
  cases found

-- A number whose high digits are out of range is out of range itself.
theorem reads_after_high (high rest : List Char) (all : ∀ c ∈ high, isHigh c = true) (begun : high ≠ [])
    (tooHigh : required.length + listed.length + before.count .save < highValue high) :
    ¬ ReadsAfter required listed before (high ++ rest) proof := by
  rintro ⟨tokens, found, fits, _⟩
  obtain ⟨more, last, others, _, rfl⟩ := split_begun high rest all begun tokens found
  have own : numberValue (high ++ more) last ≤ _ := ((fits_after_cons _ _ _ _ _).mp fits).1
  have grown := high_value_append high more
  rw [numberValue] at own
  omega

theorem instruction_empty (token : Token) (fits : token.Fits required.length listed.length before) :
    token.instruction required listed before = [] ↔ token = .save := by
  cases token with
  | save => simp [Token.instruction]
  | unknown => simp [Token.instruction]
  | number high last =>
      have positive : 0 < numberValue high last := Nat.succ_pos _
      have inside : numberValue high last - 1 <
          (Proof.numbered required listed (savedFrom 0 before)).length := by
        simp only [Token.Fits, ← saved_from_length 0 before] at fits
        simp only [Proof.numbered, List.length_append, List.length_map]
        omega
      simp [Token.instruction, Proof.selected_numbered _ _ _ _ positive, List.getElem?_eq_getElem inside]

theorem instructions_empty (tokens : List Token)
    (fits : FitsAfter required.length listed.length before tokens) :
    instructionsAfter required listed before tokens = [] ↔ ∀ token ∈ tokens, token = .save := by
  induction tokens generalizing before with
  | nil => simp [instructionsAfter]
  | cons token rest ih =>
      obtain ⟨own, others⟩ := (fits_after_cons _ _ _ _ _).mp fits
      simp [instructionsAfter, instruction_empty token own, ih others]

theorem accepted_iff (tokens : List Token) :
    Accepted required.length listed.length tokens ↔
      FitsAfter required.length listed.length [] tokens ∧ instructionsAfter required listed [] tokens ≠ [] := by
  constructor
  · intro accepted
    have fits : FitsAfter required.length listed.length [] tokens := accepted.fits
    refine ⟨fits, fun nothing => ?_⟩
    obtain ⟨token, member, step⟩ := accepted.started
    exact step ((instructions_empty tokens fits).mp nothing token member)
  · rintro ⟨fits, something⟩
    rw [ne_eq, instructions_empty tokens fits] at something
    exact ⟨by simpa using something, fits⟩

end Reading

end LetterCode

namespace Proof

structure LetterState.Follows (state : LetterState) (before : List Token) (high : List Char) : Prop where
  pending : state.pending = highValue high
  letters : ∀ c ∈ high, isHigh c = true
  count : state.count = stepCount before
  saved : state.saved = savedFrom 0 before
  justSaved : state.justSaved = (before.getLast? == some .save)

theorem numbered_length (required listed : List Int) (saved : List Nat) :
    (numbered required listed saved).length = required.length + listed.length + saved.length := by
  simp [numbered, Nat.add_assoc]

section Letters

variable {required listed : List Int} {state : LetterState} {before : List Token} {high : List Char}

theorem LetterState.Follows.limit (follows : state.Follows before high) :
    (numbered required listed state.saved).length =
      required.length + listed.length + before.count .save := by
  rw [numbered_length, follows.saved, saved_from_length]

theorem LetterState.Follows.idle (follows : state.Follows before high) :
    state.pending = 0 ↔ high = [] := by
  rw [follows.pending, high_value_zero]

theorem LetterState.Follows.longer (follows : state.Follows before high) (c : Char)
    (letter : isHigh c = true) :
    LetterState.Follows { state with pending := highValue (high ++ [c]) } before (high ++ [c]) := by
  refine ⟨rfl, ?_, follows.count, follows.saved, follows.justSaved⟩
  intro other member
  rcases List.mem_append.mp member with old | new
  · exact follows.letters other old
  · exact List.mem_singleton.mp new ▸ letter

theorem LetterState.Follows.next (follows : state.Follows before high) (token : Token)
    (plain : token ≠ .save) (next : LetterState) (idle : next.pending = 0)
    (count : next.count = state.count + 1) (saved : next.saved = state.saved)
    (fresh : next.justSaved = false) : next.Follows (before ++ [token]) [] := by
  refine ⟨idle, by simp, ?_, ?_, ?_⟩
  · simp [step_count_snoc, plain, count, follows.count]
  · simp [saved_from_snoc, plain, saved, follows.saved]
  · simpa [fresh] using plain

theorem LetterState.Follows.save (follows : state.Follows before []) :
    LetterState.Follows { state with saved := state.saved ++ [state.count - 1], justSaved := true }
      (before ++ [.save]) [] := by
  refine ⟨follows.pending, by simp, ?_, ?_, by simp⟩
  · simp [step_count_snoc, follows.count]
  · simp [saved_from_snoc, follows.saved, follows.count]

theorem LetterState.Follows.saves (follows : state.Follows before high) (hypotheses labels : Nat) :
    Token.save.Fits hypotheses labels before ↔ state.count ≠ 0 ∧ state.justSaved = false := by
  rw [follows.count, follows.justSaved]
  constructor
  · rintro ⟨last, final, plain⟩
    refine ⟨?_, by simpa [final] using plain⟩
    have step : 0 < stepCount before :=
      List.countP_pos_iff.mpr ⟨last, List.mem_of_getLast? final, by simpa using plain⟩
    omega
  · rintro ⟨started, fresh⟩
    cases final : before.getLast? with
    | none =>
        rw [List.getLast?_eq_none_iff.mp final] at started
        exact absurd rfl started
    | some last => exact ⟨last, final, by simpa [final] using fresh⟩

section Step

variable (offset : Nat) (c : Char) (rest : List Char) (proof : Proof) (plain : isSpacing c = false)

include plain

theorem letters_high_iff (digit : Nat) (letter : Letter.ofChar c = some (.high digit)) :
    letters required listed state offset (c :: rest) = .ok proof ↔
      pushHigh state.pending digit ≤ (numbered required listed state.saved).length ∧
        letters required listed { state with pending := pushHigh state.pending digit } (offset + 1) rest =
          .ok proof := by
  simp only [letters, plain, letter, Bool.false_eq_true, if_false]
  by_cases out : (numbered required listed state.saved).length < pushHigh state.pending digit
  · simp [if_pos out, Nat.not_le.mpr out]
  · simp [if_neg out, Nat.not_lt.mp out]

theorem letters_last_iff (digit : Nat) (letter : Letter.ofChar c = some (.last digit)) :
    letters required listed state offset (c :: rest) = .ok proof ↔
      ∃ instruction others,
        (numbered required listed state.saved)[pushLast state.pending digit - 1]? = some instruction ∧
        letters required listed { state with pending := 0, count := state.count + 1, justSaved := false }
          (offset + 1) rest = .ok others ∧ instruction :: others = proof := by
  simp only [letters, plain, letter, Bool.false_eq_true, if_false]
  cases found : (numbered required listed state.saved)[pushLast state.pending digit - 1]? with
  | none => simp
  | some instruction => simp only [bind_ok, pure_ok, Option.some.injEq, exists_and_left, exists_eq_left']

theorem letters_save_iff (letter : Letter.ofChar c = some .save) :
    letters required listed state offset (c :: rest) = .ok proof ↔
      state.pending = 0 ∧ (state.count ≠ 0 ∧ state.justSaved = false) ∧
        letters required listed
          { state with saved := state.saved ++ [state.count - 1], justSaved := true } (offset + 1) rest =
            .ok proof := by
  simp only [letters, plain, letter, Bool.false_eq_true, if_false]
  by_cases inside : state.pending = 0
  · by_cases first : state.count = 0
    · simp [inside, first]
    · cases state.justSaved <;> simp [inside, first]
  · simp [inside]

theorem letters_unknown_iff (letter : Letter.ofChar c = some .unknown) :
    letters required listed state offset (c :: rest) = .ok proof ↔
      state.pending = 0 ∧ ∃ others,
        letters required listed { state with count := state.count + 1, justSaved := false } (offset + 1)
          rest = .ok others ∧ .unknown :: others = proof := by
  simp only [letters, plain, letter, Bool.false_eq_true, if_false]
  by_cases inside : state.pending = 0
  · simp only [inside, ne_eq, not_true_eq_false, if_false, bind_ok, pure_ok, true_and]
  · simp [inside]

theorem letters_illegal (letter : Letter.ofChar c = none) :
    letters required listed state offset (c :: rest) ≠ .ok proof := by
  simp [letters, plain, letter]

end Step

section Token

variable (offset : Nat) (c : Char) (rest letters' : List Char) (proof : Proof) (plain : isSpacing c = false)
  (follows : state.Follows before high)

include plain follows

theorem letters_number_iff (letter : isLast c = true)
    (continues : ∀ (next : LetterState) others, next.Follows (before ++ [.number high c]) [] →
      (letters required listed next (offset + 1) rest = .ok others ↔
        ReadsAfter required listed (before ++ [.number high c]) letters' others)) :
    letters required listed state offset (c :: rest) = .ok proof ↔
      ReadsAfter required listed before (high ++ c :: letters') proof := by
  have next := follows.next (.number high c) (by simp)
    { state with pending := 0, count := state.count + 1, justSaved := false } rfl rfl rfl rfl
  have value : pushLast state.pending (c.toNat - 'A'.toNat + 1) = numberValue high c := by
    rw [follows.pending]
    rfl
  have target := selected_numbered required listed state.saved (numberValue high c) (Nat.succ_pos _)
  rw [letters_last_iff offset c rest proof plain _ (of_char_last c letter), value,
    reads_after_cons (.number high c) _ _ (split_number high _ c follows.letters letter)]
  simp only [continues _ _ next, Token.Fits, Token.instruction, ← follows.saved, target, Option.join_some,
    ← follows.limit]
  cases found : (numbered required listed state.saved)[numberValue high c - 1]? with
  | none =>
      have out := List.getElem?_eq_none_iff.mp found
      have positive : 0 < numberValue high c := Nat.succ_pos _
      simp
      omega
  | some instruction =>
      have inside := (List.getElem?_eq_some_iff.mp found).1
      have fits : numberValue high c ≤ (numbered required listed state.saved).length := by omega
      simp [fits]

theorem letters_marker_iff (noHigh : isHigh c = false) (noLast : isLast c = false)
    (continues : ∀ (next : LetterState) token others, next.Follows (before ++ [token]) [] →
      (letters required listed next (offset + 1) rest = .ok others ↔
        ReadsAfter required listed (before ++ [token]) letters' others)) :
    letters required listed state offset (c :: rest) = .ok proof ↔
      ReadsAfter required listed before (high ++ c :: letters') proof := by
  have letter := of_char_other c noHigh noLast
  by_cases done : high = []
  · subst done
    rw [List.nil_append]
    by_cases save : c = 'Z'
    · rw [if_pos save] at letter
      have cut : split (c :: letters') = (split letters').map (.save :: ·) := by rw [split, if_pos save]
      rw [reads_after_cons .save _ letters' cut, letters_save_iff offset c rest proof plain letter,
        continues _ .save _ follows.save, follows.saves required.length listed.length]
      simp [follows.idle, Token.instruction]
    · by_cases unknown : c = '?'
      · rw [if_neg save, if_pos unknown] at letter
        have cut : split (c :: letters') = (split letters').map (.unknown :: ·) := by
          rw [split, if_neg save, if_pos unknown]
        have idle := follows.idle.mpr rfl
        have next := follows.next .unknown (by simp)
          { state with count := state.count + 1, justSaved := false } idle rfl rfl rfl
        rw [reads_after_cons .unknown _ letters' cut, letters_unknown_iff offset c rest proof plain letter,
          and_iff_right idle]
        simp only [continues _ .unknown _ next, Token.Fits, Token.instruction, true_and,
          List.singleton_append]
      · rw [if_neg save, if_neg unknown] at letter
        have cut := split_blocked [] letters' c (by simp) noHigh noLast (Or.inr ⟨save, unknown⟩)
        exact iff_of_false (letters_illegal offset c rest proof plain letter) (reads_after_none _ cut)
  · have cut := split_blocked high letters' c follows.letters noHigh noLast (Or.inl done)
    have pending : state.pending ≠ 0 := mt follows.idle.mp done
    have fails : letters required listed state offset (c :: rest) ≠ .ok proof := by
      by_cases save : c = 'Z'
      · rw [if_pos save] at letter
        rw [ne_eq, letters_save_iff offset c rest proof plain letter]
        exact fun own => pending own.1
      · by_cases unknown : c = '?'
        · rw [if_neg save, if_pos unknown] at letter
          rw [ne_eq, letters_unknown_iff offset c rest proof plain letter]
          exact fun own => pending own.1
        · rw [if_neg save, if_neg unknown] at letter
          exact letters_illegal offset c rest proof plain letter
    exact iff_of_false fails (reads_after_none _ cut)

end Token

-- By induction on the characters. The reader stands behind the tokens `before`, in the middle of a
-- number if there are high letters already.
theorem letters_ok_iff (offset : Nat) (chars : List Char) (proof : Proof)
    (follows : state.Follows before high) :
    letters required listed state offset chars = .ok proof ↔
      ReadsAfter required listed before (high ++ chars.filter fun c => !isSpacing c) proof := by
  induction chars generalizing state before high offset proof with
  | nil =>
      rw [letters, List.filter_nil, List.append_nil]
      by_cases done : high = []
      · rw [if_pos (follows.idle.mpr done), done]
        simp [ReadsAfter, split, FitsAfter, instructionsAfter, eq_comm]
      · rw [if_neg (mt follows.idle.mp done)]
        simp [reads_after_none high (split_unfinished high follows.letters done)]
  | cons c rest ih =>
      cases plain : isSpacing c with
      | true => simpa [letters, plain] using ih (offset + 1) proof follows
      | false =>
          rw [List.filter_cons_of_pos (by simp [plain])]
          cases isH : isHigh c with
          | true =>
              have longer := follows.longer c isH
              rw [letters_high_iff offset c rest proof plain _ (of_char_high c isH), follows.pending,
                ← high_value_snoc, ih (offset + 1) proof longer, follows.limit, List.append_assoc,
                List.singleton_append]
              constructor
              · exact And.right
              · intro reads
                refine ⟨Nat.not_lt.mp fun tooHigh => ?_, reads⟩
                rw [List.append_cons] at reads
                exact reads_after_high _ _ longer.letters (by simp) tooHigh reads
          | false =>
              cases isL : isLast c with
              | true =>
                  exact letters_number_iff offset c rest _ proof plain follows isL
                    fun next others along => ih (offset + 1) others along
              | false =>
                  exact letters_marker_iff offset c rest _ proof plain follows isH isL
                    fun next token others along => ih (offset + 1) others along

end Letters

end Proof

end Lemmata
