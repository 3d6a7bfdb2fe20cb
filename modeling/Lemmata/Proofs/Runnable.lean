import Lemmata.Proofs.Progress
import Lemmata.Proofs.Representation
import Mathlib.Data.String.Basic

/-!
Which instruction sequences run. Reading a text gives an error inside the text or a proof that goes
backwards only, and such a proof always runs to its end. A sequence that does not run is empty or has
an instruction that no text reads as. On the way no look-up leaves the list that it looks into.
-/

set_option autoImplicit false

namespace Lemmata

open Text LetterCode

namespace Text

theorem byte_length_append (first second : List Char) :
    byteLength (first ++ second) = byteLength first + byteLength second := by
  induction first with
  | nil => simp [byteLength]
  | cons c rest ih => simpa [byteLength, Nat.add_assoc] using ih

theorem byte_length_cons (c : Char) (rest : List Char) :
    byteLength (c :: rest) = c.utf8Size + byteLength rest := rfl

theorem byte_length_text (text : String) : byteLength text.toList = text.utf8ByteSize := by
  have size : ∀ chars : List Char, byteLength chars = String.utf8Len chars := by
    intro chars
    induction chars with
    | nil => rfl
    | cons c rest ih => rw [byte_length_cons, String.utf8Len_cons, ih, Nat.add_comm]
  rw [size, String.utf8Len_toList]

theorem words_bounded (offset : Nat) (chars : List Char) :
    ∀ word ∈ words offset chars, word.offset ≤ offset + byteLength chars := by
  induction chars generalizing offset with
  | nil => simp [words]
  | cons c rest ih =>
      have behind : ∀ word ∈ words (offset + c.utf8Size) rest,
          word.offset ≤ offset + byteLength (c :: rest) := by
        intro word member
        have bounded := ih (offset + c.utf8Size) word member
        rw [byte_length_cons]
        omega
      by_cases blank : isBlank c = true
      · simpa [words, blank] using behind
      · cases found : words (offset + c.utf8Size) rest with
        | nil => simp [words, blank, found]
        | cons first others =>
            rw [found, List.forall_mem_cons] at behind
            by_cases adjacent : first.offset = offset + c.utf8Size
            · simpa [words, blank, found, adjacent] using behind.2
            · simpa [words, blank, found, adjacent] using behind

end Text

theorem bind_error {ε α β : Type} {x : Except ε α} {f : α → Except ε β} {error : ε} :
    (x >>= f) = .error error ↔ x = .error error ∨ ∃ value, x = .ok value ∧ f value = .error error := by
  cases x with
  | error e => simp [bind, Except.bind]
  | ok value => simp [bind, Except.bind]

theorem map_m_error {ε α β : Type} (f : α → Except ε β) (inputs : List α) (error : ε)
    (failed : inputs.mapM f = .error error) : ∃ x ∈ inputs, f x = .error error := by
  induction inputs with
  | nil => cases failed
  | cons x rest ih =>
      rw [List.mapM_cons, bind_error] at failed
      rcases failed with first | ⟨y, _, failed⟩
      · exact ⟨x, List.mem_cons_self, first⟩
      · rcases bind_error.mp failed with others | ⟨ys, _, finished⟩
        · obtain ⟨z, member, found⟩ := ih others
          exact ⟨z, List.mem_cons_of_mem x member, found⟩
        · cases finished

namespace Proof

section Offsets

variable {t : Table} {owner : Statement} {error : DecodeError}

theorem fail_at_offset {α : Type} (offset : Nat) (cause : DecodeCause)
    (failed : (failAt owner offset cause : Decoded α) = .error error) : error.offset = offset := by
  cases failed
  rfl

theorem resolve_offset (word : Word) (failed : resolve t owner word = .error error) :
    error.offset = word.offset := by
  unfold resolve at failed
  split at failed
  · exact fail_at_offset _ _ failed
  · split at failed
    · exact fail_at_offset _ _ failed
    · split at failed
      · split at failed
        · cases failed
        · exact fail_at_offset _ _ failed
      · split at failed
        · cases failed
        · exact fail_at_offset _ _ failed

theorem decode_word_offset (word : Word) (failed : decodeWord t owner word = .error error) :
    error.offset = word.offset := by
  by_cases unknown : word.chars = ['?']
  · rw [decodeWord, if_pos unknown] at failed
    cases failed
  · rw [decodeWord, if_neg unknown, bind_error] at failed
    rcases failed with unresolved | ⟨id, _, made⟩
    · exact resolve_offset word unresolved
    · cases made

theorem listed_label_offset (word : Word) (failed : listedLabel t owner word = .error error) :
    error.offset = word.offset := by
  by_cases opening : word.chars.contains '(' = true
  · rw [listedLabel, if_pos opening] at failed
    exact fail_at_offset _ _ failed
  · rw [listedLabel, if_neg opening, bind_error] at failed
    rcases failed with unresolved | ⟨id, _, refused⟩
    · exact resolve_offset word unresolved
    · split at refused
      · exact fail_at_offset _ _ refused
      · cases refused

theorem letters_offset (required listed : List Int) (state : LetterState) (offset : Nat) (chars : List Char)
    (place : Nat) (cause : DecodeCause)
    (failed : letters required listed state offset chars = .error (place, cause)) :
    place ≤ offset + byteLength chars := by
  induction chars generalizing state offset with
  | nil =>
      simp only [letters] at failed
      split at failed
      · cases failed
      · cases failed
        omega
  | cons c rest ih =>
      have size := c.utf8Size_pos
      have here : offset ≤ offset + byteLength (c :: rest) := by omega
      have later : ∀ next, letters required listed next (offset + 1) rest = .error (place, cause) →
          place ≤ offset + byteLength (c :: rest) := by
        intro next behind
        have bounded := ih next (offset + 1) behind
        rw [byte_length_cons]
        omega
      simp only [letters] at failed
      split at failed
      · exact later _ failed
      · split at failed
        · split at failed
          · cases failed
            exact here
          · exact later _ failed
        · split at failed
          · cases failed
            exact here
          · rcases bind_error.mp failed with behind | ⟨_, _, finished⟩
            · exact later _ behind
            · cases finished
        · split at failed
          · cases failed
            exact here
          · split at failed
            · cases failed
              exact here
            · split at failed
              · cases failed
                exact here
              · exact later _ failed
        · split at failed
          · cases failed
            exact here
          · rcases bind_error.mp failed with behind | ⟨_, _, finished⟩
            · exact later _ behind
            · cases finished
        · cases failed
          exact here

theorem decode_plain_offset (chars : List Char) (failed : decodePlain t owner chars = .error error) :
    error.offset ≤ byteLength chars := by
  unfold decodePlain at failed
  split at failed
  · rw [fail_at_offset _ _ failed]
    exact Nat.zero_le _
  · obtain ⟨word, member, own⟩ := map_m_error _ _ _ failed
    rw [decode_word_offset word own]
    simpa using words_bounded 0 chars word member

theorem decode_compressed_offset (opening : Nat) (chars : List Char)
    (failed : decodeCompressed t owner opening chars = .error error) :
    error.offset ≤ opening + 1 + byteLength chars := by
  have parts : byteLength chars = byteLength (chars.takeWhile (· != ')')) +
      byteLength (chars.dropWhile (· != ')')) := by
    rw [← byte_length_append, List.takeWhile_append_dropWhile]
  rw [decodeCompressed, bind_error] at failed
  rcases failed with unlisted | ⟨listed, _, failed⟩
  · obtain ⟨word, member, own⟩ := map_m_error _ _ _ unlisted
    have bounded := words_bounded (opening + 1) _ word member
    rw [listed_label_offset word own]
    omega
  · split at failed
    · rw [fail_at_offset _ _ failed]
      omega
    · rename_i closing run shape
      have size := closing.utf8Size_pos
      rw [shape, byte_length_cons] at parts
      dsimp only at failed
      split at failed
      · rename_i place cause read
        have bounded := letters_offset _ _ _ _ _ _ _ read
        rw [fail_at_offset _ _ failed]
        omega
      · rw [fail_at_offset _ _ failed]
        omega
      · cases failed

theorem decode_offset (text : String) (failed : decode t owner text = .error error) :
    error.offset ≤ text.utf8ByteSize := by
  rw [← byte_length_text]
  unfold decode at failed
  dsimp only at failed
  split at failed
  · rename_i rest shape
    have parts : byteLength text.toList = byteLength (text.toList.takeWhile isBlank) +
        byteLength ('(' :: rest) := by
      rw [← shape, trimStart, ← byte_length_append, List.takeWhile_append_dropWhile]
    have size := '('.utf8Size_pos
    have bounded := decode_compressed_offset _ rest failed
    rw [byte_length_cons] at parts
    omega
  · exact decode_plain_offset _ failed

end Offsets

end Proof

def fetch {α : Type} (items : List α) (position : Int) : Option α :=
  if position < 0 then none else items[position.toNat]?

theorem fetch_at {α : Type} (items : List α) (index : Nat) (position : Int) (same : position = index) :
    fetch items position = items[index]? := by
  have inside : ¬ position < 0 := by omega
  rw [fetch, if_neg inside, same, Int.toNat_natCast]

theorem map_m_range {α : Type} (f : Nat → Option α) (items : List α) (start : Nat)
    (found : ∀ index < items.length, f (start + index) = items[index]?) :
    (List.range' start items.length).mapM f = some items := by
  induction items generalizing start with
  | nil => rfl
  | cons item rest ih =>
      have first : f start = some item := found 0 (by simp)
      have others := ih (start + 1) fun index inside => by
        rw [show start + 1 + index = start + (index + 1) by omega]
        exact found (index + 1) (by simpa using inside)
      rw [List.length_cons, List.range'_succ, List.mapM_cons, first, others]
      rfl

namespace Proof

-- What a number stands for, from the list that its size selects: nothing if the number is too large,
-- and no result at all if the look-up leaves the list.
def selected (required listed : List Int) (saved : List Nat) (number : Int) : Option (Option Instruction) :=
  if number ≤ required.length then
    (fetch required (number - 1)).map fun id => some (.reference id)
  else if number ≤ required.length + listed.length then
    (fetch listed (number - required.length - 1)).map fun id => some (.reference id)
  else if number ≤ required.length + listed.length + saved.length then
    (fetch saved (number - required.length - listed.length - 1)).map fun step => some (.reuse step)
  else some none

theorem last_digit_positive (c : Char) (digit : Nat) (letter : Letter.ofChar c = some (.last digit)) :
    0 < digit := by
  unfold Letter.ofChar at letter
  split at letter
  · cases letter
  · split at letter
    · cases letter
      omega
    · split at letter
      · cases letter
      · split at letter <;> cases letter

-- Numbers start at one, so that the look-up never reaches in front of a list.
theorem selected_numbered (required listed : List Int) (saved : List Nat) (number : Nat)
    (positive : 0 < number) :
    selected required listed saved number = some (numbered required listed saved)[number - 1]? := by
  unfold selected numbered
  by_cases first : (number : Int) ≤ required.length
  · have inside : number - 1 < required.length := by omega
    rw [if_pos first, fetch_at required (number - 1) _ (by omega), List.getElem?_append_left (by simp; omega),
      List.getElem?_map, List.getElem?_append_left inside, List.getElem?_eq_getElem inside]
    rfl
  · rw [if_neg first]
    by_cases second : (number : Int) ≤ required.length + listed.length
    · have inside : number - 1 - required.length < listed.length := by omega
      rw [if_pos second, fetch_at listed (number - 1 - required.length) _ (by omega),
        List.getElem?_append_left (by simp; omega), List.getElem?_map,
        List.getElem?_append_right (by omega), List.getElem?_eq_getElem inside]
      rfl
    · rw [if_neg second]
      have behind : (required ++ listed).length ≤ number - 1 := by simp; omega
      rw [List.getElem?_append_right (by simpa using behind), List.length_map, List.getElem?_map]
      by_cases third : (number : Int) ≤ required.length + listed.length + saved.length
      · have inside : number - 1 - (required ++ listed).length < saved.length := by simp; omega
        rw [if_pos third, fetch_at saved (number - 1 - (required ++ listed).length) _ (by simp; omega),
          List.getElem?_eq_getElem inside]
        rfl
      · rw [if_neg third, List.getElem?_eq_none (by simp; omega)]
        rfl

end Proof

namespace Instruction

def Malformed (t : Table) (position : Nat) : Instruction → Prop
  | .reference id =>
      t.statement id = none ∨ ∃ s, t.statement id = some s ∧ s.declaresSymbols = true
  | .reuse step => ¬ (0 ≤ step ∧ step < position)
  | .unknown => False
  | .invalid _ => True

def Backward (t : Table) (owner : Statement) (position : Nat) : Instruction → Prop
  | .reference id => id < owner.id ∧ ∃ s, t.statement id = some s ∧
      (s.isAssertion = true ∨ id ∈ owner.frame.required ∨ id ∈ owner.frame.optional)
  | .reuse step => 0 ≤ step ∧ step < position
  | .unknown => True
  | .invalid _ => False

theorem Admissible.backward {t : Table} {owner : Statement} (framed : owner.Framed t) (position : Nat)
    (instruction : Instruction) (admissible : instruction.Admissible t owner position) :
    instruction.Backward t owner position := by
  cases instruction with
  | reference id =>
      obtain ⟨s, found, usable⟩ := admissible
      rcases usable with ⟨asserted, before⟩ | ⟨_, inside⟩
      · exact ⟨before, s, found, Or.inl asserted⟩
      · have member : id ∈ owner.frame.required ∨ id ∈ owner.frame.optional := by
          simpa [Frame.contains] using inside
        obtain ⟨_, _, _, before⟩ := framed.usable id (List.mem_append.mpr member)
        exact ⟨before, s, found, Or.inr member⟩
  | reuse step => exact admissible
  | unknown => trivial
  | invalid kind => exact admissible

end Instruction

theorem Proof.EachFrom.at {property : Nat → Instruction → Prop} (position : Nat) (proof : Proof)
    (each : proof.EachFrom property position) (index : Nat) (instruction : Instruction)
    (found : proof[index]? = some instruction) : property (position + index) instruction := by
  induction proof generalizing position index with
  | nil => cases found
  | cons first rest ih =>
      cases index with
      | zero =>
          cases found
          exact each.1
      | succ index =>
          have behind := ih (position + 1) each.2 index found
          rwa [show position + 1 + index = position + (index + 1) by omega] at behind

namespace Table

theorem build_kinds (name : String) (declarations : List Declaration) (t : Table)
    (built : build name declarations = .ok t) :
    ∀ s ∈ t.statements, s.isHypothesis = true ∨ s.isAssertion = true ∨ s.declaresSymbols = true := by
  have each := (build_declared name declarations t built).flip.imp fun s declaration declared =>
    And.intro (declared.kind ▸ declaration.kind_cases) declared
  intro s member
  have own := ((List.forall₂_and_left _ _).mp each).1 s member
  simpa [Statement.isHypothesis, Statement.isAssertion, Statement.declaresSymbols] using own

end Table

namespace Run

variable {t : Table} {checkDisjoint : Bool}

def operandChecked (t : Table) (run : Run) (assertion : Statement) (operands : List Nat) (index : Nat) :
    Option (Formula × Formula) := do
  let hypothesis ← fetch assertion.frame.required index
  let pattern ← fetch t.statements hypothesis
  let operand ← fetch operands index
  let formula ← fetch run.formulas operand
  return (pattern.formula, formula)

def applicationChecked (t : Table) (run : Run) (assertion : Statement) (operands : List Nat) :
    Option Application := do
  let pairs ← (List.range operands.length).mapM (operandChecked t run assertion operands)
  return {
    assertion
    owner := run.owner
    step := run.formulas.length
    patterns := pairs.map Prod.fst
    instances := pairs.map Prod.snd
    unknownOperand := pairs.any fun pair => pair.2.isUnknown }

theorem step_error_iff (kinds : ∀ s ∈ t.statements,
      s.isHypothesis = true ∨ s.isAssertion = true ∨ s.declaresSymbols = true)
    (run : Run) (instruction : Instruction) :
    (∃ error, run.step t checkDisjoint instruction = .error error) ↔
      instruction.Malformed t run.formulas.length := by
  cases instruction with
  | unknown => simp [step, Instruction.Malformed]
  | reuse target =>
      by_cases bounds : 0 ≤ target ∧ target < run.formulas.length
      · simp [step, Instruction.Malformed, bounds]
      · simp [step, Instruction.Malformed, bounds]
  | reference id =>
      cases found : t.statement id with
      | none => simp [step, Instruction.Malformed, found]
      | some s =>
          have shape : (Instruction.reference id).Malformed t run.formulas.length ↔
              s.declaresSymbols = true := by
            simp [Instruction.Malformed, found]
          rw [shape]
          simp only [step, found]
          by_cases hypothesis : s.isHypothesis = true
          · simp [hypothesis, s.usable_silent (Or.inl hypothesis)]
          · by_cases asserted : s.isAssertion = true
            · simp [hypothesis, asserted, s.usable_silent (Or.inr asserted)]
            · have declares := (kinds s (t.member_of_statement id s found)).resolve_left hypothesis
              simp [hypothesis, asserted, declares.resolve_left asserted]
  | invalid kind => simp [step, Instruction.Malformed]

theorem run_error_iff (checkDisjoint : Bool) (kinds : ∀ s ∈ t.statements,
      s.isHypothesis = true ∨ s.isAssertion = true ∨ s.declaresSymbols = true)
    (proof : Proof) (run : Run) :
    (∃ error, proof.foldlM (step t checkDisjoint) run = .error error) ↔
      ∃ (index : Nat) (instruction : Instruction), proof[index]? = some instruction ∧
        instruction.Malformed t (run.formulas.length + index) := by
  induction proof generalizing run with
  | nil => simp [pure, Except.pure]
  | cons instruction rest ih =>
      rw [List.foldlM_cons]
      cases stepped : run.step t checkDisjoint instruction with
      | error error =>
          have malformed := (step_error_iff kinds run instruction).mp ⟨error, stepped⟩
          simp only [bind, Except.bind, Except.error.injEq, exists_eq', true_iff]
          exact ⟨0, instruction, rfl, malformed⟩
      | ok next =>
          have fine : ¬ instruction.Malformed t run.formulas.length := by
            intro malformed
            obtain ⟨error, failed⟩ := (step_error_iff kinds run instruction).mpr malformed
            rw [stepped] at failed
            cases failed
          have length := step_length t checkDisjoint run next instruction stepped
          simp only [bind, Except.bind, ih next, length]
          constructor
          · rintro ⟨index, other, found, malformed⟩
            refine ⟨index + 1, other, found, ?_⟩
            rwa [show run.formulas.length + (index + 1) = run.formulas.length + 1 + index by omega]
          · rintro ⟨index, other, found, malformed⟩
            cases index with
            | zero =>
                cases found
                exact absurd malformed fine
            | succ index =>
                refine ⟨index, other, found, ?_⟩
                rwa [show run.formulas.length + 1 + index = run.formulas.length + (index + 1) by omega]

theorem operand_checked (run : Run) (assertion : Statement) (operands : List Nat) (index : Nat)
    (id : Int) (operand : Nat) (needed : assertion.frame.required[index]? = some id)
    (known : ∃ h, t.statement id = some h) (taken : operands[index]? = some operand)
    (bounded : operand < run.formulas.length) :
    operandChecked t run assertion operands index = some (t.formulaOf id, run.formulaAt operand) := by
  obtain ⟨h, found⟩ := known
  have pattern : fetch t.statements id = some h := found
  simp only [operandChecked, fetch_at _ index index rfl, needed, taken, Option.bind_eq_bind, Option.bind_some,
    pattern, fetch_at _ operand operand rfl, run.formula_at operand bounded, t.formula_of_statement id h found]
  rfl

theorem application_checked (coherent : t.Coherent) (run : Run) (sane : run.Sane t) (assertion : Statement)
    (member : assertion ∈ t.statements) (asserted : assertion.isAssertion = true)
    (enough : assertion.frame.required.length ≤ run.stack.length) :
    run.applicationChecked t assertion (run.stack.take assertion.frame.required.length).reverse =
      some (run.applicationOf t assertion (run.stack.take assertion.frame.required.length).reverse) := by
  set operands := (run.stack.take assertion.frame.required.length).reverse with taken
  have length : operands.length = assertion.frame.required.length := by simp [taken, enough]
  have bounded : ∀ operand ∈ operands, operand < run.formulas.length :=
    fun operand present => sane.stack operand (List.mem_of_mem_take (List.mem_reverse.mp present))
  have known : ∀ id ∈ assertion.frame.required, ∃ h, t.statement id = some h := by
    intro id needed
    obtain ⟨h, found, _⟩ := (coherent.framed member asserted).required id needed
    exact ⟨h, found⟩
  set pairs := (assertion.frame.required.map t.formulaOf).zip (operands.map run.formulaAt) with zipped
  have found : (List.range operands.length).mapM (operandChecked t run assertion operands) = some pairs := by
    have size : pairs.length = operands.length := by simp [zipped, length]
    rw [List.range_eq_range', ← size]
    apply map_m_range
    intro index bound
    have inside : index < operands.length := size ▸ bound
    have own : index < assertion.frame.required.length := length ▸ inside
    rw [Nat.zero_add, operand_checked run assertion operands index _ _ (List.getElem?_eq_getElem own)
      (known _ (List.getElem_mem own)) (List.getElem?_eq_getElem inside)
      (bounded _ (List.getElem_mem inside))]
    simp [zipped, own, inside]
  have patterns : pairs.map Prod.fst = assertion.frame.required.map t.formulaOf :=
    List.map_fst_zip (by simp [length])
  have instances : pairs.map Prod.snd = operands.map run.formulaAt :=
    List.map_snd_zip (by simp [length])
  have unknown : (pairs.any fun pair => pair.2.isUnknown) =
      (operands.map run.formulaAt).any Formula.isUnknown := by
    rw [← instances, List.any_map]
    rfl
  rw [applicationChecked, found]
  simp only [Option.bind_eq_bind, Option.bind_some, patterns, instances, unknown]
  rfl

theorem run_length (proof : Proof) (run next : Run)
    (ran : proof.foldlM (step t checkDisjoint) run = .ok next) :
    next.formulas.length = run.formulas.length + proof.length := by
  induction proof generalizing run with
  | nil =>
      cases ran
      rfl
  | cons instruction rest ih =>
      rw [List.foldlM_cons, bind_ok] at ran
      obtain ⟨middle, stepped, others⟩ := ran
      rw [ih middle others, step_length t checkDisjoint run middle instruction stepped, List.length_cons]
      omega

end Run

section Outcomes

variable {t : Table} {owner : Statement}

theorem decode_outcome (coherent : t.Coherent) (member : owner ∈ t.statements)
    (asserted : owner.isAssertion = true) (text : String) :
    (∃ error, Proof.decode t owner text = .error error ∧ error.offset ≤ text.utf8ByteSize) ∨
      ∃ proof, Proof.decode t owner text = .ok proof ∧ proof ≠ [] ∧
        ∀ (position : Nat) instruction, proof[position]? = some instruction →
          instruction.Backward t owner position := by
  cases decoded : Proof.decode t owner text with
  | error error => exact Or.inl ⟨error, rfl, Proof.decode_offset text decoded⟩
  | ok proof =>
      have admissible := Proof.decode_admissible t coherent owner member asserted text proof decoded
      refine Or.inr ⟨proof, rfl, Proof.decode_nonempty t owner text proof decoded, ?_⟩
      intro position instruction found
      have own := admissible.at 0 proof position instruction found
      rw [Nat.zero_add] at own
      exact own.backward (coherent.framed member asserted)

theorem verify_proof_error_iff (kinds : ∀ s ∈ t.statements,
      s.isHypothesis = true ∨ s.isAssertion = true ∨ s.declaresSymbols = true)
    (checkDisjoint : Bool) (inspected : Int) (proof : Proof) :
    (∃ error, verifyProof t checkDisjoint inspected owner proof = .error error) ↔
      proof = [] ∨ ∃ (position : Nat) (instruction : Instruction),
        proof[position]? = some instruction ∧ instruction.Malformed t position := by
  cases proof with
  | nil => simp [verifyProof]
  | cons first rest =>
      have failing := Run.run_error_iff checkDisjoint kinds (first :: rest)
        { owner, proof := first :: rest, inspection := inspectionOf (first :: rest) inspected }
      simp only [List.length_nil, Nat.zero_add] at failing
      rw [← failing]
      simp [verifyProof, bind_error, pure, Except.pure]

theorem verify_returns (coherent : t.Coherent) (proved : owner ∈ t.theorems) (checkDisjoint : Bool)
    (inspected : Int) : ∃ run, verify t checkDisjoint inspected owner = .ok run := by
  obtain ⟨member, asserted⟩ := t.theorem_asserted owner proved
  have kind := t.theorem_kind owner proved
  simp only [verify, kind, ne_eq, not_true_eq_false, if_false]
  cases decoded : Proof.decode t owner owner.proof with
  | error error => exact ⟨_, rfl⟩
  | ok proof =>
      have admissible := Proof.decode_admissible t coherent owner member asserted _ proof decoded
      obtain ⟨final, finished⟩ := Run.run_progress checkDisjoint owner proof
        { owner, proof, inspection := inspectionOf proof inspected } admissible
      exact ⟨_, (verify_proof_ok t checkDisjoint inspected owner proof _).mpr
        ⟨Proof.decode_nonempty t owner _ proof decoded, final, finished, rfl⟩⟩

end Outcomes

-- The last two parts say that no look-up leaves its list: neither the one of a number that was read,
-- in any state of reading, nor those of an application, in any state that a run comes to.
theorem decoded_proofs_run (name : String) (declarations : List Declaration) (t : Table)
    (built : Table.build name declarations = .ok t) (owner : Statement) (proved : owner ∈ t.theorems)
    (checkDisjoint : Bool) (inspected : Int) :
    (∀ text, (∃ error, Proof.decode t owner text = .error error ∧ error.offset ≤ text.utf8ByteSize) ∨
        ∃ proof, Proof.decode t owner text = .ok proof ∧ proof ≠ [] ∧
          ∀ (position : Nat) instruction, proof[position]? = some instruction →
            instruction.Backward t owner position) ∧
      (∀ proof, (∃ error, verifyProof t checkDisjoint inspected owner proof = .error error) ↔
        proof = [] ∨ ∃ (position : Nat) (instruction : Instruction),
          proof[position]? = some instruction ∧ instruction.Malformed t position) ∧
      (∃ run, verify t checkDisjoint inspected owner = .ok run) ∧
      (∀ listed saved pending c digit, Letter.ofChar c = some (.last digit) →
        Proof.selected owner.frame.required listed saved (pushLast pending digit) =
          some (Proof.numbered owner.frame.required listed saved)[pushLast pending digit - 1]?) ∧
      ∀ (proof done : Proof) (run : Run),
        done.foldlM (Run.step t checkDisjoint) { owner, proof, inspection := inspectionOf proof inspected } =
          .ok run →
        run.formulas.length = done.length ∧
          ∀ s ∈ t.statements, s.isAssertion = true → s.frame.required.length ≤ run.stack.length →
            run.applicationChecked t s (run.stack.take s.frame.required.length).reverse =
              some (run.applicationOf t s (run.stack.take s.frame.required.length).reverse) := by
  have coherent := Table.build_coherent name declarations t built
  have kinds := Table.build_kinds name declarations t built
  obtain ⟨member, asserted⟩ := t.theorem_asserted owner proved
  refine ⟨decode_outcome coherent member asserted, verify_proof_error_iff kinds checkDisjoint inspected,
    verify_returns coherent proved checkDisjoint inspected, ?_, ?_⟩
  · intro listed saved pending c digit letter
    apply Proof.selected_numbered
    have positive := Proof.last_digit_positive c digit letter
    unfold pushLast
    omega
  · intro proof done run ran
    have sane := Run.run_sane coherent done _ run ⟨by simp, by simp, by simp⟩ ran
    refine ⟨by simpa using Run.run_length done _ run ran, ?_⟩
    exact fun s present asserted enough => Run.application_checked coherent run sane s present asserted enough

theorem decoded_proofs_run_sample :
    sampleStatement 8 ∈ sampleTable.theorems ∧
      (∃ run, verify sampleTable true (-1) (sampleStatement 8) = .ok run) ∧
      ∃ error, verifyProof sampleTable true (-1) (sampleStatement 8) [.reference 2, .reuse 1] = .error error := by
  have proved : sampleStatement 8 ∈ sampleTable.theorems := by decide
  obtain ⟨_, failing, returns, _⟩ := decoded_proofs_run "sample" sampleDeclarations sampleTable sample_built
    (sampleStatement 8) proved true (-1)
  refine ⟨proved, returns, (failing _).mpr (Or.inr ⟨1, .reuse 1, rfl, ?_⟩)⟩
  simp [Instruction.Malformed]

end Lemmata
