import Lemmata.Run
import Lemmata.Proofs.Building
import Lemmata.Proofs.Derivation
import Lemmata.Proofs.Reading

/-!
A run without error derives what it computes. As long as the verdict of a run is ok, every formula
that it has computed is derivable, so a proof that is accepted proves its theorem.
-/

set_option autoImplicit false

namespace Lemmata

theorem worse_not_ok (first second : Severity) (bad : 0 < second.rank) :
    first.worse second ≠ .ok := by
  intro fine
  unfold Severity.worse at fine
  split at fine
  · rw [fine] at bad
    exact absurd bad (by decide)
  · rename_i notLess
    rw [fine] at notLess
    exact notLess bad

namespace Run

section Fields

variable (t : Table) (run : Run) (rule : String) (step : Nat) (applied message suggestion : String)

@[simp] theorem fail_owner :
    (run.fail t rule step applied message suggestion).owner = run.owner := by
  unfold fail
  split <;> rfl

@[simp] theorem fail_formulas :
    (run.fail t rule step applied message suggestion).formulas = run.formulas := by
  unfold fail
  split <;> rfl

@[simp] theorem fail_stack :
    (run.fail t rule step applied message suggestion).stack = run.stack := by
  unfold fail
  split <;> rfl

@[simp] theorem fail_verdict :
    (run.fail t rule step applied message suggestion).verdict = run.verdict.worse .error := by
  unfold fail
  split <;> rfl

end Fields

theorem formula_at (run : Run) (step : Nat) (bounded : step < run.formulas.length) :
    run.formulas[step]? = some (run.formulaAt step) := by
  simp [formulaAt, List.getElem?_eq_getElem bounded]

theorem formula_at_prefix (run next : Run) (grown : run.formulas <+: next.formulas) (step : Nat)
    (bounded : step < run.formulas.length) : next.formulaAt step = run.formulaAt step := by
  obtain ⟨added, same⟩ := grown
  unfold formulaAt
  rw [← same, List.getElem?_append_left bounded]

theorem formula_at_last (run : Run) (formula : Formula) :
    (run.push formula).formulaAt run.formulas.length = formula := by
  simp [formulaAt, push]

structure Sound (t : Table) (owner : Statement) (run : Run) : Prop where
  proves : run.owner = owner
  stack : ∀ step ∈ run.stack, step < run.formulas.length
  derived : run.verdict = .ok → ∀ formula ∈ run.formulas, Derivable t owner formula

variable {t : Table} {owner : Statement} {run : Run}

theorem push_sound (run next : Run) (formula : Formula) (ownerSame : next.owner = owner)
    (formulas : next.formulas = run.formulas) (stack : ∀ step ∈ next.stack, step ∈ run.stack)
    (sound : run.Sound t owner)
    (derived : next.verdict = .ok → run.verdict = .ok ∧ Derivable t owner formula) :
    (next.push formula).Sound t owner := by
  refine ⟨ownerSame, ?_, ?_⟩
  · intro step member
    simp only [push, formulas, List.mem_cons, List.length_append, List.length_singleton] at member ⊢
    rcases member with rfl | old
    · omega
    · have bounded := sound.stack step (stack step old)
      omega
  · intro fine other member
    obtain ⟨clean, own⟩ := derived fine
    simp only [push, formulas, List.mem_append, List.mem_singleton] at member
    rcases member with old | rfl
    · exact sound.derived clean other old
    · exact own

theorem application_of_formed (assertion : Statement) (member : assertion ∈ t.statements)
    (asserted : assertion.isAssertion = true) (operands : List Nat)
    (length : operands.length = assertion.frame.required.length)
    (formed : ∀ operand ∈ operands, (run.formulaAt operand).Formed t) :
    (run.applicationOf t assertion operands).Known t := by
  refine ⟨member, asserted, rfl, by simp [applicationOf, length], ?_, ?_⟩
  · intro formula present
    obtain ⟨operand, inside, rfl⟩ := List.mem_map.mp present
    exact (formed operand inside).separator_free
  · simp only [applicationOf, List.any_map, List.any_eq_false, Function.comp, Formula.isUnknown]
    intro operand present unknown
    exact (formed operand present).nonempty (by simpa using unknown)

-- The operands of an application in a run without error are derivable, hence known and free of
-- separators, so that unification finds an image exactly when there is one.
theorem application_known (coherent : t.Coherent) (ownerMember : owner ∈ t.statements)
    (ownerAsserted : owner.isAssertion = true) (assertion : Statement)
    (member : assertion ∈ t.statements) (asserted : assertion.isAssertion = true)
    (operands : List Nat) (length : operands.length = assertion.frame.required.length)
    (derived : ∀ operand ∈ operands, Derivable t owner (run.formulaAt operand)) :
    (run.applicationOf t assertion operands).Known t :=
  application_of_formed assertion member asserted operands length fun operand present =>
    derivable_formed t coherent owner ownerMember ownerAsserted _ (derived operand present)

theorem apply_to_sound (coherent : t.Coherent) (ownerMember : owner ∈ t.statements)
    (ownerAsserted : owner.isAssertion = true) (assertion : Statement)
    (member : assertion ∈ t.statements) (asserted : assertion.isAssertion = true)
    (earlier : assertion.id < owner.id) (operands : List Nat)
    (length : operands.length = assertion.frame.required.length)
    (bounded : ∀ operand ∈ operands, operand < run.formulas.length) (sound : run.Sound t owner) :
    (run.applyTo t true assertion operands).Sound t owner := by
  unfold applyTo
  dsimp only
  split
  · rename_i clean
    refine push_sound run _ _ sound.proves rfl (fun step present => present) sound ?_
    intro fine
    refine ⟨fine, ?_⟩
    have derived : ∀ operand ∈ operands, Derivable t owner (run.formulaAt operand) :=
      fun operand present => sound.derived fine _
        (List.mem_of_getElem? (run.formula_at operand (bounded operand present)))
    have known := application_known coherent ownerMember ownerAsserted assertion member asserted
      operands length derived
    obtain ⟨image, fits, respects, formula⟩ := (unify_ok_iff coherent known _).mp ⟨clean, rfl⟩
    rw [formula]
    refine .application assertion image member asserted earlier fits.nonempty ?_
      (sound.proves ▸ respects)
    intro id needed
    have operand : (t.formulaOf id).instantiate t image ∈ operands.map run.formulaAt := by
      have same : _ = operands.map run.formulaAt := fits.operands
      rw [← same]
      exact List.mem_map.mpr ⟨id, needed, rfl⟩
    obtain ⟨source, present, same⟩ := List.mem_map.mp operand
    rw [← same]
    exact derived source present
  · refine push_sound run _ _ (by simpa using sound.proves) (by simp)
      (fun step present => by simpa using present) sound ?_
    intro fine
    rw [fail_verdict] at fine
    exact absurd fine (worse_not_ok _ _ (by decide))

theorem apply_assertion_sound (coherent : t.Coherent) (ownerMember : owner ∈ t.statements)
    (ownerAsserted : owner.isAssertion = true) (assertion : Statement)
    (member : assertion ∈ t.statements) (asserted : assertion.isAssertion = true)
    (earlier : assertion.id < owner.id) (sound : run.Sound t owner) :
    (run.applyAssertion t true assertion).Sound t owner := by
  unfold applyAssertion
  dsimp only
  split
  · refine push_sound run _ _ (by simpa using sound.proves) (by simp) (by simp) sound ?_
    intro fine
    simp only [fail_verdict] at fine
    exact absurd fine (worse_not_ok _ _ (by decide))
  · rename_i enough
    have taken : { run with stack := run.stack.drop assertion.frame.required.length }.Sound t owner :=
      ⟨sound.proves, fun step present => sound.stack step (List.mem_of_mem_drop present), sound.derived⟩
    refine apply_to_sound coherent ownerMember ownerAsserted assertion member asserted earlier _ ?_ ?_
      taken
    · simp only [List.length_reverse, List.length_take]
      omega
    · intro operand present
      exact sound.stack operand (List.mem_of_mem_take (List.mem_reverse.mp present))

theorem step_sound (coherent : t.Coherent) (ownerMember : owner ∈ t.statements)
    (ownerAsserted : owner.isAssertion = true) (instruction : Instruction) (next : Run)
    (admissible : instruction.Admissible t owner run.formulas.length) (sound : run.Sound t owner)
    (stepped : run.step t true instruction = .ok next) : next.Sound t owner := by
  cases instruction with
  | unknown =>
      cases stepped
      refine push_sound run _ _ sound.proves rfl (fun step present => present) sound ?_
      intro fine
      exact absurd fine (worse_not_ok _ _ (by decide))
  | reuse target =>
      have bounds : 0 ≤ target ∧ target < run.formulas.length := admissible
      simp only [step, if_pos bounds] at stepped
      cases stepped
      refine push_sound run run _ sound.proves rfl (fun step present => present) sound ?_
      intro fine
      have inside : target.toNat < run.formulas.length := by omega
      exact ⟨fine, sound.derived fine _ (List.mem_of_getElem? (run.formula_at target.toNat inside))⟩
  | reference id =>
      obtain ⟨s, found, usable⟩ := admissible
      simp only [step, found] at stepped
      split at stepped
      · rename_i hypothesis
        cases stepped
        refine push_sound run run _ sound.proves rfl (fun step present => present) sound ?_
        intro fine
        refine ⟨fine, .hypothesis id s ?_ found⟩
        rcases usable with ⟨asserted, _⟩ | ⟨_, inside⟩
        · rw [s.assertion_not_hypothesis asserted] at hypothesis
          cases hypothesis
        · simpa [Frame.contains] using inside
      · rename_i noHypothesis
        split at stepped
        · rename_i asserted
          cases stepped
          refine apply_assertion_sound coherent ownerMember ownerAsserted s
            (t.member_of_statement id s found) asserted ?_ sound
          rw [coherent.statement_id id s found]
          rcases usable with ⟨_, earlier⟩ | ⟨hypothesis, _⟩
          · exact earlier
          · exact absurd hypothesis noHypothesis
        · cases stepped
  | invalid kind => exact False.elim admissible

theorem apply_to_length (t : Table) (checkDisjoint : Bool) (run : Run) (assertion : Statement)
    (operands : List Nat) :
    (run.applyTo t checkDisjoint assertion operands).formulas.length = run.formulas.length + 1 := by
  unfold applyTo
  dsimp only
  split <;> simp [push]

theorem step_length (t : Table) (checkDisjoint : Bool) (run next : Run) (instruction : Instruction)
    (stepped : run.step t checkDisjoint instruction = .ok next) :
    next.formulas.length = run.formulas.length + 1 := by
  cases instruction with
  | unknown =>
      cases stepped
      simp [push]
  | reuse target =>
      simp only [step] at stepped
      split at stepped
      · cases stepped
        simp [push]
      · cases stepped
  | reference id =>
      simp only [step] at stepped
      split at stepped
      · cases stepped
      · split at stepped
        · cases stepped
          simp [push]
        · split at stepped
          · cases stepped
            unfold applyAssertion
            dsimp only
            split
            · simp [push]
            · rw [apply_to_length]
          · cases stepped
  | invalid kind => cases stepped

theorem run_sound (coherent : t.Coherent) (ownerMember : owner ∈ t.statements)
    (ownerAsserted : owner.isAssertion = true) (proof : Proof) (run final : Run)
    (admissible : proof.EachFrom (Instruction.Admissible t owner) run.formulas.length)
    (sound : run.Sound t owner) (finished : proof.foldlM (step t true) run = .ok final) :
    final.Sound t owner := by
  induction proof generalizing run with
  | nil =>
      cases finished
      exact sound
  | cons instruction rest ih =>
      rw [List.foldlM_cons, bind_ok] at finished
      obtain ⟨next, stepped, others⟩ := finished
      have length := step_length t true run next instruction stepped
      exact ih next (length ▸ admissible.2)
        (step_sound coherent ownerMember ownerAsserted instruction next admissible.1 sound stepped) others

theorem finish_formulas (t : Table) (run : Run) : (run.finish t).formulas = run.formulas := by
  unfold finish
  dsimp only
  split
  · rfl
  · split
    · rfl
    · exact fail_formulas ..

theorem finish_ok (run : Run) (fine : (run.finish t).verdict = .ok) :
    run.finish t = run ∧ run.formulas.getLast? = some run.owner.formula := by
  unfold finish at fine ⊢
  dsimp only at fine ⊢
  split at fine
  · exact absurd fine (worse_not_ok _ _ (by decide))
  · rename_i known
    split at fine
    · rename_i same
      rw [if_neg known, if_pos same]
      refine ⟨rfl, ?_⟩
      rw [← same]
      cases last : run.formulas.getLast? with
      | none => simp [last, Formula.isUnknown] at known
      | some formula => rfl
    · rw [fail_verdict] at fine
      exact absurd fine (worse_not_ok _ _ (by decide))

end Run

theorem verify_proof_ok (t : Table) (checkDisjoint : Bool) (inspected : Int) (owner : Statement)
    (proof : Proof) (run : Run) :
    verifyProof t checkDisjoint inspected owner proof = .ok run ↔
      proof ≠ [] ∧ ∃ final, proof.foldlM (Run.step t checkDisjoint)
        { owner, proof, inspection := inspectionOf proof inspected } = .ok final ∧ final.finish t = run := by
  cases proof with
  | nil => simp [verifyProof]
  | cons first rest =>
      simp only [verifyProof, List.isEmpty_cons, Bool.false_eq_true, if_false, bind_ok, pure_ok, ne_eq,
        reduceCtorEq, not_false_eq_true, true_and]

theorem verify_proof_sound (t : Table) (coherent : t.Coherent) (owner : Statement)
    (member : owner ∈ t.statements) (asserted : owner.isAssertion = true) (inspected : Int)
    (proof : Proof) (admissible : proof.EachFrom (Instruction.Admissible t owner) 0) (run : Run)
    (verified : verifyProof t true inspected owner proof = .ok run) (fine : run.verdict = .ok) :
    Derivable t owner owner.formula := by
  obtain ⟨_, final, finished, rfl⟩ := (verify_proof_ok t true inspected owner proof run).mp verified
  obtain ⟨unchanged, last⟩ := final.finish_ok fine
  have sound : final.Sound t owner :=
    Run.run_sound coherent member asserted proof
      { owner, proof, inspection := inspectionOf proof inspected } final admissible
      ⟨rfl, by simp, by simp⟩ finished
  rw [unchanged] at fine
  exact sound.proves ▸ sound.derived fine _ (List.mem_of_getLast? last)

theorem verify_sound (t : Table) (coherent : t.Coherent) (owner : Statement)
    (member : owner ∈ t.statements) (inspected : Int) (run : Run)
    (verified : verify t true inspected owner = .ok run) (fine : run.verdict = .ok) :
    Derivable t owner owner.formula := by
  unfold verify at verified
  split at verified
  · cases verified
  · rename_i proved
    have asserted : owner.isAssertion = true := owner.proved_asserted (by simpa using proved)
    split at verified
    · cases verified
      cases fine
    · rename_i proof decoded
      exact verify_proof_sound t coherent owner member asserted inspected proof
        (Proof.decode_admissible t coherent owner member asserted _ proof decoded) run verified fine

end Lemmata
