import Lemmata.Proof.Instruction
import Lemmata.Proofs.OpenOperands
import Lemmata.Proofs.Soundness

/-!
What every step of a run does, whatever instruction it performs: it takes the operands of the
instruction from the stack and ends with one formula, which is open or well formed. A proof that was
read from a text always runs to its end.
-/

set_option autoImplicit false

namespace Lemmata.Run

-- A step appends one formula and puts it on the stack in the place of its operands. A step that is
-- no error has found all of them.
structure Stepped (t : Table) (instruction : Instruction) (run next : Run) : Prop where
  owner : next.owner = run.owner
  formulas : ∃ formula, next.formulas = run.formulas ++ [formula]
  stack : next.stack = run.formulas.length :: run.stack.drop (Proof.arity t instruction)
  fine : next.verdict = .ok → run.verdict = .ok ∧ Proof.arity t instruction ≤ run.stack.length

variable {t : Table} {checkDisjoint : Bool} {run next : Run} {instruction : Instruction}

theorem push_stepped (base : Run) (formula : Formula) (owner : base.owner = run.owner)
    (formulas : base.formulas = run.formulas)
    (stack : base.stack = run.stack.drop (Proof.arity t instruction))
    (fine : base.verdict = .ok → run.verdict = .ok ∧ Proof.arity t instruction ≤ run.stack.length) :
    Stepped t instruction run (base.push formula) :=
  ⟨owner, ⟨formula, by simp only [push, formulas]⟩, by simp only [push, formulas, stack], fine⟩

theorem apply_assertion_stepped (id : Int) (s : Statement)
    (arity : Proof.arity t (.reference id) = s.frame.required.length) :
    Stepped t (.reference id) run (run.applyAssertion t checkDisjoint s) := by
  have failed : ∀ verdict : Severity, verdict.worse .error ≠ .ok :=
    fun verdict => worse_not_ok verdict .error (by decide)
  unfold applyAssertion
  dsimp only
  split
  · rename_i missing
    refine push_stepped _ _ (by simp) (by simp) ?_ ?_
    · rw [arity, List.drop_eq_nil_of_le (Nat.le_of_lt missing)]
    · intro fine
      rw [fail_verdict] at fine
      exact absurd fine (failed _)
  · rename_i enough
    unfold applyTo
    dsimp only
    split
    · exact push_stepped _ _ rfl rfl (by rw [arity]) fun fine => ⟨fine, by omega⟩
    · refine push_stepped _ _ (by simp) (by simp) (by simp [arity]) ?_
      intro fine
      rw [fail_verdict] at fine
      exact absurd fine (failed _)

theorem step_stepped (stepped : run.step t checkDisjoint instruction = .ok next) :
    Stepped t instruction run next := by
  cases instruction with
  | unknown =>
      cases stepped
      refine push_stepped _ _ rfl rfl rfl ?_
      intro fine
      exact absurd fine (worse_not_ok _ _ (by decide))
  | reuse target =>
      simp only [step] at stepped
      split at stepped
      · cases stepped
        exact push_stepped run _ rfl rfl rfl fun fine => ⟨fine, Nat.zero_le _⟩
      · cases stepped
  | reference id =>
      simp only [step] at stepped
      split at stepped
      · cases stepped
      · rename_i s found
        split at stepped
        · rename_i hypothesis
          have plain := s.hypothesis_not_assertion hypothesis
          have arity : Proof.arity t (.reference id) = 0 := by simp [Proof.arity, found, plain]
          cases stepped
          exact push_stepped run _ rfl rfl (by simp [arity]) fun fine => ⟨fine, by simp [arity]⟩
        · split at stepped
          · rename_i asserted
            cases stepped
            exact apply_assertion_stepped id s (by simp [Proof.arity, found, asserted])
          · cases stepped
  | invalid kind => cases stepped

structure Sane (t : Table) (run : Run) : Prop where
  stack : ∀ step ∈ run.stack, step < run.formulas.length
  formed : ∀ formula ∈ run.formulas, formula = [] ∨ formula.Formed t
  closed : run.verdict = .ok → ∀ formula ∈ run.formulas, formula ≠ []

theorem formula_at_mem (run : Run) (step : Nat) (bounded : step < run.formulas.length) :
    run.formulaAt step ∈ run.formulas :=
  List.mem_of_getElem? (run.formula_at step bounded)

theorem formula_at_formed (sane : run.Sane t) (fine : run.verdict = .ok) (step : Nat)
    (bounded : step < run.formulas.length) : (run.formulaAt step).Formed t := by
  have member := run.formula_at_mem step bounded
  exact (sane.formed _ member).resolve_left (sane.closed fine _ member)

theorem push_sane (run base : Run) (formula : Formula) (formulas : base.formulas = run.formulas)
    (stack : ∀ step ∈ base.stack, step ∈ run.stack) (sane : run.Sane t)
    (formed : formula = [] ∨ formula.Formed t)
    (closed : base.verdict = .ok → run.verdict = .ok ∧ formula ≠ []) : (base.push formula).Sane t := by
  refine ⟨?_, ?_, ?_⟩
  · intro step member
    simp only [push, formulas, List.mem_cons, List.length_append, List.length_singleton] at member ⊢
    rcases member with rfl | old
    · omega
    · have bounded := sane.stack step (stack step old)
      omega
  · intro other member
    simp only [push, formulas, List.mem_append, List.mem_singleton] at member
    rcases member with old | rfl
    · exact sane.formed other old
    · exact formed
  · intro fine other member
    obtain ⟨clean, nonempty⟩ := closed fine
    simp only [push, formulas, List.mem_append, List.mem_singleton] at member
    rcases member with old | rfl
    · exact sane.closed clean other old
    · exact nonempty

theorem apply_to_sane (coherent : t.Coherent) (assertion : Statement)
    (member : assertion ∈ t.statements) (asserted : assertion.isAssertion = true) (operands : List Nat)
    (length : operands.length = assertion.frame.required.length)
    (bounded : ∀ operand ∈ operands, operand < run.formulas.length) (sane : run.Sane t) :
    (run.applyTo t checkDisjoint assertion operands).Sane t := by
  have conclusion := coherent.conclusion_formed member asserted
  have formed : ∀ operand ∈ operands.map run.formulaAt, operand = [] ∨ operand.Formed t := by
    intro operand present
    obtain ⟨step, inside, rfl⟩ := List.mem_map.mp present
    exact sane.formed _ (run.formula_at_mem step (bounded step inside))
  unfold applyTo
  dsimp only
  split
  · rename_i clean
    refine push_sane run _ _ rfl (fun step present => present) sane
      (Application.unify_formed conclusion formed) fun fine => ⟨fine, ?_⟩
    have known := application_of_formed assertion member asserted operands length
      fun operand present => formula_at_formed sane fine operand (bounded operand present)
    obtain ⟨image, fits, respects⟩ := unify_clean coherent known clean
    rw [(unify_fitting coherent known image fits respects).2]
    obtain ⟨head, tail, shape, const⟩ := conclusion.headed
    simp [applicationOf, shape, Formula.instantiate_const head tail const]
  · refine push_sane run _ _ (by simp) (fun step present => by simpa using present) sane
      (Or.inl rfl) ?_
    intro fine
    rw [fail_verdict] at fine
    exact absurd fine (worse_not_ok _ _ (by decide))

theorem apply_assertion_sane (coherent : t.Coherent) (assertion : Statement)
    (member : assertion ∈ t.statements) (asserted : assertion.isAssertion = true) (sane : run.Sane t) :
    (run.applyAssertion t checkDisjoint assertion).Sane t := by
  unfold applyAssertion
  dsimp only
  split
  · refine push_sane run _ _ (by simp) (by simp) sane (Or.inl rfl) ?_
    intro fine
    rw [fail_verdict] at fine
    exact absurd fine (worse_not_ok _ _ (by decide))
  · have taken : { run with stack := run.stack.drop assertion.frame.required.length }.Sane t :=
      ⟨fun step present => sane.stack step (List.mem_of_mem_drop present), sane.formed, sane.closed⟩
    refine apply_to_sane coherent assertion member asserted _ ?_ ?_ taken
    · simp only [List.length_reverse, List.length_take]
      omega
    · intro operand present
      exact sane.stack operand (List.mem_of_mem_take (List.mem_reverse.mp present))

theorem step_sane (coherent : t.Coherent) (sane : run.Sane t)
    (stepped : run.step t checkDisjoint instruction = .ok next) : next.Sane t := by
  cases instruction with
  | unknown =>
      cases stepped
      refine push_sane run _ _ rfl (fun step present => present) sane (Or.inl rfl) ?_
      intro fine
      exact absurd fine (worse_not_ok _ _ (by decide))
  | reuse target =>
      simp only [step] at stepped
      split at stepped
      · rename_i bounds
        have member := run.formula_at_mem target.toNat (by omega)
        cases stepped
        exact push_sane run run _ rfl (fun step present => present) sane (sane.formed _ member)
          fun fine => ⟨fine, sane.closed fine _ member⟩
      · cases stepped
  | reference id =>
      simp only [step] at stepped
      split at stepped
      · cases stepped
      · rename_i s found
        split at stepped
        · rename_i hypothesis
          have formed := coherent.hypothesis_formed id s found hypothesis
          cases stepped
          exact push_sane run run _ rfl (fun step present => present) sane (Or.inr formed)
            fun fine => ⟨fine, formed.nonempty⟩
        · split at stepped
          · rename_i asserted
            cases stepped
            exact apply_assertion_sane coherent s (t.member_of_statement id s found) asserted sane
          · cases stepped
  | invalid kind => cases stepped

theorem run_sane (coherent : t.Coherent) (proof : Proof) (start final : Run) (sane : start.Sane t)
    (finished : proof.foldlM (step t checkDisjoint) start = .ok final) : final.Sane t :=
  foldl_m_invariant (step t checkDisjoint) (Sane t) (fun _ _ _ before => step_sane coherent before)
    proof start final sane finished

theorem run_fine (proof : Proof) (start final : Run)
    (finished : proof.foldlM (step t checkDisjoint) start = .ok final) (fine : final.verdict = .ok) :
    start.verdict = .ok := by
  induction proof generalizing start with
  | nil =>
      cases finished
      exact fine
  | cons instruction rest ih =>
      rw [List.foldlM_cons, bind_ok] at finished
      obtain ⟨next, stepped, others⟩ := finished
      exact ((step_stepped stepped).fine (ih next others)).1

theorem run_owner (proof : Proof) (start final : Run)
    (finished : proof.foldlM (step t checkDisjoint) start = .ok final) : final.owner = start.owner :=
  foldl_m_invariant (step t checkDisjoint) (·.owner = start.owner)
    (fun _ _ _ before stepped => (step_stepped stepped).owner.trans before) proof start final rfl finished

theorem step_progress (checkDisjoint : Bool) (owner : Statement)
    (admissible : instruction.Admissible t owner run.formulas.length) :
    ∃ next, run.step t checkDisjoint instruction = .ok next := by
  cases instruction with
  | unknown => exact ⟨_, rfl⟩
  | reuse target =>
      have bounds : 0 ≤ target ∧ target < run.formulas.length := admissible
      simp only [step, if_pos bounds]
      exact ⟨_, rfl⟩
  | reference id =>
      obtain ⟨s, found, usable⟩ := admissible
      simp only [step, found]
      by_cases hypothesis : s.isHypothesis = true
      · rw [if_pos hypothesis]
        exact ⟨_, rfl⟩
      · rw [if_neg hypothesis, if_pos (usable.resolve_right fun own => hypothesis own.1).1]
        exact ⟨_, rfl⟩
  | invalid kind => exact False.elim admissible

theorem run_progress (checkDisjoint : Bool) (owner : Statement) (proof : Proof) (start : Run)
    (admissible : proof.EachFrom (Instruction.Admissible t owner) start.formulas.length) :
    ∃ final, proof.foldlM (step t checkDisjoint) start = .ok final := by
  induction proof generalizing start with
  | nil => exact ⟨start, rfl⟩
  | cons instruction rest ih =>
      obtain ⟨next, stepped⟩ := step_progress checkDisjoint owner admissible.1
      have length := step_length t checkDisjoint start next instruction stepped
      obtain ⟨final, finished⟩ := ih next (length ▸ admissible.2)
      exact ⟨final, by rw [List.foldlM_cons, stepped]; exact finished⟩

end Lemmata.Run
