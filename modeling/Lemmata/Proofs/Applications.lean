import Lemmata.Proofs.Progress

/-!
The applications of a run. A step opens the proof, pushes a formula that is known already, or applies
an assertion to the formulas on top of the stack. The stack holds steps in the order in which they were
made, and an application takes its operands away, so no step is an operand of two applications.
-/

set_option autoImplicit false

namespace Lemmata.Run

inductive Performs (t : Table) (checkDisjoint : Bool) (run : Run) : Instruction → Run → Prop
  | opened : Performs t checkDisjoint run .unknown
      ({ run with verdict := run.verdict.worse .incomplete }.push [])
  | reused (target : Nat) (inside : target < run.formulas.length) :
      Performs t checkDisjoint run (.reuse target) (run.push (run.formulaAt target))
  | hypothesis (id : Int) (h : Statement) (found : t.statement id = some h)
      (supposed : h.isHypothesis = true) :
      Performs t checkDisjoint run (.reference id) (run.push h.formula)
  | missing (id : Int) (s : Statement) (message : String) (found : t.statement id = some s)
      (asserted : s.isAssertion = true) (few : run.stack.length < s.frame.required.length) :
      Performs t checkDisjoint run (.reference id)
        ({ run.fail t Rule.stackUnderflow run.formulas.length s.label message with stack := [] }.push [])
  | applied (id : Int) (s : Statement) (found : t.statement id = some s) (asserted : s.isAssertion = true)
      (enough : s.frame.required.length ≤ run.stack.length) :
      Performs t checkDisjoint run (.reference id)
        ({ run with stack := run.stack.drop s.frame.required.length }.applyTo t checkDisjoint s
          (run.stack.take s.frame.required.length).reverse)

structure Call where
  step : Nat
  operands : List Nat
  application : Application
deriving DecidableEq, Repr

section Calls

variable (t : Table) (checkDisjoint : Bool)

-- An assertion that finds too few formulas on the stack is not applied.
def call (run : Run) : Instruction → Option Call
  | .reference id => do
      let s ← t.statement id
      let operands := (run.stack.take s.frame.required.length).reverse
      if s.isAssertion = true ∧ s.frame.required.length ≤ run.stack.length then
        some ⟨run.formulas.length, operands, run.applicationOf t s operands⟩
      else none
  | _ => none

def calls : Run → Proof → List Call
  | _, [] => []
  | run, instruction :: rest =>
      match run.step t checkDisjoint instruction with
      | .ok next => (run.call t instruction).toList ++ calls next rest
      | .error _ => []

end Calls

variable {t : Table} {checkDisjoint : Bool} {run next : Run} {instruction : Instruction}

theorem step_performs (stepped : run.step t checkDisjoint instruction = .ok next) :
    Performs t checkDisjoint run instruction next := by
  cases instruction with
  | unknown =>
      cases stepped
      exact .opened
  | reuse target =>
      simp only [step] at stepped
      split at stepped
      · rename_i bounds
        cases stepped
        obtain ⟨place, rfl⟩ := Int.eq_ofNat_of_zero_le bounds.1
        exact .reused place (by omega)
      · cases stepped
  | reference id =>
      simp only [step] at stepped
      split at stepped
      · cases stepped
      · rename_i s found
        split at stepped
        · rename_i supposed
          cases stepped
          exact .hypothesis id s found supposed
        · split at stepped
          · rename_i asserted
            cases stepped
            unfold applyAssertion
            dsimp only
            split
            · rename_i few
              exact .missing id s _ found asserted few
            · rename_i enough
              exact .applied id s found asserted (Nat.le_of_not_lt enough)
          · cases stepped
  | invalid kind => cases stepped

theorem call_iff (found : Call) : run.call t instruction = some found ↔
    ∃ id s, instruction = .reference id ∧ t.statement id = some s ∧ s.isAssertion = true ∧
      s.frame.required.length ≤ run.stack.length ∧
      found = ⟨run.formulas.length, (run.stack.take s.frame.required.length).reverse,
        run.applicationOf t s (run.stack.take s.frame.required.length).reverse⟩ := by
  cases instruction with
  | reference id =>
      simp only [call, Option.bind_eq_bind, Option.bind_eq_some_iff, Option.ite_none_right_eq_some,
        Option.some.injEq, Instruction.reference.injEq]
      constructor
      · rintro ⟨s, stands, ⟨asserted, enough⟩, rfl⟩
        exact ⟨id, s, rfl, stands, asserted, enough, rfl⟩
      · rintro ⟨_, s, rfl, stands, asserted, enough, rfl⟩
        exact ⟨s, stands, ⟨asserted, enough⟩, rfl⟩
  | _ => simp [call]

theorem unify_failed (app : Application) (error : UnifyError)
    (failed : (app.unify t checkDisjoint).error = some error) : (app.unify t checkDisjoint).formula = [] := by
  revert failed
  unfold Application.unify
  dsimp only
  split
  · split <;> simp
  · split <;> simp
  · split
    · simp
    · split
      · simp
      · split <;> simp

section Fields

variable (assertion : Statement) (operands : List Nat)

@[simp] theorem fail_unifications (rule : String) (step : Nat) (applied message suggestion : String) :
    (run.fail t rule step applied message suggestion).unifications = run.unifications := by
  unfold fail
  split <;> rfl

theorem apply_to_formulas : (run.applyTo t checkDisjoint assertion operands).formulas =
    run.formulas ++ [((run.applicationOf t assertion operands).unify t checkDisjoint).formula] := by
  unfold applyTo
  dsimp only
  cases outcome : ((run.applicationOf t assertion operands).unify t checkDisjoint).error with
  | none => rfl
  | some error =>
      rw [unify_failed _ error outcome]
      simp [push]

theorem apply_to_unifications : (run.applyTo t checkDisjoint assertion operands).unifications =
    run.unifications + 1 := by
  unfold applyTo
  dsimp only
  split <;> simp [push]

end Fields

theorem step_unifications (stepped : run.step t checkDisjoint instruction = .ok next) :
    next.unifications = run.unifications + (run.call t instruction).toList.length := by
  cases step_performs stepped with
  | opened => rfl
  | reused target inside => rfl
  | hypothesis id h found supposed => simp [call, found, h.hypothesis_not_assertion supposed, push]
  | missing id s message found asserted few => simp [call, found, few, push]
  | applied id s found asserted enough => simp [call, found, asserted, enough, apply_to_unifications]

theorem run_unifications (proof : Proof) (start final : Run)
    (finished : proof.foldlM (step t checkDisjoint) start = .ok final) :
    final.unifications = start.unifications + (calls t checkDisjoint start proof).length := by
  induction proof generalizing start with
  | nil =>
      cases finished
      rfl
  | cons instruction rest ih =>
      rw [List.foldlM_cons, bind_ok] at finished
      obtain ⟨next, stepped, others⟩ := finished
      rw [ih next others, step_unifications stepped, calls, stepped, List.length_append, Nat.add_assoc]

theorem finish_unifications : (run.finish t).unifications = run.unifications := by
  unfold finish
  dsimp only
  split
  · rfl
  · split <;> simp

structure Piled (run : Run) : Prop where
  descending : run.stack.Pairwise (· > ·)
  made : ∀ step ∈ run.stack, step < run.formulas.length

theorem step_piled (piled : run.Piled) (stepped : run.step t checkDisjoint instruction = .ok next) :
    next.Piled := by
  have shape := step_stepped stepped
  obtain ⟨formula, formulas⟩ := shape.formulas
  have below : ∀ step ∈ run.stack.drop (Proof.arity t instruction), step < run.formulas.length :=
    fun step kept => piled.made step (List.mem_of_mem_drop kept)
  constructor
  · rw [shape.stack]
    exact List.pairwise_cons.mpr ⟨below, piled.descending.drop⟩
  · intro step member
    rw [shape.stack] at member
    rw [formulas, List.length_append, List.length_singleton]
    rcases List.mem_cons.mp member with rfl | kept
    · exact Nat.lt_succ_self _
    · exact Nat.lt_succ_of_lt (below step kept)

theorem run_front (proof : Proof) (start final : Run)
    (finished : proof.foldlM (step t checkDisjoint) start = .ok final) (count : Nat) :
    ∃ before, (proof.take count).foldlM (step t checkDisjoint) start = .ok before ∧
      (proof.drop count).foldlM (step t checkDisjoint) before = .ok final := by
  rwa [← List.take_append_drop count proof, List.foldlM_append, bind_ok] at finished

theorem run_piled (proof : Proof) (start final : Run) (piled : start.Piled)
    (finished : proof.foldlM (step t checkDisjoint) start = .ok final) : final.Piled :=
  foldl_m_invariant (step t checkDisjoint) Piled (fun _ _ _ before => step_piled before) proof start final
    piled finished

theorem call_stack (found : Call) (called : run.call t instruction = some found)
    (stepped : run.step t checkDisjoint instruction = .ok next) :
    found.step = run.formulas.length ∧ run.stack = found.operands.reverse ++ next.stack.tail := by
  obtain ⟨id, s, rfl, stands, asserted, _, rfl⟩ := (call_iff found).mp called
  have arity : Proof.arity t (.reference id) = s.frame.required.length := by
    simp [Proof.arity, stands, asserted]
  refine ⟨rfl, ?_⟩
  rw [(step_stepped stepped).stack, arity, List.tail_cons, List.reverse_reverse, List.take_append_drop]

theorem mem_calls (proof : Proof) (found : Call) :
    found ∈ calls t checkDisjoint run (instruction :: proof) ↔
      ∃ next, run.step t checkDisjoint instruction = .ok next ∧
        (run.call t instruction = some found ∨ found ∈ calls t checkDisjoint next proof) := by
  simp only [calls]
  cases run.step t checkDisjoint instruction <;> simp

theorem calls_aligned (proof : Proof) : ∀ found ∈ calls t checkDisjoint run proof,
    found.operands.length = found.application.assertion.frame.required.length := by
  induction proof generalizing run with
  | nil => simp [calls]
  | cons instruction rest ih =>
      intro found member
      obtain ⟨next, _, here | later⟩ := (mem_calls rest found).mp member
      · obtain ⟨id, s, _, _, _, enough, rfl⟩ := (call_iff found).mp here
        simp [applicationOf, Nat.min_eq_left enough]
      · exact ih found later

-- A property of the run that allowed steps preserve holds in the end, and at every application.
theorem run_forall {allowed : Nat → Instruction → Prop} (invariant : Run → Prop)
    (preserved : ∀ run instruction next, allowed run.formulas.length instruction → invariant run →
      run.step t checkDisjoint instruction = .ok next → invariant next)
    (proof : Proof) (start final : Run) (each : proof.EachFrom allowed start.formulas.length)
    (holds : invariant start) (finished : proof.foldlM (step t checkDisjoint) start = .ok final) :
    invariant final := by
  induction proof generalizing start with
  | nil =>
      cases finished
      exact holds
  | cons instruction rest ih =>
      rw [List.foldlM_cons, bind_ok] at finished
      obtain ⟨next, stepped, others⟩ := finished
      have length := step_length t checkDisjoint start next instruction stepped
      exact ih next (length ▸ each.2) (preserved start instruction next each.1 holds stepped) others

theorem calls_forall {allowed : Nat → Instruction → Prop} (invariant : Run → Prop) (property : Call → Prop)
    (preserved : ∀ run instruction next, allowed run.formulas.length instruction → invariant run →
      run.step t checkDisjoint instruction = .ok next → invariant next)
    (called : ∀ run instruction found, allowed run.formulas.length instruction → invariant run →
      run.call t instruction = some found → property found)
    (proof : Proof) (run : Run) (each : proof.EachFrom allowed run.formulas.length) (holds : invariant run) :
    ∀ found ∈ calls t checkDisjoint run proof, property found := by
  induction proof generalizing run with
  | nil => simp [calls]
  | cons instruction rest ih =>
      intro found member
      obtain ⟨next, stepped, here | later⟩ := (mem_calls rest found).mp member
      · exact called run instruction found each.1 holds here
      · have length := step_length t checkDisjoint run next instruction stepped
        exact ih next (length ▸ each.2) (preserved run instruction next each.1 holds stepped) found later

theorem calls_from (proof : Proof) :
    ∀ found ∈ calls t checkDisjoint run proof, run.formulas.length ≤ found.step := by
  induction proof generalizing run with
  | nil => simp [calls]
  | cons instruction rest ih =>
      intro found member
      obtain ⟨next, stepped, here | later⟩ := (mem_calls rest found).mp member
      · exact Nat.le_of_eq (call_stack found here stepped).1.symm
      · have length := step_length t checkDisjoint run next instruction stepped
        have bound := ih found later
        omega

theorem calls_ascending (proof : Proof) :
    (calls t checkDisjoint run proof).Pairwise fun first second => first.step < second.step := by
  induction proof generalizing run with
  | nil => exact List.Pairwise.nil
  | cons instruction rest ih =>
      simp only [calls]
      cases stepped : run.step t checkDisjoint instruction with
      | error failure => exact List.Pairwise.nil
      | ok next =>
          have length := step_length t checkDisjoint run next instruction stepped
          refine List.pairwise_append.mpr ⟨?_, ih, ?_⟩
          · cases run.call t instruction <;> simp
          · intro first here second later
            have bound := calls_from rest second later
            rw [(call_stack first (by simpa using here) stepped).1]
            omega

theorem calls_operands (proof : Proof) : ∀ found ∈ calls t checkDisjoint run proof,
    ∀ operand ∈ found.operands, operand ∈ run.stack ∨ run.formulas.length ≤ operand := by
  induction proof generalizing run with
  | nil => simp [calls]
  | cons instruction rest ih =>
      intro found member operand taken
      obtain ⟨next, stepped, here | later⟩ := (mem_calls rest found).mp member
      · left
        rw [(call_stack found here stepped).2]
        exact List.mem_append_left _ (List.mem_reverse.mpr taken)
      · have length := step_length t checkDisjoint run next instruction stepped
        rcases ih found later operand taken with below | made
        · rw [(step_stepped stepped).stack] at below
          rcases List.mem_cons.mp below with rfl | kept
          · exact Or.inr (Nat.le_refl _)
          · exact Or.inl (List.mem_of_mem_drop kept)
        · exact Or.inr (by omega)

theorem operands_once (proof : Proof) (piled : run.Piled) :
    ((calls t checkDisjoint run proof).flatMap Call.operands).Nodup := by
  induction proof generalizing run with
  | nil => exact List.nodup_nil
  | cons instruction rest ih =>
      simp only [calls]
      cases stepped : run.step t checkDisjoint instruction with
      | error failure => exact List.nodup_nil
      | ok next =>
          have behind := ih (step_piled piled stepped)
          cases called : run.call t instruction with
          | none => simpa using behind
          | some found =>
              -- What is taken now is neither below the new top of the stack nor made later.
              have split := (call_stack found called stepped).2
              have distinct : (found.operands.reverse ++ next.stack.tail).Nodup := by
                rw [← split]
                exact piled.descending.imp Nat.ne_of_gt
              obtain ⟨own, _, apart⟩ := List.nodup_append.mp distinct
              dsimp only
              rw [Option.toList_some, List.singleton_append, List.flatMap_cons, List.nodup_append]
              refine ⟨(List.pairwise_reverse.mp own).imp Ne.symm, behind, ?_⟩
              rintro operand taken _ later rfl
              obtain ⟨second, member, again⟩ := List.mem_flatMap.mp later
              have made : operand < run.formulas.length :=
                piled.made operand (split ▸ List.mem_append_left _ (List.mem_reverse.mpr taken))
              rcases calls_operands rest second member operand again with below | made'
              · rw [(step_stepped stepped).stack] at below apart
                rcases List.mem_cons.mp below with rfl | kept
                · exact Nat.lt_irrefl _ made
                · exact apart operand (List.mem_reverse.mpr taken) operand kept rfl
              · have length := step_length t checkDisjoint run next instruction stepped
                omega

end Lemmata.Run
