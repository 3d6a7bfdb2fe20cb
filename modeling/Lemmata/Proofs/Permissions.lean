import Lemmata.Proofs.Regrouping
import Lemmata.Proofs.Verdicts
import Lemmata.Proofs.Violations

/-!
More permissions never hurt. As long as a run finds no error it does the same under a theorem that keeps
more variables apart, and without the check. Afterwards the two may go different ways, for a step that is
no violation any more has a formula: but then the first run is in error already.
-/

set_option autoImplicit false

namespace Lemmata

-- Another form of the theorem that keeps apart whatever the theorem does.
structure Statement.Widens (owner twin : Statement) : Prop where
  label : twin.label = owner.label
  formula : twin.formula = owner.formula
  permitted : ∀ x y, owner.frame.allowsDisjoint x y = true → twin.frame.allowsDisjoint x y = true

-- The revision leaves the assertion that the instruction applies alone.
def Instruction.Keeps (t : Table) (revise : Statement → Statement) (instruction : Instruction) : Prop :=
  ∀ id s, instruction = .reference id → t.statement id = some s → s.isAssertion = true → revise s = s

theorem Separated.widen {t : Table} {owner twin : Statement} {left right : Formula}
    (separated : Separated t owner left right) (wider : owner.Widens twin) : Separated t twin left right := by
  intro x xMember xVar y yMember yVar
  obtain ⟨different, allowed⟩ := separated x xMember xVar y yMember yVar
  exact ⟨different, wider.permitted x y allowed⟩

namespace Application

variable {t : Table} {checked relaxed : Bool} {app : Application} {twin : Statement}

theorem disjoint_error_relaxed (wider : app.owner.Widens twin) (subst : Substitution)
    (fine : app.disjointError t subst = none) : disjointError t { app with owner := twin } subst = none := by
  rw [disjointError, List.findSome?_eq_none_iff] at fine ⊢
  intro pair required
  have single := fine pair required
  simp only [pairError, Option.bind_eq_bind, Option.bind_eq_none_iff, pure, reduceCtorEq, imp_false] at single ⊢
  intro left bound right other clash found
  have none := Option.eq_none_iff_forall_ne_some.mpr (single left bound right other)
  have separated := ((clash_none_iff t app.owner left right).mp none).widen wider
  rw [(clash_none_iff t twin left right).mpr separated] at found
  cases found

theorem unify_relaxed (wider : app.owner.Widens twin) (milder : relaxed = true → checked = true)
    (fine : (app.unify t checked).error = none) :
    unify t relaxed { app with owner := twin } = app.unify t checked := by
  have known : ({ app with owner := twin } : Application).known = app.known := rfl
  have passed : ∀ subst, (if checked then app.disjointError t subst else none) = none →
      (if relaxed then disjointError t { app with owner := twin } subst else none) = none := by
    intro subst none
    cases relaxed with
    | false => rfl
    | true =>
        rw [milder rfl] at none
        exact disjoint_error_relaxed wider subst none
  revert fine
  unfold unify
  dsimp only
  rw [known]
  cases (Matching.solve t 2 (app.known.map Prod.fst) (app.known.map Prod.snd)).solutions with
  | nil => cases app.unknownOperand <;> simp
  | cons subst others =>
      cases others with
      | cons second rest => cases app.unknownOperand <;> simp
      | nil =>
          dsimp only
          cases clashes : if checked then app.disjointError t subst else none with
          | some error => simp
          | none =>
              rw [passed subst clashes]
              dsimp only
              cases subst.apply t app.assertion.formula with
              | some formula => simp
              | none => cases app.unknownOperand <;> simp

theorem unify_revised (revise : Statement → Statement) (fine : (app.unify t checked).error = none) :
    app.unify (t.revised revise) checked = app.unify t checked := by
  have shared : ∀ formula : Formula, formula.Shared t (t.revised revise) := fun _ _ _ => rfl
  have alike : (app.unify t checked).Alike (app.unify (t.revised revise) checked) :=
    unify_shared (fun pattern _ => shared pattern) (shared _) fun operand _ => shared operand
  have free : (app.unify (t.revised revise) checked).error = none := by
    have advice := alike.error
    rw [fine] at advice
    exact Option.map_eq_none_iff.mp advice.symm
  rw [Unified.mk.injEq]
  exact ⟨alike.formula.symm, alike.subst.symm, alike.backtracks.symm, free.trans fine.symm⟩

end Application

namespace Run

def ownedBy (run : Run) (twin : Statement) : Run := { run with owner := twin }

variable {t : Table} {checked relaxed : Bool} {run next : Run} {instruction : Instruction} {twin : Statement}
  {revise : Statement → Statement}

theorem apply_to_counted (assertion : Statement) (operands : List Nat) :
    (run.applyTo t checked assertion operands).errorCount = run.errorCount +
      if ((run.applicationOf t assertion operands).unify t checked).error.isSome then 1 else 0 := by
  unfold applyTo
  dsimp only
  cases ((run.applicationOf t assertion operands).unify t checked).error with
  | none => rfl
  | some error => simp [push, fail_counted]

section Revised

variable (revision : Statement.Revision revise)

include revision

theorem inspect_revised (step : Nat) (assertion : Statement) (operands : List Nat) (subst : Substitution) :
    inspect (t.revised revise) step assertion operands subst = inspect t step assertion operands subst := by
  have labels : (t.revised revise).labelOf = t.labelOf := funext (t.label_of_revised revision)
  funext inspection
  simp only [inspect, labels]

theorem application_revised (assertion : Statement) (operands : List Nat) :
    (run.ownedBy twin).applicationOf (t.revised revise) assertion operands =
      { run.applicationOf t assertion operands with owner := twin } := by
  have formulas : (t.revised revise).formulaOf = t.formulaOf := funext (t.formula_of_revised revision)
  simp only [applicationOf, formulas]
  rfl

theorem apply_to_relaxed (wider : run.owner.Widens twin) (milder : relaxed = true → checked = true)
    (assertion : Statement) (operands : List Nat)
    (fine : (run.applyTo t checked assertion operands).errorCount = 0) :
    (run.ownedBy twin).applyTo (t.revised revise) relaxed assertion operands =
      (run.applyTo t checked assertion operands).ownedBy twin := by
  have free : ((run.applicationOf t assertion operands).unify t checked).error = none := by
    rw [apply_to_counted] at fine
    cases failed : ((run.applicationOf t assertion operands).unify t checked).error with
    | none => rfl
    | some error => simp [failed] at fine
  have relaxing : Application.unify t relaxed { run.applicationOf t assertion operands with owner := twin } =
      (run.applicationOf t assertion operands).unify t checked := Application.unify_relaxed wider milder free
  have same : ((run.ownedBy twin).applicationOf (t.revised revise) assertion operands).unify
      (t.revised revise) relaxed = (run.applicationOf t assertion operands).unify t checked := by
    rw [application_revised revision, Application.unify_revised revise (by rw [relaxing, free]), relaxing]
  unfold applyTo
  dsimp only
  rw [same, free, inspect_revised revision]
  rfl

theorem step_relaxed (wider : run.owner.Widens twin) (milder : relaxed = true → checked = true)
    (kept : instruction.Keeps t revise) (stepped : run.step t checked instruction = .ok next)
    (fine : next.errorCount = 0) :
    (run.ownedBy twin).step (t.revised revise) relaxed instruction = .ok (next.ownedBy twin) := by
  cases step_performs stepped with
  | opened => rfl
  | reused target inside =>
      have bounds : 0 ≤ (target : Int) ∧ (target : Int) < (run.ownedBy twin).formulas.length :=
        ⟨Int.natCast_nonneg target, Int.ofNat_lt.mpr inside⟩
      simp only [step, if_pos bounds]
      rfl
  | hypothesis id h found supposed =>
      simp only [step, t.statement_revised, found, Option.map_some, revision.isHypothesis, supposed, if_true,
        revision.formula]
      rfl
  | missing id s message found asserted few =>
      simp [push, fail_counted] at fine
  | applied id s found asserted enough =>
      have fixed := kept id s rfl found asserted
      have plain := s.assertion_not_hypothesis asserted
      have stacked : ¬ (run.ownedBy twin).stack.length < s.frame.required.length := Nat.not_lt.mpr enough
      simp only [step, t.statement_revised, found, Option.map_some, fixed, plain, Bool.false_eq_true, if_false,
        asserted, if_true, applyAssertion]
      rw [if_neg stacked]
      let taken : Run := { run with stack := run.stack.drop s.frame.required.length }
      have wide : taken.owner.Widens twin := wider
      exact congrArg Except.ok (apply_to_relaxed revision wide milder s _ fine)

theorem run_relaxed (milder : relaxed = true → checked = true) (proof : Proof) (start final : Run)
    (wider : start.owner.Widens twin) (kept : ∀ instruction ∈ proof, instruction.Keeps t revise)
    (finished : proof.foldlM (step t checked) start = .ok final) (fine : final.errorCount = 0) :
    proof.foldlM (step (t.revised revise) relaxed) (start.ownedBy twin) = .ok (final.ownedBy twin) := by
  induction proof generalizing start with
  | nil =>
      cases finished
      rfl
  | cons instruction rest ih =>
      rw [List.foldlM_cons, bind_ok] at finished
      obtain ⟨next, stepped, others⟩ := finished
      obtain ⟨first, behind⟩ := List.forall_mem_cons.mp kept
      have clean := run_clean rest next final others fine
      have again := step_relaxed revision wider milder first stepped clean
      have owner := (step_stepped stepped).owner
      rw [List.foldlM_cons, again]
      exact ih next (owner ▸ wider) behind others

end Revised

theorem fail_owned (label : twin.label = run.owner.label) (rule : String) (step : Nat)
    (applied message suggestion : String) :
    (run.ownedBy twin).fail (t.revised revise) rule step applied message suggestion =
      (run.fail t rule step applied message suggestion).ownedBy twin := by
  simp only [fail, ownedBy, report, label]
  split <;> rfl

theorem finish_owned (wider : run.owner.Widens twin) :
    (run.ownedBy twin).finish (t.revised revise) = (run.finish t).ownedBy twin := by
  have formulas : (run.ownedBy twin).formulas = run.formulas := rfl
  have goal : (run.ownedBy twin).owner.formula = run.owner.formula := wider.formula
  by_cases opened : (run.formulas.getLast?.getD []).isUnknown = true
  · simp only [finish, formulas, opened, if_true]
    rfl
  · by_cases same : run.formulas.getLast?.getD [] = run.owner.formula
    · rw [same] at opened
      simp only [finish, formulas, goal, same, opened, if_true, if_false, Bool.false_eq_true]
    · simp only [finish, formulas, opened, goal, same, if_false, fail_owned wider.label]
      rfl

theorem finish_clean (fine : (run.finish t).errorCount = 0) : run.errorCount = 0 := by
  unfold finish at fine
  dsimp only at fine
  split at fine
  · exact fine
  · split at fine
    · exact fine
    · rw [fail_counted] at fine
      omega

end Run

section Outcomes

variable {t : Table} {checked relaxed : Bool} {owner : Statement} {revise : Statement → Statement}

theorem decoded_kept (coherent : t.Coherent) (proved : owner ∈ t.theorems)
    (kept : ∀ s ∈ t.statements, s ≠ owner → revise s = s) (text : String) (proof : Proof)
    (decoded : Proof.decode t owner text = .ok proof) : ∀ instruction ∈ proof, instruction.Keeps t revise := by
  obtain ⟨member, asserted⟩ := t.theorem_asserted owner proved
  have admissible := Proof.decode_admissible t coherent owner member asserted text proof decoded
  rintro instruction present id s rfl found applied
  obtain ⟨_, _, other, known, usable⟩ := admissible.member 0 proof _ present
  obtain rfl : s = other := Option.some.inj (found.symm.trans known)
  refine kept s (t.member_of_statement id s found) ?_
  rintro rfl
  rcases usable with ⟨_, before⟩ | ⟨supposed, _⟩
  · rw [coherent.statement_id id s found] at before
    omega
  · rw [s.assertion_not_hypothesis applied] at supposed
    cases supposed

theorem verify_relaxed (coherent : t.Coherent) (revisedCoherent : (t.revised revise).Coherent)
    (revision : Statement.Revision revise) (proved : owner ∈ t.theorems) (wider : owner.Widens (revise owner))
    (same : (revise owner).proof = owner.proof) (kept : ∀ s ∈ t.statements, s ≠ owner → revise s = s)
    (milder : relaxed = true → checked = true) (inspected : Int) :
    ∃ run twin, verify t checked inspected owner = .ok run ∧
      verify (t.revised revise) relaxed inspected (revise owner) = .ok twin ∧
      twin.verdict.rank ≤ run.verdict.rank ∧ (run.errorCount = 0 → twin = run.ownedBy (revise owner)) := by
  have kind := t.theorem_kind owner proved
  have twinProved : revise owner ∈ (t.revised revise).theorems := by
    rw [t.theorems_revised revision]
    exact List.mem_map_of_mem proved
  obtain ⟨run, verified⟩ := verify_returns coherent proved checked inspected
  obtain ⟨twin, twinVerified⟩ := verify_returns revisedCoherent twinProved relaxed inspected
  refine ⟨run, twin, verified, twinVerified, ?_⟩
  simp only [verify, revision.kind, kind, same, Proof.decode_revised t owner revision, ne_eq, not_true_eq_false,
    if_false] at verified twinVerified
  cases decoded : Proof.decode t owner owner.proof with
  | error error =>
      rw [decoded] at verified twinVerified
      cases verified
      cases twinVerified
      refine ⟨Int.le_refl _, fun _ => ?_⟩
      simp only [unreadable, Run.report, Run.ownedBy, wider.label]
      rfl
  | ok proof =>
      rw [decoded] at verified twinVerified
      have tallied := (verify_proof_tallied coherent verified).2
      have twinTallied := (verify_proof_tallied revisedCoherent twinVerified).2
      have unchanged : run.errorCount = 0 → twin = run.ownedBy (revise owner) := by
        intro clean
        obtain ⟨_, final, finished, rfl⟩ := (verify_proof_ok ..).mp verified
        obtain ⟨_, other, otherFinished, rfl⟩ := (verify_proof_ok ..).mp twinVerified
        have again := Run.run_relaxed revision milder proof _ final wider
          (decoded_kept coherent proved kept _ proof decoded) finished (Run.finish_clean clean)
        obtain rfl : other = final.ownedBy (revise owner) := Except.ok.inj (otherFinished.symm.trans again)
        have sameOwner : final.owner = owner := Run.run_owner proof _ final finished
        exact Run.finish_owned (sameOwner ▸ wider)
      refine ⟨?_, unchanged⟩
      by_cases clean : run.errorCount = 0
      · rw [unchanged clean]
        exact Int.le_refl _
      · have error := tallied.verdict_error_iff.mpr (Nat.pos_of_ne_zero clean)
        rw [error, twinTallied.verdict, Run.verdictOf]
        split
        · split <;> decide
        · decide

end Outcomes

end Lemmata
