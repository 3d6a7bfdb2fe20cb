import Lemmata.Proofs.Runnable

/-!
What a verdict means. A run keeps a record of its errors: how many there are, the first of them, and the
verdict. The record follows from the steps at which something is wrong, where an assertion cannot be
applied to what lies on the stack or the last formula is not the theorem, and from whether a step is left
open. Nothing else has a part in it.
-/

set_option autoImplicit false

namespace Lemmata

namespace Run

section Errors

variable (t : Table) (checkDisjoint : Bool)

def rejects (run : Run) (assertion : Statement) : Bool :=
  let count := assertion.frame.required.length
  decide (run.stack.length < count) ||
    ((run.applicationOf t assertion (run.stack.take count).reverse).unify t checkDisjoint).error.isSome

def errs (run : Run) : Instruction → Bool
  | .reference id => (t.statement id).any fun s => s.isAssertion && run.rejects t checkDisjoint s
  | _ => false

def misses (run : Run) : Bool :=
  let final := run.formulas.getLast?.getD []
  !final.isUnknown && decide (final ≠ run.owner.formula)

def errorSteps : Run → Proof → List Nat
  | run, [] => if run.misses then [run.formulas.length - 1] else []
  | run, instruction :: rest =>
      let own := if run.errs t checkDisjoint instruction then [run.formulas.length] else []
      match run.step t checkDisjoint instruction with
      | .ok next => own ++ errorSteps next rest
      | .error _ => own

end Errors

def verdictOf (errors : List Nat) (unfinished : Bool) : Severity :=
  if errors = [] then if unfinished then .incomplete else .ok else .error

structure Tallied (proof : Proof) (errors : List Nat) (unfinished : Bool) (run : Run) : Prop where
  runs : run.proof = proof
  counted : run.errorCount = errors.length
  issues : run.issues.map Issue.step = (errors.take 1).map fun (step : Nat) => (step : Int)
  reported : run.reported = run.issues
  verdict : run.verdict = verdictOf errors unfinished

namespace Tallied

variable {t : Table} {checkDisjoint : Bool} {proof : Proof} {errors : List Nat} {unfinished : Bool}
  {run next : Run}

theorem fail (tallied : Tallied proof errors unfinished run) (rule : String) (step : Nat)
    (applied message suggestion : String) :
    Tallied proof (errors ++ [step]) unfinished (run.fail t rule step applied message suggestion) := by
  have verdict : (verdictOf errors unfinished).worse .error = verdictOf (errors ++ [step]) unfinished := by
    cases errors <;> cases unfinished <;> rfl
  unfold Run.fail
  dsimp only
  cases errors with
  | nil =>
      have first : ¬ 0 < run.errorCount := by simp [tallied.counted]
      have fresh : run.issues = [] := List.map_eq_nil_iff.mp tallied.issues
      rw [if_neg first]
      exact ⟨tallied.runs, by simp [report, tallied.counted], by simp [report, fresh],
        by simp [report, tallied.reported], by simp [report, tallied.verdict, verdict]⟩
  | cons earliest others =>
      have later : 0 < run.errorCount := by simp [tallied.counted]
      rw [if_pos later]
      exact ⟨tallied.runs, by simp [tallied.counted], by simp [tallied.issues], tallied.reported,
        by simp [tallied.verdict, verdict]⟩

theorem of_same (tallied : Tallied proof errors unfinished run) (runs : next.proof = run.proof)
    (counted : next.errorCount = run.errorCount) (issues : next.issues = run.issues)
    (reported : next.reported = run.reported) (verdict : next.verdict = run.verdict) :
    Tallied proof errors unfinished next :=
  ⟨runs.trans tallied.runs, counted.trans tallied.counted, issues ▸ tallied.issues,
    reported.trans (tallied.reported.trans issues.symm), verdict.trans tallied.verdict⟩

theorem apply_to (tallied : Tallied proof errors unfinished run) (assertion : Statement)
    (operands : List Nat) :
    Tallied proof
      (errors ++ if ((run.applicationOf t assertion operands).unify t checkDisjoint).error.isSome
        then [run.formulas.length] else [])
      unfinished (run.applyTo t checkDisjoint assertion operands) := by
  unfold applyTo
  dsimp only
  cases outcome : ((run.applicationOf t assertion operands).unify t checkDisjoint).error with
  | none =>
      rw [Option.isSome_none, if_neg Bool.false_ne_true, List.append_nil]
      exact tallied.of_same rfl rfl rfl rfl rfl
  | some error =>
      rw [Option.isSome_some, if_pos rfl]
      refine of_same (Tallied.fail (tallied.of_same ?_ ?_ ?_ ?_ ?_) ..) rfl rfl rfl rfl rfl <;> rfl

theorem apply_assertion (tallied : Tallied proof errors unfinished run) (assertion : Statement) :
    Tallied proof
      (errors ++ if run.rejects t checkDisjoint assertion then [run.formulas.length] else []) unfinished
      (run.applyAssertion t checkDisjoint assertion) := by
  unfold applyAssertion
  dsimp only
  by_cases missing : run.stack.length < assertion.frame.required.length
  · have rejected : run.rejects t checkDisjoint assertion = true := by simp [rejects, missing]
    rw [if_pos missing, if_pos rejected]
    exact of_same (tallied.fail ..) rfl rfl rfl rfl rfl
  · have unified : run.rejects t checkDisjoint assertion = ((run.applicationOf t assertion
        (run.stack.take assertion.frame.required.length).reverse).unify t checkDisjoint).error.isSome := by
      simp [rejects, missing]
    have below : Tallied proof errors unfinished
        { run with stack := run.stack.drop assertion.frame.required.length } :=
      tallied.of_same rfl rfl rfl rfl rfl
    rw [if_neg missing, unified]
    exact below.apply_to assertion _

theorem step (tallied : Tallied proof errors unfinished run) (instruction : Instruction)
    (stepped : run.step t checkDisjoint instruction = .ok next) :
    Tallied proof (errors ++ if run.errs t checkDisjoint instruction then [run.formulas.length] else [])
      (unfinished || Proof.isIncomplete [instruction]) next := by
  cases instruction with
  | unknown =>
      cases stepped
      have worse : (verdictOf errors unfinished).worse .incomplete = verdictOf errors true := by
        cases errors <;> cases unfinished <;> rfl
      have opened : (unfinished || Proof.isIncomplete [.unknown]) = true := Bool.or_true _
      have fine : ¬ run.errs t checkDisjoint .unknown = true := Bool.false_ne_true
      rw [opened, if_neg fine, List.append_nil]
      exact ⟨tallied.runs, tallied.counted, tallied.issues, tallied.reported,
        (congrArg (Severity.worse · .incomplete) tallied.verdict).trans worse⟩
  | reuse target =>
      have closed : (unfinished || Proof.isIncomplete [.reuse target]) = unfinished := Bool.or_false _
      simp only [Run.step] at stepped
      split at stepped
      · have fine : ¬ run.errs t checkDisjoint (.reuse target) = true := Bool.false_ne_true
        cases stepped
        rw [closed, if_neg fine, List.append_nil]
        exact tallied.of_same rfl rfl rfl rfl rfl
      · cases stepped
  | reference id =>
      have closed : (unfinished || Proof.isIncomplete [.reference id]) = unfinished := Bool.or_false _
      simp only [Run.step] at stepped
      rw [closed, errs]
      split at stepped
      · cases stepped
      · rename_i s found
        rw [found, Option.any_some]
        split at stepped
        · rename_i hypothesis
          have plain := s.hypothesis_not_assertion hypothesis
          cases stepped
          rw [plain, Bool.false_and, if_neg Bool.false_ne_true, List.append_nil]
          exact tallied.of_same rfl rfl rfl rfl rfl
        · split at stepped
          · rename_i asserted
            cases stepped
            rw [asserted, Bool.true_and]
            exact tallied.apply_assertion s
          · cases stepped
  | invalid kind => cases stepped

theorem finish (tallied : Tallied proof errors unfinished run) (sane : run.Sane t)
    (complete : run.formulas.length = proof.length) (nonempty : proof ≠ []) :
    Tallied proof (errors ++ if run.misses then [run.formulas.length - 1] else []) unfinished
      (run.finish t) := by
  unfold Run.finish
  dsimp only
  by_cases opened : (run.formulas.getLast?.getD []).isUnknown = true
  · have fine : ¬ run.misses = true := by simp [misses, opened]
    have flawed : run.verdict ≠ .ok := by
      intro clean
      have filled : run.formulas ≠ [] := by
        intro none
        rw [none] at complete
        exact nonempty (List.length_eq_zero_iff.mp complete.symm)
      have last := List.getLast?_eq_some_getLast filled
      rw [last, Option.getD_some, Formula.isUnknown, List.isEmpty_iff] at opened
      exact sane.closed clean _ (List.getLast_mem filled) opened
    have worse : (verdictOf errors unfinished).worse .incomplete = verdictOf errors unfinished := by
      rw [tallied.verdict] at flawed
      cases errors <;> cases unfinished <;> first | rfl | exact absurd rfl flawed
    rw [if_pos opened, if_neg fine, List.append_nil]
    exact ⟨tallied.runs, tallied.counted, tallied.issues, tallied.reported,
      (congrArg (Severity.worse · .incomplete) tallied.verdict).trans worse⟩
  · rw [if_neg opened]
    by_cases same : run.formulas.getLast?.getD [] = run.owner.formula
    · have fine : ¬ run.misses = true := by simp [misses, same]
      rw [if_pos same, if_neg fine, List.append_nil]
      exact tallied
    · have missed : run.misses = true := by simp [misses, same, opened]
      rw [if_neg same, if_pos missed, tallied.runs, complete]
      exact tallied.fail ..

theorem verdict_error_iff (tallied : Tallied proof errors unfinished run) :
    run.verdict = .error ↔ 0 < run.errorCount := by
  rw [tallied.verdict, tallied.counted]
  cases errors <;> cases unfinished <;> simp [verdictOf]

theorem verdict_incomplete_iff (tallied : Tallied proof errors unfinished run) :
    run.verdict = .incomplete ↔ run.errorCount = 0 ∧ unfinished = true := by
  rw [tallied.verdict, tallied.counted]
  cases errors <;> cases unfinished <;> simp [verdictOf]

theorem verdict_ok_iff (tallied : Tallied proof errors unfinished run) :
    run.verdict = .ok ↔ run.errorCount = 0 ∧ unfinished = false := by
  rw [tallied.verdict, tallied.counted]
  cases errors <;> cases unfinished <;> simp [verdictOf]

theorem issue_count (tallied : Tallied proof errors unfinished run) :
    run.issues.length = min 1 run.errorCount := by
  have lengths := congrArg List.length tallied.issues
  simpa [tallied.counted] using lengths

theorem issue_first (tallied : Tallied proof errors unfinished run)
    (ascending : errors.Pairwise (· < ·)) :
    ∀ issue ∈ run.issues, ∃ step ∈ errors, issue.step = step ∧ ∀ other ∈ errors, step ≤ other := by
  intro issue member
  have steps := List.mem_map_of_mem (f := Issue.step) member
  rw [tallied.issues] at steps
  cases errors with
  | nil => cases steps
  | cons earliest others =>
      refine ⟨earliest, List.mem_cons_self, by simpa using steps, ?_⟩
      intro other present
      rcases List.mem_cons.mp present with rfl | later
      · exact Nat.le_refl _
      · exact Nat.le_of_lt ((List.pairwise_cons.mp ascending).1 other later)

end Tallied

theorem run_tallied {t : Table} {checkDisjoint : Bool} (coherent : t.Coherent) (whole rest : Proof)
    (errors : List Nat) (unfinished : Bool) (run final : Run) (tallied : Tallied whole errors unfinished run)
    (sane : run.Sane t) (nonempty : whole ≠ []) (complete : final.formulas.length = whole.length)
    (ran : rest.foldlM (step t checkDisjoint) run = .ok final) :
    Tallied whole (errors ++ errorSteps t checkDisjoint run rest) (unfinished || rest.isIncomplete)
      (final.finish t) := by
  induction rest generalizing run errors unfinished with
  | nil =>
      cases ran
      simpa [errorSteps, Proof.isIncomplete] using tallied.finish sane complete nonempty
  | cons instruction rest ih =>
      rw [List.foldlM_cons, bind_ok] at ran
      obtain ⟨next, stepped, others⟩ := ran
      have onward := ih _ _ next (tallied.step instruction stepped) (step_sane coherent sane stepped) others
      simpa [errorSteps, stepped, Proof.isIncomplete, Bool.or_assoc] using onward

section Order

variable {t : Table} {checkDisjoint : Bool} {run next : Run}

theorem push_open_misses (base : Run) : (base.push []).misses = false := by
  simp [misses, push, Formula.isUnknown]

theorem apply_assertion_rejected (assertion : Statement)
    (rejected : run.rejects t checkDisjoint assertion = true) :
    (run.applyAssertion t checkDisjoint assertion).misses = false := by
  unfold applyAssertion
  dsimp only
  by_cases missing : run.stack.length < assertion.frame.required.length
  · rw [if_pos missing]
    exact push_open_misses _
  · simp only [rejects, missing, decide_false, Bool.false_or] at rejected
    obtain ⟨error, failed⟩ := Option.isSome_iff_exists.mp rejected
    have below : (({ run with stack := run.stack.drop assertion.frame.required.length }.applicationOf t
        assertion (run.stack.take assertion.frame.required.length).reverse).unify t checkDisjoint).error =
        some error := failed
    rw [if_neg missing]
    simp only [applyTo, below]
    exact push_open_misses _

-- A step with an error has an open formula, so the end of the run finds no second error in it.
theorem step_errs (instruction : Instruction) (wrong : run.errs t checkDisjoint instruction = true)
    (stepped : run.step t checkDisjoint instruction = .ok next) : next.misses = false := by
  cases instruction with
  | reference id =>
      simp only [errs, Option.any_eq_true, Bool.and_eq_true] at wrong
      obtain ⟨s, found, asserted, rejected⟩ := wrong
      simp only [Run.step, found, s.assertion_not_hypothesis asserted, asserted, Bool.false_eq_true, if_false,
        if_true] at stepped
      cases stepped
      exact apply_assertion_rejected s rejected
  | _ => cases wrong

theorem mem_error_steps (instruction : Instruction) (rest : Proof) (step : Nat) :
    step ∈ errorSteps t checkDisjoint run (instruction :: rest) ↔
      run.errs t checkDisjoint instruction = true ∧ step = run.formulas.length ∨
        ∃ next, run.step t checkDisjoint instruction = .ok next ∧
          step ∈ errorSteps t checkDisjoint next rest := by
  simp only [errorSteps]
  cases run.step t checkDisjoint instruction <;> simp

theorem error_steps_from (rest : Proof) :
    ∀ step ∈ errorSteps t checkDisjoint run rest, run.formulas.length ≤ step + 1 := by
  induction rest generalizing run with
  | nil =>
      intro step member
      simp only [errorSteps, List.mem_ite_nil_right, List.mem_singleton] at member
      omega
  | cons instruction rest ih =>
      intro step member
      rcases (mem_error_steps instruction rest step).mp member with ⟨_, rfl⟩ | ⟨next, stepped, later⟩
      · exact Nat.le_succ _
      · have length := step_length t checkDisjoint run next instruction stepped
        have bound := ih step later
        omega

theorem error_steps_behind (instruction : Instruction) (rest : Proof)
    (wrong : run.errs t checkDisjoint instruction = true)
    (stepped : run.step t checkDisjoint instruction = .ok next) :
    ∀ step ∈ errorSteps t checkDisjoint next rest, run.formulas.length < step := by
  intro step member
  have length := step_length t checkDisjoint run next instruction stepped
  cases rest with
  | nil =>
      rw [errorSteps, step_errs instruction wrong stepped, if_neg Bool.false_ne_true] at member
      cases member
  | cons second others =>
      rcases (mem_error_steps second others step).mp member with ⟨_, rfl⟩ | ⟨after, onward, later⟩
      · omega
      · have further := step_length t checkDisjoint next after second onward
        have bound := error_steps_from others step later
        omega

theorem error_steps_ascending (rest : Proof) :
    (errorSteps t checkDisjoint run rest).Pairwise (· < ·) := by
  induction rest generalizing run with
  | nil =>
      rw [errorSteps]
      split <;> simp
  | cons instruction rest ih =>
      simp only [errorSteps]
      cases stepped : run.step t checkDisjoint instruction with
      | error failure =>
          dsimp only
          split <;> simp
      | ok next =>
          dsimp only
          by_cases wrong : run.errs t checkDisjoint instruction = true
          · rw [if_pos wrong, List.singleton_append]
            exact List.pairwise_cons.mpr ⟨error_steps_behind instruction rest wrong stepped, ih⟩
          · rw [if_neg wrong]
            exact ih

end Order

end Run

section Outcomes

variable {t : Table} {checkDisjoint : Bool} {inspected : Int} {owner : Statement} {proof : Proof} {run : Run}

theorem verify_proof_tallied (coherent : t.Coherent)
    (ran : verifyProof t checkDisjoint inspected owner proof = .ok run) :
    run.formulas.length = proof.length ∧
      run.Tallied proof (Run.errorSteps t checkDisjoint
        { owner, proof, inspection := inspectionOf proof inspected } proof) proof.isIncomplete := by
  obtain ⟨nonempty, final, finished, rfl⟩ := (verify_proof_ok ..).mp ran
  have complete : final.formulas.length = proof.length := by
    simpa using Run.run_length proof _ final finished
  refine ⟨by rw [Run.finish_formulas, complete], ?_⟩
  simpa using Run.run_tallied coherent proof proof [] false _ final ⟨rfl, rfl, rfl, rfl, rfl⟩
    ⟨by simp, by simp, by simp⟩ nonempty complete finished

theorem verify_proof_proved (coherent : t.Coherent)
    (ran : verifyProof t checkDisjoint inspected owner proof = .ok run) (fine : run.verdict = .ok) :
    (∀ formula ∈ run.formulas, formula ≠ []) ∧ run.formulas.getLast? = some owner.formula := by
  obtain ⟨_, final, finished, rfl⟩ := (verify_proof_ok ..).mp ran
  obtain ⟨unchanged, last⟩ := final.finish_ok fine
  have sane := Run.run_sane coherent proof _ final ⟨by simp, by simp, by simp⟩ finished
  have same : final.owner = owner := Run.run_owner proof _ final finished
  rw [unchanged] at fine ⊢
  exact ⟨sane.closed fine, same ▸ last⟩

end Outcomes

-- The errors of a run are those at its steps and the one of its last formula. They decide the verdict,
-- together with the open steps of the proof.
theorem verdict_meaning (name : String) (declarations : List Declaration) (t : Table)
    (built : Table.build name declarations = .ok t) (owner : Statement) (proved : owner ∈ t.theorems)
    (checkDisjoint : Bool) (inspected : Int) :
    ∃ run, verify t checkDisjoint inspected owner = .ok run ∧ run.reported = run.issues ∧
      (∀ error, Proof.decode t owner owner.proof = .error error →
        run.verdict = .severe ∧ run.issues.length = 1 ∧ run.proof = [] ∧ run.formulas = [] ∧
          run.errorCount = 0) ∧
      ∀ proof, Proof.decode t owner owner.proof = .ok proof →
        run.proof = proof ∧ run.formulas.length = proof.length ∧
        (run.verdict = .error ↔ 0 < run.errorCount) ∧ (0 < run.errorCount ↔ run.issues.length = 1) ∧
        (run.verdict = .incomplete ↔ run.errorCount = 0 ∧ .unknown ∈ proof) ∧
        (run.verdict = .ok ↔ run.errorCount = 0 ∧ .unknown ∉ proof) ∧
        (run.verdict = .ok → (∀ formula ∈ run.formulas, formula ≠ []) ∧
          run.formulas.getLast? = some owner.formula) ∧
        run.issues.length + run.suppressed = run.errorCount ∧
        ∃ errors, errors = Run.errorSteps t checkDisjoint
            { owner, proof, inspection := inspectionOf proof inspected } proof ∧
          errors.Pairwise (· < ·) ∧ run.errorCount = errors.length ∧
          ∀ issue ∈ run.issues, ∃ step ∈ errors, issue.step = step ∧ ∀ other ∈ errors, step ≤ other := by
  have coherent := Table.build_coherent name declarations t built
  obtain ⟨run, verified⟩ := verify_returns coherent proved checkDisjoint inspected
  have kind : owner.kind = .proved := by simpa using (List.mem_filter.mp proved).2
  refine ⟨run, verified, ?_⟩
  simp only [verify, kind, ne_eq, not_true_eq_false, if_false] at verified
  cases decoded : Proof.decode t owner owner.proof with
  | error error =>
      rw [decoded] at verified
      cases verified
      refine ⟨rfl, fun _ _ => ⟨rfl, rfl, rfl, rfl, rfl⟩, ?_⟩
      intro proof same
      cases same
  | ok proof =>
      rw [decoded] at verified
      obtain ⟨complete, tallied⟩ := verify_proof_tallied coherent verified
      have count := tallied.issue_count
      have opened : .unknown ∈ proof ↔ proof.isIncomplete = true := by simp [Proof.isIncomplete]
      refine ⟨tallied.reported, fun _ failed => absurd failed (by simp), ?_⟩
      intro other same
      cases same
      refine ⟨tallied.runs, complete, tallied.verdict_error_iff, by omega, ?_, ?_,
        verify_proof_proved coherent verified, ?_, _, rfl, Run.error_steps_ascending proof, tallied.counted,
        tallied.issue_first (Run.error_steps_ascending proof)⟩
      · rw [opened]
        exact tallied.verdict_incomplete_iff
      · rw [opened, Bool.not_eq_true]
        exact tallied.verdict_ok_iff
      · unfold Run.suppressed
        omega

def flawedDeclarations : List Declaration :=
  sampleDeclarations ++ [.proved "flawed" "|- x = y" ⟨["wx", "wy", "hx"], [], [["x", "y"]]⟩ "rule rule hx"]

def flawedTable : Table := (Table.build "flawed" flawedDeclarations).toOption.getD { name := "flawed" }

def flawedTheorem : Statement := (flawedTable.statement 9).getD ⟨9, "", .constantList, [], {}, ""⟩

theorem verdict_meaning_sample :
    flawedTheorem ∈ flawedTable.theorems ∧
      Proof.decode flawedTable flawedTheorem "rule rule hx" = .ok [.reference 6, .reference 6, .reference 4] ∧
      ∃ run, verify flawedTable true (-1) flawedTheorem = .ok run ∧ run.verdict = .error ∧
        run.errorCount = 3 ∧ run.issues.length = 1 ∧ ∀ issue ∈ run.issues, issue.step = 0 := by
  have proved : flawedTheorem ∈ flawedTable.theorems := by decide
  have decoded : Proof.decode flawedTable flawedTheorem flawedTheorem.proof =
      .ok [.reference 6, .reference 6, .reference 4] := rfl
  obtain ⟨run, verified, _, _, meaning⟩ := verdict_meaning "flawed" flawedDeclarations flawedTable rfl
    flawedTheorem proved true (-1)
  obtain ⟨_, _, error, single, _, _, _, _, errors, same, _, counted, first⟩ := meaning _ decoded
  have steps : errors = [0, 1, 2] := same
  subst steps
  have failing : 0 < run.errorCount := counted ▸ Nat.succ_pos _
  refine ⟨proved, decoded, run, verified, error.mpr failing, counted, single.mp failing, ?_⟩
  intro issue member
  obtain ⟨step, _, own, least⟩ := first issue member
  rw [own, Nat.le_zero.mp (least 0 (by decide))]
  rfl

end Lemmata
