import Lemmata.Proofs.Applications
import Lemmata.Proofs.Fingerprints
import Lemmata.Proofs.Runnable

/-!
Issues about disjoint variables. A run reports its first error only, so such an issue comes from a step
before which there was no error. Its suggestion names two variables that the theorem does not keep apart,
and from the text of the suggestion the two names can be read back.
-/

set_option autoImplicit false

namespace Lemmata

def Statement.Forbids (t : Table) (owner : Statement) (x y : Symbol) : Prop :=
  t.isVariable x = true ∧ t.isVariable y = true ∧ (x = y ∨ owner.frame.allowsDisjoint x y = false)

def disjointAdvice (label x y : String) : String :=
  "declare [" ++ x ++ ", " ++ y ++ "] under disjoint of " ++ label

def Statement.Advised (t : Table) (owner : Statement) (suggestion : String) : Prop :=
  ∃ x y, owner.Forbids t x y ∧ suggestion = if t.symbolName x = t.symbolName y then ""
    else disjointAdvice owner.label (t.symbolName x) (t.symbolName y)

def Issue.Suggests (issue : Issue) (x y : String) : Prop :=
  issue.rule = Rule.disjointViolation ∧ issue.suggestion = disjointAdvice issue.label x y

namespace Application

variable {t : Table} {checkDisjoint : Bool} {app : Application}

theorem clash_forbidden (owner : Statement) (left right : Formula) (x y : Symbol)
    (found : clash t owner left right = some (x, y)) : owner.Forbids t x y := by
  have member := List.mem_of_find?_eq_some found
  have failed := List.find?_some found
  simp only [List.mem_flatMap, List.mem_map, List.mem_filter, Prod.mk.injEq] at member
  obtain ⟨_, ⟨_, xVar⟩, _, ⟨_, yVar⟩, rfl, rfl⟩ := member
  exact ⟨xVar, yVar, by simpa using failed⟩

theorem disjoint_error_advised (subst : Substitution) (error : UnifyError)
    (clashes : app.disjointError t subst = some error) : app.owner.Advised t error.suggestion := by
  obtain ⟨pair, _, found⟩ := List.exists_of_findSome?_eq_some clashes
  simp only [pairError, Option.bind_eq_bind, Option.bind_eq_some_iff, pure, Option.some.injEq] at found
  obtain ⟨left, _, right, _, ⟨x, y⟩, clash, rfl⟩ := found
  exact ⟨x, y, clash_forbidden app.owner left right x y clash, rfl⟩

theorem unify_advised (error : UnifyError) (failed : (app.unify t checkDisjoint).error = some error)
    (rule : error.rule = Rule.disjointViolation) : app.owner.Advised t error.suggestion := by
  have mismatched : error ≠ app.mismatch t := by
    rintro rfl
    have advice := congrArg Prod.fst (app.mismatch_advice (t := t))
    exact absurd (advice.symm.trans rule) (by decide)
  revert failed
  unfold unify
  dsimp only
  split
  · split
    · simp
    · exact fun failed => absurd (Option.some.inj failed).symm mismatched
  · split
    · simp
    · intro failed
      obtain rfl := Option.some.inj failed
      exact absurd (show Rule.ambiguousUnification = Rule.disjointViolation from rule) (by decide)
  · rename_i subst _
    split
    · rename_i found clashes
      intro failed
      obtain rfl := Option.some.inj failed
      cases checkDisjoint with
      | true => exact disjoint_error_advised subst found clashes
      | false => cases clashes
    · split
      · simp
      · split
        · simp
        · exact fun failed => absurd (Option.some.inj failed).symm mismatched

end Application

namespace Run

variable {t : Table} {checkDisjoint : Bool} {run next : Run} {instruction : Instruction}

-- The record of errors is left alone, or one error is counted at the step.
inductive Records (t : Table) (run next : Run) : Prop
  | silent (counted : next.errorCount = run.errorCount) (issues : next.issues = run.issues)
  | failed (rule applied message suggestion : String) (counted : next.errorCount = run.errorCount + 1)
      (issues : next.issues = (run.fail t rule run.formulas.length applied message suggestion).issues)
      (advised : rule = Rule.disjointViolation → run.owner.Advised t suggestion)

section Failing

variable (rule : String) (step : Nat) (applied message suggestion : String)

theorem fail_counted : (run.fail t rule step applied message suggestion).errorCount = run.errorCount + 1 := by
  unfold fail
  split <;> rfl

theorem fail_again (failing : 0 < run.errorCount) :
    (run.fail t rule step applied message suggestion).issues = run.issues := by
  rw [fail, if_pos failing]

theorem fail_first (clean : run.errorCount = 0) (issue : Issue)
    (member : issue ∈ (run.fail t rule step applied message suggestion).issues) : issue ∈ run.issues ∨
      issue.rule = rule ∧ issue.step = step ∧ issue.label = run.owner.label ∧ issue.suggestion = suggestion := by
  rw [fail, if_neg (by omega)] at member
  simp only [report, List.mem_append, List.mem_singleton] at member
  rcases member with old | rfl
  · exact Or.inl old
  · exact Or.inr ⟨rfl, rfl, rfl, rfl⟩

end Failing

theorem apply_to_records (assertion : Statement) (operands : List Nat) :
    Records t run (run.applyTo t checkDisjoint assertion operands) := by
  unfold applyTo
  dsimp only
  split
  · exact .silent rfl rfl
  · rename_i error failed
    refine .failed error.rule assertion.label error.message error.suggestion (fail_counted ..) ?_
      (Application.unify_advised error failed)
    simp only [push, fail]
    split <;> rfl

theorem step_records (stepped : run.step t checkDisjoint instruction = .ok next) : Records t run next := by
  cases step_performs stepped with
  | opened => exact .silent rfl rfl
  | reused target inside => exact .silent rfl rfl
  | hypothesis id h found supposed => exact .silent rfl rfl
  | missing id s message found asserted few =>
      exact .failed Rule.stackUnderflow s.label message "" (fail_counted ..) rfl fun same =>
        absurd same (by decide)
  | applied id s found asserted enough =>
      cases apply_to_records (t := t) s (run.stack.take s.frame.required.length).reverse with
      | silent counted issues => exact .silent counted issues
      | failed rule applied message suggestion counted issues advised =>
          refine .failed rule applied message suggestion counted (issues.trans ?_) advised
          unfold fail
          split <;> rfl

theorem run_reported (proof : Proof) (start final : Run) (failing : 0 < start.errorCount)
    (finished : proof.foldlM (step t checkDisjoint) start = .ok final) :
    0 < final.errorCount ∧ final.issues = start.issues := by
  refine foldl_m_invariant (step t checkDisjoint)
    (fun run => 0 < run.errorCount ∧ run.issues = start.issues) ?_ proof start final ⟨failing, rfl⟩ finished
  rintro run instruction next ⟨positive, same⟩ stepped
  cases step_records stepped with
  | silent counted issues => exact ⟨counted ▸ positive, issues.trans same⟩
  | failed rule applied message suggestion counted issues _ =>
      exact ⟨by omega, issues.trans ((fail_again _ _ _ _ _ positive).trans same)⟩

theorem run_clean (proof : Proof) (start final : Run)
    (finished : proof.foldlM (step t checkDisjoint) start = .ok final) (clean : final.errorCount = 0) :
    start.errorCount = 0 := by
  by_contra failing
  have positive := (run_reported proof start final (Nat.pos_of_ne_zero failing) finished).1
  omega

theorem front_length {proof : Proof} {start before : Run} {count : Nat} (inside : count < proof.length)
    (front : (proof.take count).foldlM (step t checkDisjoint) start = .ok before) :
    before.formulas.length = start.formulas.length + count := by
  rw [run_length _ start before front, List.length_take, Nat.min_eq_left (Nat.le_of_lt inside)]

theorem run_issue (proof : Proof) (start final : Run) (clean : start.errorCount = 0)
    (silent : start.issues = []) (finished : proof.foldlM (step t checkDisjoint) start = .ok final) (issue : Issue)
    (member : issue ∈ final.issues) :
    ∃ count before, count < proof.length ∧
      (proof.take count).foldlM (step t checkDisjoint) start = .ok before ∧ before.errorCount = 0 ∧
      issue.step = before.formulas.length ∧ issue.label = start.owner.label ∧
      (issue.rule = Rule.disjointViolation → start.owner.Advised t issue.suggestion) := by
  induction proof generalizing start with
  | nil =>
      cases finished
      rw [silent] at member
      cases member
  | cons instruction rest ih =>
      rw [List.foldlM_cons, bind_ok] at finished
      obtain ⟨next, stepped, others⟩ := finished
      have owner := (step_stepped stepped).owner
      cases step_records stepped with
      | silent counted issues =>
          obtain ⟨count, before, inside, front, fine, step, label, advised⟩ :=
            ih next (counted.trans clean) (issues.trans silent) others
          refine ⟨count + 1, before, Nat.succ_lt_succ inside, ?_, fine, step, owner ▸ label, owner ▸ advised⟩
          rw [List.take_succ_cons, List.foldlM_cons, stepped]
          exact front
      | failed rule applied message suggestion counted issues advised =>
          rw [(run_reported rest next final (by omega) others).2, issues] at member
          rcases fail_first _ _ _ _ _ clean issue member with old | ⟨sameRule, step, label, advice⟩
          · rw [silent] at old
            cases old
          · refine ⟨0, start, Nat.succ_pos _, rfl, clean, step, label, fun violation => ?_⟩
            rw [advice]
            exact advised (sameRule ▸ violation)

theorem finish_issue (issue : Issue) (member : issue ∈ (run.finish t).issues)
    (violation : issue.rule = Rule.disjointViolation) : issue ∈ run.issues := by
  unfold finish at member
  dsimp only at member
  split at member
  · exact member
  · split at member
    · exact member
    · by_cases failing : 0 < run.errorCount
      · rwa [fail_again _ _ _ _ _ failing] at member
      · refine (fail_first _ _ _ _ _ (by omega) issue member).resolve_right ?_
        rintro ⟨rule, _⟩
        exact absurd (rule.symm.trans violation) (by decide)

end Run

section Reading

-- The first two texts may have spaces, but then the other side would have another one.
theorem spaced_parts (left right first second : String) (firstFree : ' ' ∉ first.toList)
    (secondFree : ' ' ∉ second.toList) (same : left ++ ", " ++ right = first ++ ", " ++ second) :
    left = first ∧ right = second := by
  have chars := congrArg String.toList same
  simp only [String.toList_append, List.append_assoc] at chars
  have spaces := congrArg (List.count ' ') chars
  have comma : ", ".toList = [',', ' '] := rfl
  simp only [comma, List.count_append, List.count_eq_zero_of_not_mem firstFree,
    List.count_eq_zero_of_not_mem secondFree] at spaces
  have leftFree : ' ' ∉ left.toList := List.count_eq_zero.mp (by omega)
  have shape : (left.toList ++ [',']) ++ ' ' :: right.toList =
      (first.toList ++ [',']) ++ ' ' :: second.toList := by
    simpa [comma] using chars
  obtain ⟨names, rests⟩ := separated_parts ' ' _ _ _ _ (by simpa using leftFree) (by simpa using firstFree) shape
  exact ⟨String.toList_inj.mp (List.append_cancel_right names), String.toList_inj.mp rests⟩

variable {t : Table} {owner : Statement}

theorem advised_names (ordered : t.Ordered) (x y : String)
    (advised : owner.Advised t (disjointAdvice owner.label x y)) :
    ∃ u v, t.symbolName u = x ∧ t.symbolName v = y ∧ x ≠ y ∧ owner.Forbids t u v := by
  obtain ⟨u, v, forbids, text⟩ := advised
  have spaceless : ∀ w, t.isVariable w = true → ' ' ∉ (t.symbolName w).toList := fun w var =>
    symbol_name_spaceless _ (declared_name_valid ordered w (t.variable_declared w var))
  by_cases same : t.symbolName u = t.symbolName v
  · rw [if_pos same] at text
    have chars := congrArg String.toList text
    simp [disjointAdvice] at chars
  · rw [if_neg same] at text
    simp only [disjointAdvice, String.append_left_inj] at text
    simp only [String.append_assoc, String.append_right_inj] at text
    rw [← String.append_assoc, ← String.append_assoc] at text
    obtain ⟨rfl, rfl⟩ := spaced_parts x y _ _ (spaceless u forbids.1) (spaceless v forbids.2.1) text
    exact ⟨u, v, rfl, rfl, same, forbids⟩

theorem advised_apart (coherent : t.Coherent) (ordered : t.Ordered) (x y : Symbol) (xVar : t.isVariable x = true)
    (yVar : t.isVariable y = true)
    (advised : owner.Advised t (disjointAdvice owner.label (t.symbolName x) (t.symbolName y))) :
    x ≠ y ∧ owner.frame.allowsDisjoint x y = false := by
  obtain ⟨u, v, first, second, apart, uVar, vVar, forbids⟩ := advised_names ordered _ _ advised
  obtain rfl : u = x :=
    symbol_name_injective coherent u x (t.variable_declared u uVar) (t.variable_declared x xVar) first
  obtain rfl : v = y :=
    symbol_name_injective coherent v y (t.variable_declared v vVar) (t.variable_declared y yVar) second
  have different : u ≠ v := fun same => apart (congrArg t.symbolName same)
  exact ⟨different, forbids.resolve_left different⟩

end Reading

section Outcomes

variable {t : Table} {checkDisjoint : Bool} {inspected : Int} {owner : Statement} {run : Run} {issue : Issue}

theorem verify_violation (verified : verify t checkDisjoint inspected owner = .ok run)
    (member : issue ∈ run.issues) (violation : issue.rule = Rule.disjointViolation) :
    ∃ proof count before, Proof.decode t owner owner.proof = .ok proof ∧ count < proof.length ∧
      (proof.take count).foldlM (Run.step t checkDisjoint)
        { owner, proof, inspection := inspectionOf proof inspected } = .ok before ∧
      before.errorCount = 0 ∧ issue.step = count ∧ issue.label = owner.label ∧
      owner.Advised t issue.suggestion := by
  unfold verify at verified
  split at verified
  · cases verified
  · split at verified
    · rename_i error _
      cases verified
      obtain rfl := List.mem_singleton.mp member
      exact absurd (show Rule.decodeError = Rule.disjointViolation from violation) (by decide)
    · rename_i proof decoded
      obtain ⟨_, final, finished, rfl⟩ := (verify_proof_ok ..).mp verified
      obtain ⟨count, before, inside, front, clean, step, label, advised⟩ := Run.run_issue proof _ final rfl rfl
        finished issue (Run.finish_issue issue member violation)
      have length := Run.front_length inside front
      exact ⟨proof, count, before, decoded, inside, front, clean, by rw [step, length, List.length_nil, Nat.zero_add],
        label, advised violation⟩

theorem verify_suggests (verified : verify t checkDisjoint inspected owner = .ok run)
    (member : issue ∈ run.issues) (x y : String) (suggests : issue.Suggests x y) :
    owner.Advised t (disjointAdvice owner.label x y) := by
  obtain ⟨_, _, _, _, _, _, _, _, label, advised⟩ := verify_violation verified member suggests.1
  rwa [suggests.2, label] at advised

end Outcomes

end Lemmata
