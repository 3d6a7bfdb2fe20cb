import Lemmata.Proofs.Unfinished

/-!
A proof and its expansion have the same verdict. What the instructions of an expansion do depends on the
formulas on the stack and on the verdict only. As long as every step finds its operands, the steps of a
subproof put the same formulas on every stack, so the subproof can stand for each reuse of its last step;
and behind a step that does not find them the verdict stays an error.
-/

set_option autoImplicit false

namespace Lemmata

namespace Application

structure Same (app twin : Application) : Prop where
  patterns : app.patterns = twin.patterns
  instances : app.instances = twin.instances
  unknownOperand : app.unknownOperand = twin.unknownOperand
  conclusion : app.assertion.formula = twin.assertion.formula
  disjoint : app.assertion.frame.disjoint = twin.assertion.frame.disjoint
  owner : app.owner.frame = twin.owner.frame

variable {t : Table} {app twin : Application}

theorem Same.pair_error (same : app.Same twin) (subst : Substitution) (pair : Pair) :
    (app.pairError t subst pair).isSome = (twin.pairError t subst pair).isSome := by
  have apart : clash t app.owner = clash t twin.owner := by
    funext left right
    simp only [clash, same.owner]
  unfold pairError
  cases subst.lookup pair.a with
  | none => rfl
  | some left =>
      cases subst.lookup pair.b with
      | none => rfl
      | some right =>
          simp only [Option.bind_eq_bind, Option.bind_some, apart]
          cases clash t twin.owner left right <;> rfl

theorem Same.disjoint_error (same : app.Same twin) (subst : Substitution) :
    (app.disjointError t subst).isSome = (twin.disjointError t subst).isSome := by
  rw [Bool.eq_iff_iff]
  simp only [disjointError, same.disjoint, List.findSome?_isSome_iff, same.pair_error subst]

theorem Same.unify (same : app.Same twin) (checkDisjoint : Bool) :
    (app.unify t checkDisjoint).formula = (twin.unify t checkDisjoint).formula ∧
      (app.unify t checkDisjoint).error.isSome = (twin.unify t checkDisjoint).error.isSome := by
  have known : app.known = twin.known := by
    simp only [Application.known, same.patterns, same.instances, same.unknownOperand]
  have apart : ∀ subst, (if checkDisjoint then app.disjointError t subst else none).isSome =
      (if checkDisjoint then twin.disjointError t subst else none).isSome := by
    intro subst
    cases checkDisjoint with
    | true => exact same.disjoint_error subst
    | false => rfl
  simp only [Application.unify, known, same.unknownOperand, same.conclusion]
  cases (Matching.solve t 2 (twin.known.map Prod.fst) (twin.known.map Prod.snd)).solutions with
  | nil => cases twin.unknownOperand <;> exact ⟨rfl, rfl⟩
  | cons subst others =>
      cases others with
      | cons second rest => cases twin.unknownOperand <;> exact ⟨rfl, rfl⟩
      | nil =>
          have both := apart subst
          dsimp only
          revert both
          generalize (if checkDisjoint then app.disjointError t subst else none) = own
          generalize (if checkDisjoint then twin.disjointError t subst else none) = foreign
          intro both
          cases own with
          | some error =>
              cases foreign with
              | some second => exact ⟨rfl, rfl⟩
              | none => cases both
          | none =>
              cases foreign with
              | some second => cases both
              | none =>
                  cases subst.apply t twin.assertion.formula with
                  | some formula => exact ⟨rfl, rfl⟩
                  | none => cases twin.unknownOperand <;> exact ⟨rfl, rfl⟩

end Application

-- What a run leaves to the instructions behind it: the formulas on the stack, the top first, and the
-- verdict so far.
structure Stage where
  held : List Formula := []
  verdict : Severity := .ok

def Run.stage (run : Run) : Stage := ⟨run.stack.map run.formulaAt, run.verdict⟩

namespace Stage

def application (t : Table) (owner assertion : Statement) (operands : List Formula) : Application where
  assertion := assertion
  owner := owner
  step := 0
  patterns := assertion.frame.required.map t.formulaOf
  instances := operands
  unknownOperand := operands.any Formula.isUnknown

def conclude (t : Table) (checkDisjoint : Bool) (owner assertion : Statement) (operands : List Formula) :
    Option Formula :=
  let unified := (application t owner assertion operands).unify t checkDisjoint
  if unified.error.isSome then none else some unified.formula

def apply (t : Table) (checkDisjoint : Bool) (owner : Statement) (stage : Stage) (assertion : Statement) :
    Stage :=
  let count := assertion.frame.required.length
  if stage.held.length < count then ⟨[[]], stage.verdict.worse .error⟩
  else
    match conclude t checkDisjoint owner assertion (stage.held.take count).reverse with
    | some formula => ⟨formula :: stage.held.drop count, stage.verdict⟩
    | none => ⟨[] :: stage.held.drop count, stage.verdict.worse .error⟩

def perform (t : Table) (checkDisjoint : Bool) (owner : Statement) (stage : Stage) : Instruction → Stage
  | .unknown => ⟨[] :: stage.held, stage.verdict.worse .incomplete⟩
  | .reference id =>
      match t.statement id with
      | some s =>
          if s.isHypothesis then ⟨s.formula :: stage.held, stage.verdict⟩
          else stage.apply t checkDisjoint owner s
      | none => stage
  | _ => stage

def settle (owner : Statement) (stage : Stage) : Severity :=
  let final := stage.held.head?.getD []
  if final.isUnknown then stage.verdict.worse .incomplete
  else if final = owner.formula then stage.verdict
  else stage.verdict.worse .error

end Stage

namespace Run

variable {t : Table} {checkDisjoint : Bool} {run next : Run}

theorem push_stage (base : Run) (formula : Formula)
    (bounded : ∀ step ∈ base.stack, step < base.formulas.length) :
    (base.push formula).stage = ⟨formula :: base.stage.held, base.verdict⟩ := by
  have kept : base.stack.map (base.push formula).formulaAt = base.stack.map base.formulaAt := by
    apply List.map_congr_left
    intro step member
    exact base.formula_at_prefix (base.push formula) (List.prefix_append _ _) step (bounded step member)
  have held : (base.push formula).stage.held =
      (base.push formula).formulaAt base.formulas.length :: base.stack.map (base.push formula).formulaAt := rfl
  have verdict : (base.push formula).stage.verdict = base.verdict := rfl
  rw [base.formula_at_last, kept] at held
  exact congrArg₂ Stage.mk held verdict

theorem application_concludes (assertion : Statement) (operands : List Nat) :
    Stage.conclude t checkDisjoint run.owner assertion (operands.map run.formulaAt) =
      if ((run.applicationOf t assertion operands).unify t checkDisjoint).error.isSome then none
      else some ((run.applicationOf t assertion operands).unify t checkDisjoint).formula := by
  have same : (Stage.application t run.owner assertion (operands.map run.formulaAt)).Same
      (run.applicationOf t assertion operands) := ⟨rfl, rfl, rfl, rfl, rfl, rfl⟩
  obtain ⟨formula, failed⟩ := same.unify (t := t) checkDisjoint
  simp only [Stage.conclude, formula, failed]

theorem apply_to_stage (assertion : Statement) (operands : List Nat)
    (bounded : ∀ step ∈ run.stack, step < run.formulas.length) :
    (run.applyTo t checkDisjoint assertion operands).stage =
      match Stage.conclude t checkDisjoint run.owner assertion (operands.map run.formulaAt) with
      | some formula => ⟨formula :: run.stage.held, run.verdict⟩
      | none => ⟨[] :: run.stage.held, run.verdict.worse .error⟩ := by
  rw [application_concludes]
  unfold applyTo
  dsimp only
  split
  · rename_i clean
    rw [push_stage _ _ (by exact bounded), clean]
    rfl
  · rename_i error failed
    rw [push_stage _ _ (by simpa using bounded), failed, fail_verdict]
    simp [stage, formulaAt]

theorem apply_assertion_stage (assertion : Statement)
    (bounded : ∀ step ∈ run.stack, step < run.formulas.length) :
    (run.applyAssertion t checkDisjoint assertion).stage =
      run.stage.apply t checkDisjoint run.owner assertion := by
  have height : run.stage.held.length = run.stack.length := by simp [stage]
  unfold applyAssertion Stage.apply
  dsimp only
  rw [height]
  split
  · rw [push_stage _ _ (by simp)]
    simp [stage]
  · have taken : (run.stage.held.take assertion.frame.required.length).reverse =
        (run.stack.take assertion.frame.required.length).reverse.map run.formulaAt := by
      simp [stage, List.map_take]
    have below : ∀ step ∈ run.stack.drop assertion.frame.required.length, step < run.formulas.length :=
      fun step member => bounded step (List.mem_of_mem_drop member)
    rw [apply_to_stage _ _ below, taken]
    simp only [stage, List.map_drop]
    rfl

theorem step_stage (instruction : Instruction) (direct : ∀ target, instruction ≠ .reuse target)
    (bounded : ∀ step ∈ run.stack, step < run.formulas.length)
    (stepped : run.step t checkDisjoint instruction = .ok next) :
    next.stage = run.stage.perform t checkDisjoint run.owner instruction := by
  cases instruction with
  | unknown =>
      cases stepped
      exact push_stage _ _ bounded
  | reuse target => exact absurd rfl (direct target)
  | reference id =>
      simp only [step] at stepped
      split at stepped
      · cases stepped
      · rename_i s found
        simp only [Stage.perform, found]
        split at stepped
        · rename_i hypothesis
          cases stepped
          rw [if_pos hypothesis]
          exact push_stage run s.formula bounded
        · rename_i other
          rw [if_neg other]
          split at stepped
          · cases stepped
            exact apply_assertion_stage s bounded
          · cases stepped
  | invalid kind => cases stepped

theorem step_reuse_stage (target : Int) (bounded : ∀ step ∈ run.stack, step < run.formulas.length)
    (stepped : run.step t checkDisjoint (.reuse target) = .ok next) :
    next.stage = ⟨run.formulaAt target.toNat :: run.stage.held, run.verdict⟩ := by
  simp only [step] at stepped
  split at stepped
  · cases stepped
    exact push_stage run _ bounded
  · cases stepped

theorem finish_settles (t : Table) (run : Run)
    (top : run.stack.head? = some (run.formulas.length - 1)) :
    (run.finish t).verdict = run.stage.settle run.owner := by
  have last : run.stage.held.head?.getD [] = run.formulas.getLast?.getD [] := by
    simp only [stage, List.head?_map, top, Option.map_some, formulaAt, List.getLast?_eq_getElem?,
      Option.getD_some]
  unfold finish Stage.settle
  dsimp only
  rw [last]
  split
  · rfl
  · split
    · rfl
    · rw [fail_verdict]
      rfl

end Run

def Severity.Reached (verdict : Severity) : Prop := verdict.rank < 2 ∨ verdict = .error

theorem worse_error (verdict : Severity) (reached : verdict.Reached) : verdict.worse .error = .error := by
  rcases reached with fine | rfl
  · rw [Severity.worse, if_pos]
    exact fine
  · rfl

theorem worse_absorbed (verdict other : Severity) (bound : other.rank ≤ verdict.rank) :
    verdict.worse other = verdict := by
  rw [Severity.worse, if_neg (Int.not_lt.mpr bound)]

namespace Stage

variable {t : Table} {checkDisjoint : Bool} {owner : Statement}

theorem perform_verdict (stage : Stage) (instruction : Instruction) :
    (stage.perform t checkDisjoint owner instruction).verdict = stage.verdict ∨
      (stage.perform t checkDisjoint owner instruction).verdict = stage.verdict.worse .incomplete ∨
      (stage.perform t checkDisjoint owner instruction).verdict = stage.verdict.worse .error := by
  cases instruction with
  | unknown => exact Or.inr (Or.inl rfl)
  | reference id =>
      simp only [perform]
      split
      · split
        · exact Or.inl rfl
        · unfold apply
          dsimp only
          split
          · exact Or.inr (Or.inr rfl)
          · split
            · exact Or.inl rfl
            · exact Or.inr (Or.inr rfl)
      · exact Or.inl rfl
  | _ => exact Or.inl rfl

theorem perform_failed (stage : Stage) (instruction : Instruction) (failed : stage.verdict = .error) :
    (stage.perform t checkDisjoint owner instruction).verdict = .error := by
  rcases stage.perform_verdict instruction with same | opened | again
  · exact same.trans failed
  · rw [opened, failed]
    rfl
  · rw [again, failed]
    rfl

theorem perform_reached (stage : Stage) (instruction : Instruction) (reached : stage.verdict.Reached) :
    (stage.perform t checkDisjoint owner instruction).verdict.Reached := by
  rcases reached with fine | failed
  · rcases stage.perform_verdict instruction with same | opened | failed
    · exact Or.inl (same ▸ fine)
    · rw [opened, Severity.Reached, Severity.rank_worse]
      exact Or.inl (Int.max_lt.mpr ⟨fine, by decide⟩)
    · exact Or.inr (failed.trans (worse_error _ (Or.inl fine)))
  · exact Or.inr (stage.perform_failed instruction failed)

theorem performs_failed (block : Proof) (stage : Stage) (failed : stage.verdict = .error) :
    (block.foldl (perform t checkDisjoint owner) stage).verdict = .error := by
  induction block generalizing stage with
  | nil => exact failed
  | cons instruction rest ih => exact ih _ (stage.perform_failed instruction failed)

theorem settle_failed (owner : Statement) (stage : Stage) (failed : stage.verdict = .error) :
    stage.settle owner = .error := by
  unfold settle
  dsimp only
  rw [failed]
  split
  · rfl
  · split <;> rfl

-- Whatever lies below the operands, and whatever the verdict is from `least` on, the instructions put
-- the given formulas in the place of the operands and change nothing else.
def Puts (t : Table) (checkDisjoint : Bool) (owner : Statement) (least : Severity) (block : Proof)
    (operands given : List Formula) : Prop :=
  ∀ below verdict, least.rank ≤ verdict.rank →
    block.foldl (perform t checkDisjoint owner) ⟨operands ++ below, verdict⟩ = ⟨given ++ below, verdict⟩

variable {least worse : Severity} {block behind : Proof} {operands middle given : List Formula}

theorem Puts.later (puts : Puts t checkDisjoint owner least block operands given)
    (grown : least.rank ≤ worse.rank) : Puts t checkDisjoint owner worse block operands given :=
  fun below verdict bound => puts below verdict (Int.le_trans grown bound)

theorem Puts.append (puts : Puts t checkDisjoint owner least block operands middle)
    (others : Puts t checkDisjoint owner least behind middle given) :
    Puts t checkDisjoint owner least (block ++ behind) operands given := by
  intro below verdict bound
  rw [List.foldl_append, puts below verdict bound, others below verdict bound]

theorem Puts.frame (puts : Puts t checkDisjoint owner least block operands given) (extra : List Formula) :
    Puts t checkDisjoint owner least block (operands ++ extra) (given ++ extra) := by
  intro below verdict bound
  rw [List.append_assoc, List.append_assoc]
  exact puts (extra ++ below) verdict bound

theorem apply_puts (stage : Stage) (assertion : Statement) (id : Int)
    (applies : ∀ stage : Stage,
      stage.perform t checkDisjoint owner (.reference id) = stage.apply t checkDisjoint owner assertion)
    (enough : assertion.frame.required.length ≤ stage.held.length) :
    ∃ formula, (stage.apply t checkDisjoint owner assertion).held =
        formula :: stage.held.drop assertion.frame.required.length ∧
      stage.verdict.rank ≤ (stage.apply t checkDisjoint owner assertion).verdict.rank ∧
      Puts t checkDisjoint owner (stage.apply t checkDisjoint owner assertion).verdict [.reference id]
        (stage.held.take assertion.frame.required.length) [formula] := by
  have length : (stage.held.take assertion.frame.required.length).length =
      assertion.frame.required.length := by simp; omega
  have reaches : ∀ below, ¬ (stage.held.take assertion.frame.required.length ++ below).length <
      assertion.frame.required.length := by
    intro below
    simp
    omega
  have performs : ∀ below verdict, [Instruction.reference id].foldl (perform t checkDisjoint owner)
      ⟨stage.held.take assertion.frame.required.length ++ below, verdict⟩ =
        match conclude t checkDisjoint owner assertion
            (stage.held.take assertion.frame.required.length).reverse with
        | some formula => ⟨formula :: below, verdict⟩
        | none => ⟨[] :: below, verdict.worse .error⟩ := by
    intro below verdict
    rw [List.foldl_cons, List.foldl_nil, applies]
    simp only [apply, if_neg (reaches below), List.take_left' length, List.drop_left' length]
  simp only [apply, if_neg (Nat.not_lt.mpr enough)]
  cases concluded : conclude t checkDisjoint owner assertion
      (stage.held.take assertion.frame.required.length).reverse with
  | some formula =>
      refine ⟨formula, rfl, Int.le_refl _, fun below verdict _ => ?_⟩
      rw [performs, concluded]
      rfl
  | none =>
      have grown := Severity.rank_worse stage.verdict .error
      refine ⟨[], rfl, grown ▸ Int.le_max_left _ _, fun below verdict bound => ?_⟩
      rw [performs, concluded, worse_absorbed _ _ (Int.le_trans (grown ▸ Int.le_max_right _ _) bound)]
      rfl

theorem perform_puts (stage : Stage) (instruction : Instruction) (position : Nat)
    (direct : ∀ target, instruction ≠ .reuse target)
    (admissible : instruction.Admissible t owner position)
    (enough : Proof.arity t instruction ≤ stage.held.length) :
    ∃ formula, (stage.perform t checkDisjoint owner instruction).held =
        formula :: stage.held.drop (Proof.arity t instruction) ∧
      stage.verdict.rank ≤ (stage.perform t checkDisjoint owner instruction).verdict.rank ∧
      Puts t checkDisjoint owner (stage.perform t checkDisjoint owner instruction).verdict [instruction]
        (stage.held.take (Proof.arity t instruction)) [formula] := by
  cases instruction with
  | unknown =>
      have grown := Severity.rank_worse stage.verdict .incomplete
      refine ⟨[], rfl, grown ▸ Int.le_max_left _ _, fun below verdict bound => ?_⟩
      have worst := worse_absorbed _ _ (Int.le_trans (grown ▸ Int.le_max_right _ _) bound)
      simp [perform, worst, Proof.arity]
  | reuse target => exact absurd rfl (direct target)
  | reference id =>
      obtain ⟨s, found, usable⟩ := admissible
      by_cases hypothesis : s.isHypothesis = true
      · have plain := s.hypothesis_not_assertion hypothesis
        have arity : Proof.arity t (.reference id) = 0 := by simp [Proof.arity, found, plain]
        have performs : ∀ stage : Stage, stage.perform t checkDisjoint owner (.reference id) =
            ⟨s.formula :: stage.held, stage.verdict⟩ := by
          intro stage
          simp only [perform, found, if_pos hypothesis]
        rw [performs, arity]
        refine ⟨s.formula, rfl, Int.le_refl _, ?_⟩
        intro below verdict _
        rw [List.foldl_cons, List.foldl_nil, performs]
        rfl
      · have asserted := (usable.resolve_right fun own => hypothesis own.1).1
        have arity : Proof.arity t (.reference id) = s.frame.required.length := by
          simp [Proof.arity, found, asserted]
        have applies : ∀ stage : Stage, stage.perform t checkDisjoint owner (.reference id) =
            stage.apply t checkDisjoint owner s := by
          intro stage
          simp only [perform, found, if_neg hypothesis]
        rw [arity] at enough ⊢
        rw [applies]
        exact apply_puts stage s id applies enough
  | invalid kind => exact False.elim admissible

theorem perform_missing (stage : Stage) (instruction : Instruction)
    (missing : stage.held.length < Proof.arity t instruction) :
    (stage.perform t checkDisjoint owner instruction).verdict = stage.verdict.worse .error := by
  cases instruction with
  | reference id =>
      cases found : t.statement id with
      | none => simp [Proof.arity, found] at missing
      | some s =>
          cases asserted : s.isAssertion with
          | false => simp [Proof.arity, found, asserted] at missing
          | true =>
              simp only [Proof.arity, found, asserted, if_true] at missing
              simp only [perform, found, s.assertion_not_hypothesis asserted, Bool.false_eq_true, if_false,
                apply, if_pos missing]
  | _ => exact absurd missing (Nat.not_lt_zero _)

end Stage

namespace Proof

theorem subproof_start_le (arityAt : Nat → Nat) (need step : Nat) :
    subproofStart arityAt need step ≤ step := by
  induction step generalizing need with
  | zero => exact Nat.le_refl 0
  | succ step ih =>
      simp only [subproofStart]
      split
      · exact Nat.le_refl _
      · exact Nat.le_succ_of_le (ih _)

theorem subproof_start_here (arityAt : Nat → Nat) (need step : Nat)
    (complete : need - 1 + arityAt step = 0) : subproofStart arityAt need step = step := by
  cases step with
  | zero => rfl
  | succ step => simp only [subproofStart, if_pos complete]

theorem subproof_start_before (arityAt : Nat → Nat) (need step : Nat)
    (missing : need - 1 + arityAt (step + 1) ≠ 0) :
    subproofStart arityAt need (step + 1) = subproofStart arityAt (need - 1 + arityAt (step + 1)) step := by
  simp only [subproofStart, if_neg missing]

def expandAll (arityAt : Nat → Nat) (proof : Proof) : List Proof :=
  proof.foldl (fun done instruction => done ++ [expandStep arityAt done instruction]) []

theorem expand_all_snoc (arityAt : Nat → Nat) (front : Proof) (instruction : Instruction) :
    expandAll arityAt (front ++ [instruction]) =
      expandAll arityAt front ++ [expandStep arityAt (expandAll arityAt front) instruction] := by
  simp [expandAll]

theorem expand_all_length (arityAt : Nat → Nat) (proof : Proof) :
    (expandAll arityAt proof).length = proof.length := by
  induction proof using List.reverseRecOn with
  | nil => rfl
  | append_singleton front instruction ih => simp [expand_all_snoc, ih]

theorem expand_eq (t : Table) (proof : Proof) :
    proof.expand t = (expandAll (fun step => (proof[step]?.map (arity t)).getD 0) proof).flatten := rfl

theorem expand_all_nonempty (arityAt : Nat → Nat) (proof : Proof) (nonempty : proof ≠ []) :
    (expandAll arityAt proof).flatten ≠ [] := by
  induction proof using List.reverseRecOn with
  | nil => exact absurd rfl nonempty
  | append_singleton front instruction ih =>
      rw [expand_all_snoc, List.flatten_append, List.flatten_singleton]
      cases front with
      | nil => cases instruction <;> simp [expandAll, expandStep]
      | cons first rest => exact List.append_ne_nil_of_left_ne_nil (ih (List.cons_ne_nil first rest)) _

theorem expand_all_direct (arityAt : Nat → Nat) (t : Table) (owner : Statement) (proof : Proof)
    (admissible : proof.EachFrom (Instruction.Admissible t owner) 0) :
    ∀ instruction ∈ (expandAll arityAt proof).flatten,
      instruction ∈ proof ∧ ∀ target, instruction ≠ .reuse target := by
  induction proof using List.reverseRecOn with
  | nil => simp [expandAll]
  | append_singleton front last ih =>
      obtain ⟨early, late⟩ := (each_from_append _ front [last] 0).mp admissible
      rw [expand_all_snoc, List.flatten_append, List.flatten_singleton]
      intro instruction member
      rcases List.mem_append.mp member with old | new
      · obtain ⟨own, direct⟩ := ih early instruction old
        exact ⟨List.mem_append_left _ own, direct⟩
      · cases last with
        | reuse target =>
            have bounds : 0 ≤ target ∧ target < (expandAll arityAt front).length := by
              rw [expand_all_length]
              simpa [Instruction.Admissible] using late.1
            rw [expandStep, if_pos bounds] at new
            obtain ⟨block, present, inside⟩ := List.mem_flatten.mp new
            obtain ⟨own, direct⟩ := ih early instruction
              (List.mem_flatten.mpr ⟨block, List.mem_of_mem_take (List.mem_of_mem_drop present), inside⟩)
            exact ⟨List.mem_append_left _ own, direct⟩
        | _ =>
            cases List.mem_singleton.mp new
            exact ⟨List.mem_append_right _ (List.mem_singleton_self _), by simp⟩

theorem expand_all_self (arityAt : Nat → Nat) (proof : Proof)
    (direct : ∀ instruction ∈ proof, ∀ target, instruction ≠ .reuse target) :
    (expandAll arityAt proof).flatten = proof := by
  induction proof using List.reverseRecOn with
  | nil => rfl
  | append_singleton front last ih =>
      have own := direct last (List.mem_append_right _ (List.mem_singleton_self _))
      have single : expandStep arityAt (expandAll arityAt front) last = [last] := by
        cases last with
        | reuse target => exact absurd rfl (own target)
        | _ => rfl
      rw [expand_all_snoc, List.flatten_append, List.flatten_singleton, single,
        ih fun instruction member => direct instruction (List.mem_append_left _ member)]

end Proof

def Run.Underflows (t : Table) (checkDisjoint : Bool) (start : Run) (proof : Proof) : Prop :=
  ∃ front instruction behind before, proof = front ++ instruction :: behind ∧
    front.foldlM (Run.step t checkDisjoint) start = .ok before ∧
    before.stack.length < Proof.arity t instruction

theorem Run.Underflows.append {t : Table} {checkDisjoint : Bool} {start : Run} {proof : Proof}
    (underflows : start.Underflows t checkDisjoint proof) (more : Proof) :
    start.Underflows t checkDisjoint (proof ++ more) := by
  obtain ⟨front, instruction, behind, before, rfl, ran, missing⟩ := underflows
  exact ⟨front, instruction, behind ++ more, before, by simp, ran, missing⟩

-- A run whose steps find their operands beside the expansions of its steps. All of them lead to where the
-- run is, and the last ones, from where `need` formulas are missing, put the top formulas of the run on
-- every stack.
structure Unfolds (t : Table) (checkDisjoint : Bool) (arityAt : Nat → Nat) (done : List Proof) (run : Run) :
    Prop where
  length : done.length = run.formulas.length
  bounded : ∀ step ∈ run.stack, step < run.formulas.length
  reached : run.verdict.Reached
  whole : done.flatten.foldl (Stage.perform t checkDisjoint run.owner) {} = run.stage
  last : ∀ need, 0 < need → need ≤ run.stack.length →
    Stage.Puts t checkDisjoint run.owner run.verdict
      (done.drop (Proof.subproofStart arityAt need (done.length - 1))).flatten [] (run.stage.held.take need)
  steps : ∀ step < done.length,
    Stage.Puts t checkDisjoint run.owner run.verdict
      ((done.take (step + 1)).drop (Proof.subproofStart arityAt 1 step)).flatten [] [run.formulaAt step]

namespace Unfolds

open Proof

variable {t : Table} {checkDisjoint : Bool} {arityAt : Nat → Nat} {done : List Proof} {run next : Run}

theorem initial (formulas : run.formulas = []) (stack : run.stack = []) (verdict : run.verdict = .ok) :
    Unfolds t checkDisjoint arityAt [] run := by
  refine ⟨by simp [formulas], by simp [stack], Or.inl (by rw [verdict]; decide), by simp [Run.stage, stack, verdict], ?_,
    by simp⟩
  intro need positive bound
  rw [stack, List.length_nil] at bound
  omega

theorem last_next (unfolds : Unfolds t checkDisjoint arityAt done run) (block : Proof) (formula : Formula)
    (verdict : Severity) (enough : arityAt done.length ≤ run.stack.length)
    (grown : run.verdict.rank ≤ verdict.rank)
    (puts : Stage.Puts t checkDisjoint run.owner verdict block
      (run.stage.held.take (arityAt done.length)) [formula]) (need : Nat) (positive : 0 < need)
    (bound : need ≤ run.stack.length - arityAt done.length + 1) :
    Stage.Puts t checkDisjoint run.owner verdict
      ((done ++ [block]).drop (subproofStart arityAt need done.length)).flatten []
      ((formula :: run.stage.held.drop (arityAt done.length)).take need) := by
  obtain ⟨more, rfl⟩ : ∃ more, need = more + 1 := ⟨need - 1, by omega⟩
  rw [List.take_succ_cons]
  by_cases complete : more + 1 - 1 + arityAt done.length = 0
  · have alone : arityAt done.length = 0 ∧ more = 0 := by omega
    rw [subproof_start_here arityAt _ _ complete, List.drop_left, List.flatten_singleton, alone.2]
    simpa [alone.1] using puts
  · obtain ⟨before, length⟩ : ∃ before, done.length = before + 1 := by
      cases found : done.length with
      | succ before => exact ⟨before, rfl⟩
      | zero =>
          have empty : run.stack = [] := by
            cases stack : run.stack with
            | nil => rfl
            | cons top rest =>
                have inside := unfolds.bounded top (by simp [stack])
                rw [← unfolds.length, found] at inside
                omega
          simp only [found, empty, List.length_nil] at complete enough bound
          omega
    have start : subproofStart arityAt (more + 1) done.length =
        subproofStart arityAt (arityAt done.length + more) before := by
      rw [length] at complete ⊢
      rw [subproof_start_before arityAt _ _ complete, Nat.add_sub_cancel, Nat.add_comm]
    have early := subproof_start_le arityAt (arityAt done.length + more) before
    have prior := (unfolds.last (arityAt done.length + more) (by omega) (by omega)).later grown
    rw [show done.length - 1 = before by omega] at prior
    rw [start, List.drop_append_of_le_length (by omega), List.flatten_append, List.flatten_singleton]
    refine prior.append ?_
    rw [List.take_add]
    exact puts.frame _

theorem grow (unfolds : Unfolds t checkDisjoint arityAt done run) (block : Proof) (formula : Formula)
    (owner : next.owner = run.owner) (formulas : next.formulas = run.formulas ++ [formula])
    (stack : next.stack = run.formulas.length :: run.stack.drop (arityAt done.length))
    (enough : arityAt done.length ≤ run.stack.length) (grown : run.verdict.rank ≤ next.verdict.rank)
    (reached : next.verdict.Reached)
    (ends : block.foldl (Stage.perform t checkDisjoint run.owner) run.stage = next.stage)
    (puts : Stage.Puts t checkDisjoint run.owner next.verdict block
      (run.stage.held.take (arityAt done.length)) [formula]) :
    Unfolds t checkDisjoint arityAt (done ++ [block]) next := by
  have kept : ∀ step < run.formulas.length, next.formulaAt step = run.formulaAt step :=
    run.formula_at_prefix next (formulas ▸ List.prefix_append _ _)
  have own : next.formulaAt run.formulas.length = formula := by simp [Run.formulaAt, formulas]
  have below : ∀ step ∈ run.stack.drop (arityAt done.length), step < run.formulas.length :=
    fun step member => unfolds.bounded step (List.mem_of_mem_drop member)
  have held : next.stage.held = formula :: run.stage.held.drop (arityAt done.length) := by
    simp only [Run.stage, stack, List.map_cons, own, List.map_drop]
    congr 2
    exact List.map_congr_left fun step member => kept step (unfolds.bounded step member)
  have last := unfolds.last_next block formula next.verdict enough grown puts
  refine ⟨?_, ?_, reached, ?_, ?_, ?_⟩
  · simp [formulas, unfolds.length]
  · intro step member
    rw [stack] at member
    rw [formulas, List.length_append, List.length_singleton]
    rcases List.mem_cons.mp member with rfl | old
    · omega
    · have bounded := below step old
      omega
  · rw [List.flatten_append, List.flatten_singleton, List.foldl_append, owner, unfolds.whole, ends]
  · intro need positive bound
    rw [List.length_append, List.length_singleton, Nat.add_sub_cancel, owner, held]
    apply last need positive
    simpa [stack] using bound
  · intro step inside
    rw [owner]
    rw [List.length_append, List.length_singleton] at inside
    rcases Nat.lt_succ_iff_lt_or_eq.mp inside with before | rfl
    · rw [List.take_append_of_le_length (by omega), kept step (unfolds.length ▸ before)]
      exact (unfolds.steps step before).later grown
    · rw [List.take_of_length_le (by simp), unfolds.length, own, ← unfolds.length]
      exact last 1 Nat.one_pos (by omega)

theorem direct_step (unfolds : Unfolds t checkDisjoint arityAt done run) (instruction : Instruction)
    (direct : ∀ target, instruction ≠ .reuse target)
    (admissible : instruction.Admissible t run.owner run.formulas.length)
    (arity : arityAt done.length = Proof.arity t instruction)
    (stepped : run.step t checkDisjoint instruction = .ok next) :
    Unfolds t checkDisjoint arityAt (done ++ [[instruction]]) next ∨
      run.stack.length < Proof.arity t instruction ∧ next.verdict = .error ∧
        ([instruction].foldl (Stage.perform t checkDisjoint run.owner) run.stage).verdict = .error := by
  have stage := Run.step_stage instruction direct unfolds.bounded stepped
  have verdict : (run.stage.perform t checkDisjoint run.owner instruction).verdict = next.verdict := by
    rw [← stage]
    rfl
  have height : run.stage.held.length = run.stack.length := by simp [Run.stage]
  by_cases enough : Proof.arity t instruction ≤ run.stack.length
  · obtain ⟨formula, held, grown, puts⟩ :=
      run.stage.perform_puts instruction run.formulas.length direct admissible (height ▸ enough)
    have reached : (run.stage.perform t checkDisjoint run.owner instruction).verdict.Reached :=
      run.stage.perform_reached instruction unfolds.reached
    have shape := Run.step_stepped stepped
    obtain ⟨other, formulas⟩ := shape.formulas
    have same : other = formula := by
      have top := congrArg List.head? held
      rw [← stage] at top
      simpa [Run.stage, shape.stack, Run.formulaAt, formulas] using top
    rw [verdict] at reached grown puts
    left
    exact unfolds.grow [instruction] formula shape.owner (same ▸ formulas) (arity ▸ shape.stack)
      (arity ▸ enough) grown reached stage.symm (arity ▸ puts)
  · have missing := Nat.not_le.mp enough
    have failed : (run.stage.perform t checkDisjoint run.owner instruction).verdict = .error :=
      (run.stage.perform_missing instruction (height ▸ missing)).trans (worse_error _ unfolds.reached)
    exact Or.inr ⟨missing, verdict.symm.trans failed, failed⟩

theorem reuse_step (unfolds : Unfolds t checkDisjoint arityAt done run) (target : Int)
    (bounds : 0 ≤ target ∧ target < run.formulas.length) (arity : arityAt done.length = 0)
    (stepped : run.step t checkDisjoint (.reuse target) = .ok next) :
    Unfolds t checkDisjoint arityAt (done ++ [expandStep arityAt done (.reuse target)]) next := by
  have inside : 0 ≤ target ∧ target < done.length := unfolds.length ▸ bounds
  have puts := unfolds.steps target.toNat (by omega)
  have stage := Run.step_reuse_stage target unfolds.bounded stepped
  rw [Run.step, if_pos bounds] at stepped
  cases stepped
  rw [expandStep, if_pos inside]
  refine unfolds.grow _ (run.formulaAt target.toNat) rfl rfl (by simp [Run.push, arity]) (by omega)
    (Int.le_refl _) unfolds.reached ?_ ?_
  · rw [stage]
    exact puts run.stage.held run.verdict (Int.le_refl _)
  · rw [arity]
    exact puts

theorem step (unfolds : Unfolds t checkDisjoint arityAt done run) (instruction : Instruction)
    (admissible : instruction.Admissible t run.owner run.formulas.length)
    (arity : arityAt done.length = Proof.arity t instruction)
    (stepped : run.step t checkDisjoint instruction = .ok next) :
    Unfolds t checkDisjoint arityAt (done ++ [expandStep arityAt done instruction]) next ∨
      run.stack.length < Proof.arity t instruction ∧ next.verdict = .error ∧
        ((expandStep arityAt done instruction).foldl (Stage.perform t checkDisjoint run.owner)
          run.stage).verdict = .error := by
  cases instruction with
  | reuse target => exact Or.inl (unfolds.reuse_step target admissible arity stepped)
  | _ => exact unfolds.direct_step _ (by simp) admissible arity stepped

end Unfolds

theorem Run.step_failed {t : Table} {checkDisjoint : Bool} {run next : Run} (instruction : Instruction)
    (bounded : ∀ step ∈ run.stack, step < run.formulas.length) (failed : run.verdict = .error)
    (stepped : run.step t checkDisjoint instruction = .ok next) : next.verdict = .error := by
  by_cases reuse : ∃ target, instruction = .reuse target
  · obtain ⟨target, rfl⟩ := reuse
    exact (congrArg Stage.verdict (step_reuse_stage target bounded stepped)).trans failed
  · have stage := step_stage instruction (not_exists.mp reuse) bounded stepped
    exact (congrArg Stage.verdict stage).trans (run.stage.perform_failed instruction failed)

-- The induction appends one instruction to the proof, so that the expansions of what is done stay as
-- they were.
theorem run_unfolds (t : Table) (coherent : t.Coherent) (checkDisjoint : Bool) (arityAt : Nat → Nat)
    (proof : Proof) (start final : Run) (unfolds : Unfolds t checkDisjoint arityAt [] start)
    (sane : start.Sane t) (admissible : proof.EachFrom (Instruction.Admissible t start.owner) 0)
    (arities : ∀ (index : Nat) instruction, proof[index]? = some instruction →
      arityAt index = Proof.arity t instruction)
    (ran : proof.foldlM (Run.step t checkDisjoint) start = .ok final) :
    final.formulas.length = proof.length ∧ final.owner = start.owner ∧
      (Unfolds t checkDisjoint arityAt (proof.expandAll arityAt) final ∨
        start.Underflows t checkDisjoint proof ∧ final.verdict = .error ∧ ((proof.expandAll arityAt).flatten.foldl
          (Stage.perform t checkDisjoint start.owner) {}).verdict = .error) := by
  induction proof using List.reverseRecOn generalizing final with
  | nil =>
      cases ran
      exact ⟨unfolds.length.symm, rfl, Or.inl unfolds⟩
  | append_singleton front instruction ih =>
      rw [List.foldlM_append, bind_ok] at ran
      obtain ⟨middle, before, last⟩ := ran
      rw [List.foldlM_cons, bind_ok] at last
      obtain ⟨next, stepped, finished⟩ := last
      cases finished
      obtain ⟨early, late⟩ := (Proof.each_from_append _ front [instruction] 0).mp admissible
      have earlyArities : ∀ (index : Nat) other, front[index]? = some other →
          arityAt index = Proof.arity t other := by
        intro index other found
        exact arities index other (by
          rw [List.getElem?_append_left (List.getElem?_eq_some_iff.mp found).1, found])
      obtain ⟨formulas, owner, outcome⟩ := ih middle early earlyArities before
      have bounded := (Run.run_sane coherent front start middle sane before).stack
      have shape := Run.step_stepped stepped
      refine ⟨?_, shape.owner.trans owner, ?_⟩
      · rw [Run.step_length t checkDisjoint middle final instruction stepped, formulas, List.length_append,
          List.length_singleton]
      rw [Proof.expand_all_snoc, List.flatten_append, List.flatten_singleton, List.foldl_append]
      rcases outcome with along | ⟨underflows, failed, expanded⟩
      · have own : instruction.Admissible t middle.owner middle.formulas.length := by
          rw [owner, formulas]
          simpa using late.1
        have arity : arityAt (Proof.expandAll arityAt front).length = Proof.arity t instruction := by
          rw [Proof.expand_all_length]
          exact arities front.length instruction (by simp)
        have whole := along.whole
        rw [owner] at whole
        rcases along.step instruction own arity stepped with grown | ⟨missing, failed, expanded⟩
        · exact Or.inl grown
        · rw [owner, ← whole] at expanded
          exact Or.inr ⟨⟨front, instruction, [], middle, rfl, before, missing⟩, failed, expanded⟩
      · exact Or.inr ⟨underflows.append _, Run.step_failed instruction bounded failed stepped,
          Stage.performs_failed _ _ expanded⟩

def Proof.settled (t : Table) (checkDisjoint : Bool) (owner : Statement) (proof : Proof) : Severity :=
  ((proof.expand t).foldl (Stage.perform t checkDisjoint owner) {}).settle owner

theorem verify_proof_settled (t : Table) (coherent : t.Coherent) (checkDisjoint : Bool) (inspected : Int)
    (owner : Statement) (proof : Proof) (nonempty : proof ≠ [])
    (admissible : proof.EachFrom (Instruction.Admissible t owner) 0) :
    ∃ run, verifyProof t checkDisjoint inspected owner proof = .ok run ∧
      run.verdict = proof.settled t checkDisjoint owner := by
  obtain ⟨final, ran⟩ := Run.run_progress checkDisjoint owner proof
    { owner, proof, inspection := inspectionOf proof inspected } admissible
  refine ⟨final.finish t, (verify_proof_ok t checkDisjoint inspected owner proof _).mpr
    ⟨nonempty, final, ran, rfl⟩, ?_⟩
  obtain ⟨_, same, outcome⟩ := run_unfolds t coherent checkDisjoint
    (fun step => (proof[step]?.map (Proof.arity t)).getD 0) proof _ final (.initial rfl rfl rfl)
    ⟨by simp, by simp, by simp⟩ admissible (by intro index instruction found; simp [found]) ran
  rw [final.finish_settles t (Run.run_top proof nonempty ran), same, Proof.settled, Proof.expand_eq]
  rcases outcome with along | ⟨_, failed, expanded⟩
  · rw [← along.whole, same]
  · exact (Stage.settle_failed _ _ failed).trans (Stage.settle_failed _ _ expanded).symm

theorem verify_settled (t : Table) (coherent : t.Coherent) (checkDisjoint : Bool) (inspected : Int)
    (owner : Statement) (proved : owner ∈ t.theorems) :
    ∃ run, verify t checkDisjoint inspected owner = .ok run ∧
      run.verdict = match Proof.decode t owner owner.proof with
        | .error _ => .severe
        | .ok proof => proof.settled t checkDisjoint owner := by
  obtain ⟨member, asserted⟩ := t.theorem_asserted owner proved
  have kind := t.theorem_kind owner proved
  simp only [verify, kind, ne_eq, not_true_eq_false, if_false]
  cases decoded : Proof.decode t owner owner.proof with
  | error error => exact ⟨_, rfl, rfl⟩
  | ok proof =>
      exact verify_proof_settled t coherent checkDisjoint inspected owner proof
        (Proof.decode_nonempty t owner _ proof decoded)
        (Proof.decode_admissible t coherent owner member asserted _ proof decoded)

end Lemmata
