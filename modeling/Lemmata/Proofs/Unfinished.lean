import Lemmata.Proofs.Progress
import Mathlib.Data.List.GetD
import Mathlib.Data.List.Induction

/-!
Unfinished proofs raise no false alarm. If the open steps of a proof can be replaced so that the
completed proof is accepted, then the run of the unfinished proof goes along with the run of the
completed one: the stacks have the same shape, and every formula that is not open is the formula of
the completed proof. So the verdict is that the proof is incomplete, and no issue is reported.
-/

set_option autoImplicit false

namespace Lemmata

namespace Proof

def heightAfter (t : Table) : Nat → Proof → Option Nat
  | height, [] => some height
  | height, instruction :: rest =>
      if height < arity t instruction then none
      else heightAfter t (height - arity t instruction + 1) rest

-- Instructions that can take the place of one open step. Run from an empty stack they leave one
-- entry on it.
structure Block (t : Table) (block : Proof) : Prop where
  nonempty : block ≠ []
  direct : ∀ step, Instruction.reuse step ∉ block
  single : heightAfter t 0 block = some 1

structure Completion where
  steps : Proof := []
  places : List Nat := []

namespace Completion

def place (done : Completion) (step : Nat) : Nat := done.places.getD step 0

-- The instructions that stand for the next one. A reuse follows its step to the place of that step.
def part (fill : Nat → Proof) (done : Completion) : Instruction → Proof
  | .unknown => fill done.places.length
  | .reuse step => [.reuse (done.place step.toNat)]
  | instruction => [instruction]

def extend (done : Completion) (block : Proof) : Completion where
  steps := done.steps ++ block
  places := done.places ++ [done.steps.length + block.length - 1]

end Completion

def complete (fill : Nat → Proof) (proof : Proof) : Completion :=
  proof.foldl (fun done instruction => done.extend (done.part fill instruction)) {}

theorem each_from_append (property : Nat → Instruction → Prop) (first second : Proof) (position : Nat) :
    EachFrom property position (first ++ second) ↔
      EachFrom property position first ∧ EachFrom property (position + first.length) second := by
  induction first generalizing position with
  | nil => simp [EachFrom]
  | cons instruction rest ih =>
      rw [List.cons_append, EachFrom, EachFrom, ih, and_assoc, List.length_cons]
      rw [show position + 1 + rest.length = position + (rest.length + 1) by omega]

end Proof

namespace Run

variable {t : Table} {checkDisjoint : Bool} {run next : Run}

theorem run_top (block : Proof) (nonempty : block ≠ [])
    (ran : block.foldlM (step t checkDisjoint) run = .ok next) :
    next.stack.head? = some (next.formulas.length - 1) := by
  have each : ∀ instruction before after, step t checkDisjoint before instruction = .ok after →
      after.stack.head? = some (after.formulas.length - 1) := by
    intro instruction before after stepped
    have shape := step_stepped stepped
    obtain ⟨formula, formulas⟩ := shape.formulas
    simp [shape.stack, formulas]
  cases block with
  | nil => exact absurd rfl nonempty
  | cons first rest =>
      rw [List.foldlM_cons, bind_ok] at ran
      obtain ⟨middle, stepped, others⟩ := ran
      exact foldl_m_invariant (step t checkDisjoint)
        (fun run => run.stack.head? = some (run.formulas.length - 1))
        (fun before instruction after _ => each instruction before after) rest middle next
        (each first run middle stepped) others

theorem run_height (block : Proof) (top below : List Nat) (height : Nat)
    (stack : run.stack = top ++ below) (enough : Proof.heightAfter t top.length block = some height)
    (ran : block.foldlM (step t checkDisjoint) run = .ok next) :
    next.owner = run.owner ∧ run.formulas <+: next.formulas ∧
      next.formulas.length = run.formulas.length + block.length ∧
      ∃ left, next.stack = left ++ below ∧ left.length = height := by
  induction block generalizing run top with
  | nil =>
      cases ran
      cases enough
      exact ⟨rfl, List.prefix_rfl, rfl, top, stack, rfl⟩
  | cons instruction rest ih =>
      rw [List.foldlM_cons, bind_ok] at ran
      obtain ⟨middle, stepped, others⟩ := ran
      have shape := step_stepped stepped
      obtain ⟨formula, formulas⟩ := shape.formulas
      simp only [Proof.heightAfter] at enough
      split at enough
      · cases enough
      · rename_i inside
        have taken : middle.stack =
            (run.formulas.length :: top.drop (Proof.arity t instruction)) ++ below := by
          rw [shape.stack, stack, List.drop_append_of_le_length (by omega), List.cons_append]
        obtain ⟨owner, grown, length, left, leftStack, leftLength⟩ := ih _ taken
          (by simpa [List.length_drop] using enough) others
        refine ⟨owner.trans shape.owner, ?_, ?_, left, leftStack, leftLength⟩
        · exact (formulas ▸ List.prefix_append _ _).trans grown
        · rw [length, formulas, List.length_append, List.length_singleton, List.length_cons]
          omega

theorem run_block (block : Proof) (fits : block.Block t)
    (ran : block.foldlM (step t checkDisjoint) run = .ok next) :
    next.owner = run.owner ∧ run.formulas <+: next.formulas ∧
      next.formulas.length = run.formulas.length + block.length ∧
      next.stack = (next.formulas.length - 1) :: run.stack := by
  obtain ⟨owner, grown, length, left, stack, one⟩ := run_height block [] run.stack 1 rfl fits.single ran
  refine ⟨owner, grown, length, ?_⟩
  have top := run_top block fits.nonempty ran
  obtain ⟨entry, rfl⟩ := List.length_eq_one_iff.mp one
  rw [stack] at top
  cases top
  exact stack

theorem apply_assertion_fine (assertion : Statement)
    (fine : (run.applyAssertion t checkDisjoint assertion).verdict = .ok) :
    assertion.frame.required.length ≤ run.stack.length ∧
      ((run.applicationOf t assertion
        (run.stack.take assertion.frame.required.length).reverse).unify t checkDisjoint).error = none := by
  unfold applyAssertion at fine
  dsimp only at fine
  split at fine
  · simp only [push, fail_verdict] at fine
    exact absurd fine (worse_not_ok _ _ (by decide))
  · rename_i enough
    refine ⟨by omega, ?_⟩
    unfold applyTo at fine
    dsimp only at fine
    split at fine
    · assumption
    · simp only [push, fail_verdict] at fine
      exact absurd fine (worse_not_ok _ _ (by decide))

theorem apply_assertion_pushes (assertion : Statement)
    (enough : assertion.frame.required.length ≤ run.stack.length)
    (clean : ((run.applicationOf t assertion
      (run.stack.take assertion.frame.required.length).reverse).unify t checkDisjoint).error = none) :
    ∃ base : Run, run.applyAssertion t checkDisjoint assertion =
        base.push ((run.applicationOf t assertion
          (run.stack.take assertion.frame.required.length).reverse).unify t checkDisjoint).formula ∧
      base.owner = run.owner ∧ base.formulas = run.formulas ∧
      base.stack = run.stack.drop assertion.frame.required.length ∧ base.verdict = run.verdict ∧
      base.errorCount = run.errorCount ∧ base.issues = run.issues := by
  have applied : (({ run with stack := run.stack.drop assertion.frame.required.length }.applicationOf t
      assertion (run.stack.take assertion.frame.required.length).reverse).unify t checkDisjoint).error
        = none := clean
  unfold applyAssertion
  simp only [if_neg (Nat.not_lt.mpr enough), applyTo, applied]
  exact ⟨_, rfl, rfl, rfl, rfl, rfl, rfl, rfl⟩

end Run

structure Mirrors (done : Proof.Completion) (unfinished : Bool) (run completed : Run) : Prop where
  owner : run.owner = completed.owner
  places : done.places.length = run.formulas.length
  steps : done.steps.length = completed.formulas.length
  bounded : ∀ place ∈ done.places, place < completed.formulas.length
  last : 0 < run.formulas.length →
    done.place (run.formulas.length - 1) = completed.formulas.length - 1
  stack : completed.stack = run.stack.map done.place
  inside : ∀ step ∈ run.stack, step < run.formulas.length
  formulas : ∀ step < run.formulas.length,
    run.formulaAt step = [] ∨ run.formulaAt step = completed.formulaAt (done.place step)
  verdict : run.verdict = if unfinished then .incomplete else .ok
  errorCount : run.errorCount = 0
  issues : run.issues = []

namespace Mirrors

open Proof

variable {t : Table} {checkDisjoint : Bool} {done : Completion} {unfinished : Bool}
  {run completed next : Run}

theorem place_bounded (mirrors : Mirrors done unfinished run completed) (step : Nat)
    (inside : step < run.formulas.length) : done.place step < completed.formulas.length := by
  have own : step < done.places.length := mirrors.places ▸ inside
  apply mirrors.bounded
  rw [Completion.place, List.getD_eq_getElem _ _ own]
  exact List.getElem_mem own

theorem place_extend (mirrors : Mirrors done unfinished run completed) (block : Proof) (step : Nat)
    (inside : step < run.formulas.length) : (done.extend block).place step = done.place step := by
  have own : step < done.places.length := mirrors.places ▸ inside
  simp only [Completion.place, Completion.extend]
  exact List.getD_append _ _ _ _ own

theorem place_last (mirrors : Mirrors done unfinished run completed) (block : Proof) :
    (done.extend block).place run.formulas.length = completed.formulas.length + block.length - 1 := by
  simp only [Completion.place, Completion.extend, ← mirrors.places, ← mirrors.steps]
  rw [List.getD_append_right _ _ _ _ (Nat.le_refl _)]
  simp

theorem push (mirrors : Mirrors done unfinished run completed) (block : Proof) (nonempty : block ≠ [])
    (opened : Bool) (base : Run) (formula : Formula) (owner : base.owner = run.owner)
    (formulas : base.formulas = run.formulas) (kept : ∀ step ∈ base.stack, step ∈ run.stack)
    (verdict : base.verdict = if opened then .incomplete else .ok) (errorCount : base.errorCount = 0)
    (issues : base.issues = []) (nextOwner : next.owner = completed.owner)
    (grown : completed.formulas <+: next.formulas)
    (length : next.formulas.length = completed.formulas.length + block.length)
    (stack : next.stack = (next.formulas.length - 1) :: base.stack.map done.place)
    (own : formula = [] ∨ formula = next.formulaAt (next.formulas.length - 1)) :
    Mirrors (done.extend block) opened (base.push formula) next := by
  have some : 0 < block.length := List.length_pos_iff.mpr nonempty
  have last : (done.extend block).place run.formulas.length = next.formulas.length - 1 := by
    rw [mirrors.place_last block, length]
  have size : (base.push formula).formulas.length = run.formulas.length + 1 := by
    simp [Run.push, formulas]
  refine ⟨owner.trans (mirrors.owner.trans nextOwner.symm), ?_, ?_, ?_, ?_, ?_, ?_, ?_, verdict,
    errorCount, issues⟩
  · simp [Completion.extend, size, mirrors.places]
  · simp [Completion.extend, length, mirrors.steps]
  · intro place member
    simp only [Completion.extend, List.mem_append, List.mem_singleton, mirrors.steps] at member
    rcases member with old | rfl
    · have bounded := mirrors.bounded place old
      omega
    · omega
  · intro _
    rw [size, Nat.add_sub_cancel, last]
  · simp only [Run.push, List.map_cons, formulas, last, stack]
    congr 1
    apply List.map_congr_left
    intro step present
    exact (mirrors.place_extend block step (mirrors.inside step (kept step present))).symm
  · intro step member
    rw [size]
    simp only [Run.push, formulas, List.mem_cons] at member
    rcases member with rfl | old
    · omega
    · have bounded := mirrors.inside step (kept step old)
      omega
  · intro step bounded
    rw [size] at bounded
    rcases Nat.lt_succ_iff_lt_or_eq.mp bounded with before | rfl
    · rw [mirrors.place_extend block step before,
        Run.formula_at_prefix completed next grown _ (mirrors.place_bounded step before),
        Run.formula_at_prefix run (base.push formula) (by simp [Run.push, formulas]) step before]
      exact mirrors.formulas step before
    · rw [last, ← formulas, Run.formula_at_last]
      exact own

theorem push_both (mirrors : Mirrors done unfinished run completed) (instruction : Instruction)
    (base other : Run) (formula value : Formula) (owner : base.owner = run.owner)
    (formulas : base.formulas = run.formulas) (kept : ∀ step ∈ base.stack, step ∈ run.stack)
    (verdict : base.verdict = run.verdict) (errorCount : base.errorCount = run.errorCount)
    (issues : base.issues = run.issues) (otherOwner : other.owner = completed.owner)
    (otherFormulas : other.formulas = completed.formulas)
    (stack : other.stack = base.stack.map done.place) (own : formula = [] ∨ formula = value) :
    Mirrors (done.extend [instruction]) unfinished (base.push formula) (other.push value) := by
  have length : (other.push value).formulas.length = completed.formulas.length + 1 := by
    simp [Run.push, otherFormulas]
  refine mirrors.push [instruction] (by simp) unfinished base formula owner formulas kept
    (verdict.trans mirrors.verdict) (errorCount.trans mirrors.errorCount) (issues.trans mirrors.issues)
    otherOwner (by simp [Run.push, otherFormulas]) length ?_ ?_
  · rw [length]
    simp [Run.push, otherFormulas, stack]
  · rw [length, Nat.add_sub_cancel, ← otherFormulas, Run.formula_at_last]
    exact own

theorem reuse (mirrors : Mirrors done unfinished run completed) (target : Nat)
    (inside : target < run.formulas.length) :
    Mirrors (done.extend [.reuse (done.place target)]) unfinished (run.push (run.formulaAt target))
      (completed.push (completed.formulaAt (done.place target))) :=
  mirrors.push_both _ run completed _ _ rfl rfl (fun _ present => present) rfl rfl rfl rfl rfl
    mirrors.stack (mirrors.formulas target inside)

theorem application (coherent : t.Coherent) (mirrors : Mirrors done unfinished run completed)
    (sane : completed.Sane t) (fine : completed.verdict = .ok) (id : Int) (s : Statement)
    (member : s ∈ t.statements) (asserted : s.isAssertion = true)
    (nextFine : (completed.applyAssertion t checkDisjoint s).verdict = .ok) :
    Mirrors (done.extend [.reference id]) unfinished (run.applyAssertion t checkDisjoint s)
      (completed.applyAssertion t checkDisjoint s) := by
  obtain ⟨enough, clean⟩ := Run.apply_assertion_fine s nextFine
  obtain ⟨other, otherPushes, otherOwner, otherFormulas, otherStack, _⟩ :=
    Run.apply_assertion_pushes s enough clean
  have runEnough : s.frame.required.length ≤ run.stack.length := by
    simpa [mirrors.stack] using enough
  have taken : (completed.stack.take s.frame.required.length).reverse =
      (run.stack.take s.frame.required.length).reverse.map done.place := by
    rw [mirrors.stack, ← List.map_take, List.map_reverse]
  rw [otherPushes]
  rw [taken] at clean ⊢
  have bounded : ∀ step ∈ (run.stack.take s.frame.required.length).reverse,
      step < run.formulas.length :=
    fun step present => mirrors.inside step (List.mem_of_mem_take (List.mem_reverse.mp present))
  have known : (completed.applicationOf t s
      ((run.stack.take s.frame.required.length).reverse.map done.place)).Known t := by
    apply Run.application_of_formed s member asserted
    · simpa using Nat.min_eq_left runEnough
    · intro place present
      obtain ⟨step, inside, rfl⟩ := List.mem_map.mp present
      exact Run.formula_at_formed sane fine _ (mirrors.place_bounded step (bounded step inside))
  have opened : (run.applicationOf t s (run.stack.take s.frame.required.length).reverse).Opens
      (completed.applicationOf t s
        ((run.stack.take s.frame.required.length).reverse.map done.place)) := by
    refine ⟨rfl, mirrors.owner, rfl, ?_, rfl⟩
    simp only [Run.applicationOf, List.map_map, List.forall₂_map_left_iff, List.forall₂_map_right_iff,
      List.forall₂_same]
    exact fun step present => mirrors.formulas step (bounded step present)
  obtain ⟨runClean, own⟩ := unify_opened coherent known opened clean
  obtain ⟨base, pushes, owner, formulas, stack, verdict, errorCount, issues⟩ :=
    Run.apply_assertion_pushes s runEnough runClean
  rw [pushes]
  refine mirrors.push_both _ base other _ _ owner formulas ?_ verdict errorCount issues otherOwner
    otherFormulas ?_ own
  · intro step present
    exact List.mem_of_mem_drop (stack ▸ present)
  · rw [otherStack, stack, mirrors.stack, List.map_drop]

theorem step (coherent : t.Coherent) (mirrors : Mirrors done unfinished run completed)
    (sane : completed.Sane t) (owner : Statement) (fill : Nat → Proof) (instruction : Instruction)
    (admissible : instruction.Admissible t owner run.formulas.length)
    (block : instruction = .unknown → (fill run.formulas.length).Block t)
    (ran : (done.part fill instruction).foldlM (Run.step t checkDisjoint) completed = .ok next)
    (fine : next.verdict = .ok) :
    ∃ after, run.step t checkDisjoint instruction = .ok after ∧
      Mirrors (done.extend (done.part fill instruction)) (unfinished || Proof.isIncomplete [instruction])
        after next := by
  have completedFine := Run.run_fine _ completed next ran fine
  cases instruction with
  | unknown =>
      have fits := block rfl
      simp only [Completion.part, mirrors.places] at ran ⊢
      obtain ⟨nextOwner, grown, length, stack⟩ := Run.run_block _ fits ran
      refine ⟨_, rfl, ?_⟩
      refine mirrors.push _ fits.nonempty _ { run with verdict := run.verdict.worse .incomplete } [] rfl
        rfl (fun _ present => present) ?_ mirrors.errorCount mirrors.issues nextOwner grown length ?_
        (Or.inl rfl)
      · rw [mirrors.verdict]
        cases unfinished <;> rfl
      · rw [stack, mirrors.stack]
  | reuse target =>
      have bounds : 0 ≤ target ∧ target < run.formulas.length := admissible
      have inside : target.toNat < run.formulas.length := by omega
      have place := mirrors.place_bounded target.toNat inside
      simp only [Completion.part, List.foldlM_cons, List.foldlM_nil, Run.step] at ran
      rw [if_pos (by omega)] at ran
      cases ran
      refine ⟨run.push (run.formulaAt target.toNat), by simp [Run.step, bounds], ?_⟩
      have closed : Proof.isIncomplete [.reuse target] = false := rfl
      rw [closed, Bool.or_false]
      exact mirrors.reuse target.toNat inside
  | reference id =>
      obtain ⟨s, found, usable⟩ := admissible
      have closed : Proof.isIncomplete [.reference id] = false := rfl
      rw [closed, Bool.or_false]
      simp only [Completion.part, List.foldlM_cons, List.foldlM_nil, Run.step, found] at ran ⊢
      by_cases hypothesis : s.isHypothesis = true
      · rw [if_pos hypothesis] at ran ⊢
        cases ran
        refine ⟨_, rfl, ?_⟩
        exact mirrors.push_both (.reference id) run completed s.formula s.formula rfl rfl
          (fun _ present => present) rfl rfl rfl rfl rfl mirrors.stack (Or.inr rfl)
      · have asserted := (usable.resolve_right fun own => hypothesis own.1).1
        rw [if_neg hypothesis, if_pos asserted] at ran ⊢
        cases ran
        refine ⟨_, rfl, ?_⟩
        exact mirrors.application coherent sane completedFine id s
          (t.member_of_statement id s found) asserted fine
  | invalid kind => exact False.elim admissible

end Mirrors

-- The induction appends one instruction to the proof, so that the completion of what is done stays
-- as it was.
theorem unfinished_mirrors (t : Table) (coherent : t.Coherent) (checkDisjoint : Bool) (owner : Statement)
    (fill : Nat → Proof) (proof : Proof) (start other : Run) (fresh : start.formulas = [])
    (mirrors : Mirrors {} false start other) (sane : other.Sane t)
    (admissible : proof.EachFrom (Instruction.Admissible t owner) 0)
    (blocks : ∀ step, proof[step]? = some .unknown → (fill step).Block t) (completed : Run)
    (ran : (proof.complete fill).steps.foldlM (Run.step t checkDisjoint) other = .ok completed)
    (fine : completed.verdict = .ok) :
    ∃ run, proof.foldlM (Run.step t checkDisjoint) start = .ok run ∧
      run.formulas.length = proof.length ∧
      Mirrors (proof.complete fill) proof.isIncomplete run completed := by
  induction proof using List.reverseRecOn generalizing completed with
  | nil =>
      cases ran
      exact ⟨start, rfl, by simp [fresh], mirrors⟩
  | append_singleton done instruction ih =>
      have shape : (Proof.complete fill (done ++ [instruction])) =
          (Proof.complete fill done).extend ((Proof.complete fill done).part fill instruction) := by
        simp [Proof.complete]
      have steps : ((Proof.complete fill done).extend
          ((Proof.complete fill done).part fill instruction)).steps =
            (Proof.complete fill done).steps ++ (Proof.complete fill done).part fill instruction := rfl
      rw [shape, steps, List.foldlM_append, bind_ok] at ran
      obtain ⟨middle, before, last⟩ := ran
      obtain ⟨early, late⟩ := (Proof.each_from_append _ done [instruction] 0).mp admissible
      have earlyBlocks : ∀ step, done[step]? = some .unknown → (fill step).Block t := by
        intro step found
        exact blocks step (by rw [List.getElem?_append_left (List.getElem?_eq_some_iff.mp found).1, found])
      obtain ⟨run, ran, length, along⟩ :=
        ih early earlyBlocks middle before (Run.run_fine _ middle completed last fine)
      have middleSane := Run.run_sane coherent _ other middle sane before
      obtain ⟨after, stepped, both⟩ := along.step coherent middleSane owner fill instruction
        (by simpa [length] using late.1)
        (fun opened => by rw [length]; exact blocks done.length (by simp [opened])) last fine
      refine ⟨after, ?_, ?_, ?_⟩
      · rw [List.foldlM_append, bind_ok]
        exact ⟨run, ran, by rw [List.foldlM_cons, bind_ok]; exact ⟨after, stepped, rfl⟩⟩
      · rw [Run.step_length t checkDisjoint run after instruction stepped, length, List.length_append,
          List.length_singleton]
      · rw [shape]
        simpa [Proof.isIncomplete] using both

theorem Run.finish_incomplete (t : Table) (run : Run) (verdict : run.verdict = .incomplete)
    (last : run.formulas.getLast?.getD [] = [] ∨ run.formulas.getLast?.getD [] = run.owner.formula) :
    run.finish t = run := by
  have worst : run.verdict.worse .incomplete = run.verdict := by
    rw [verdict]
    rfl
  unfold Run.finish
  dsimp only
  split
  · rw [worst]
  · rename_i known
    rw [if_pos (last.resolve_left fun empty => known (by simp [Formula.isUnknown, empty]))]

theorem unfinished_incomplete (name : String) (declarations : List Declaration) (t : Table)
    (built : Table.build name declarations = .ok t) (owner : Statement) (proved : owner ∈ t.theorems)
    (text : String) (proof : Proof) (decoded : Proof.decode t owner text = .ok proof)
    (unfinished : proof.isIncomplete = true) (fill : Nat → Proof)
    (blocks : ∀ step, proof[step]? = some .unknown → (fill step).Block t) (checkDisjoint : Bool)
    (inspected otherInspected : Int) (completed : Run)
    (accepted : verifyProof t checkDisjoint otherInspected owner (proof.complete fill).steps = .ok completed)
    (fine : completed.verdict = .ok) :
    ∃ run, verifyProof t checkDisjoint inspected owner proof = .ok run ∧
      run.verdict = .incomplete ∧ run.errorCount = 0 ∧ run.issues = [] ∧
      run.formulas.length = proof.length ∧
      ∀ step < proof.length, run.formulaAt step = [] ∨
        run.formulaAt step = completed.formulaAt ((proof.complete fill).place step) := by
  have coherent := Table.build_coherent name declarations t built
  obtain ⟨member, asserted⟩ := t.theorem_asserted owner proved
  have admissible := Proof.decode_admissible t coherent owner member asserted text proof decoded
  have nonempty := Proof.decode_nonempty t owner text proof decoded
  obtain ⟨_, final, ran, rfl⟩ :=
    (verify_proof_ok t checkDisjoint otherInspected owner _ completed).mp accepted
  obtain ⟨same, lastFormula⟩ := final.finish_ok fine
  rw [same] at fine ⊢
  obtain ⟨run, ranRun, length, along⟩ := unfinished_mirrors t coherent checkDisjoint owner fill proof
    { owner, proof, inspection := inspectionOf proof inspected }
    { owner, proof := (proof.complete fill).steps,
      inspection := inspectionOf (proof.complete fill).steps otherInspected } rfl
    ⟨rfl, rfl, rfl, by simp, by simp, rfl, by simp, by simp, rfl, rfl, rfl⟩
    ⟨by simp, by simp, by simp⟩ admissible blocks final ran fine
  have positive : 0 < run.formulas.length := length ▸ List.length_pos_iff.mpr nonempty
  have verdict : run.verdict = .incomplete := by rw [along.verdict, unfinished]; rfl
  have ending : run.formulas.getLast?.getD [] = [] ∨
      run.formulas.getLast?.getD [] = run.owner.formula := by
    have own := along.formulas (run.formulas.length - 1) (by omega)
    rw [along.last positive] at own
    simpa only [Run.formulaAt, ← List.getLast?_eq_getElem?, lastFormula, along.owner,
      Option.getD_some] using own
  refine ⟨run, ?_, verdict, along.errorCount, along.issues, length, length ▸ along.formulas⟩
  exact (verify_proof_ok t checkDisjoint inspected owner proof run).mpr
    ⟨nonempty, run, ranRun, run.finish_incomplete t verdict ending⟩

theorem unfinished_incomplete_sample :
    let proof : Proof := [.reference 3, .reference 2, .unknown, .reference 7]
    let fill : Nat → Proof := fun _ => [.reference 5]
    Proof.decode sampleTable (sampleStatement 8) "( repeated ) BA?D" = .ok proof ∧
      proof.isIncomplete = true ∧ (fill 2).Block sampleTable ∧
      ∃ run, verifyProof sampleTable true (-1) (sampleStatement 8) proof = .ok run ∧
        run.verdict = .incomplete ∧ run.errorCount = 0 ∧ run.issues = [] := by
  intro proof fill
  have block : ∀ step, (fill step).Block sampleTable := by
    intro step
    exact ⟨by simp [fill], by simp [fill], rfl⟩
  obtain ⟨run, verified, verdict, errors, issues, _⟩ := unfinished_incomplete "sample"
    sampleDeclarations sampleTable sample_built (sampleStatement 8) (by decide) "( repeated ) BA?D" proof
    rfl rfl fill (fun step _ => block step) true (-1) (-1) _ rfl rfl
  exact ⟨rfl, rfl, block 2, run, verified, verdict, errors, issues⟩

end Lemmata
