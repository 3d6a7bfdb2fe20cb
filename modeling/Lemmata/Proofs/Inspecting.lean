import Lemmata.Proofs.Applications
import Mathlib.Data.List.Induction

/-!
Inspecting a step of a run. The inspection is only ever written, so a run goes the same way without it.
What it says in the end was written by two applications at most: the one at the inspected step, and the
one that takes the step as an operand. No other application takes it again, so nothing is overwritten.
-/

set_option autoImplicit false

namespace Lemmata

def Run.Call.note (t : Table) (checkDisjoint : Bool) (call : Run.Call) (note : Inspection) : Inspection :=
  Run.inspect t call.step call.application.assertion call.operands
    (call.application.unify t checkDisjoint).subst note

namespace Run

def uninspected (run : Run) : Run := { run with inspection := none }

variable {t : Table} {checkDisjoint : Bool} {run next : Run} {instruction : Instruction}

theorem fail_uninspected (rule : String) (step : Nat) (applied message suggestion : String) :
    (run.fail t rule step applied message suggestion).uninspected =
      run.uninspected.fail t rule step applied message suggestion := by
  unfold fail uninspected report
  dsimp only
  split <;> rfl

theorem apply_to_uninspected (assertion : Statement) (operands : List Nat) :
    (run.applyTo t checkDisjoint assertion operands).uninspected =
      run.uninspected.applyTo t checkDisjoint assertion operands := by
  have same : run.uninspected.applicationOf t assertion operands = run.applicationOf t assertion operands := rfl
  unfold applyTo
  rw [same]
  dsimp only
  split
  · rfl
  · exact congrArg (fun failed : Run => failed.push []) (fail_uninspected ..)

theorem apply_assertion_uninspected (assertion : Statement) :
    (run.applyAssertion t checkDisjoint assertion).uninspected =
      run.uninspected.applyAssertion t checkDisjoint assertion := by
  have same : run.uninspected.stack = run.stack := rfl
  unfold applyAssertion
  rw [same]
  dsimp only
  split
  · exact congrArg (fun failed : Run => { failed with stack := [] }.push []) (fail_uninspected ..)
  · exact apply_to_uninspected assertion _

theorem step_uninspected (run : Run) (instruction : Instruction) :
    run.uninspected.step t checkDisjoint instruction =
      (run.step t checkDisjoint instruction).map uninspected := by
  have same : run.uninspected.formulas = run.formulas := rfl
  cases instruction with
  | unknown => rfl
  | reuse target =>
      simp only [step, same]
      split <;> rfl
  | reference id =>
      simp only [step]
      split
      · rfl
      · split
        · rfl
        · split
          · exact congrArg Except.ok (apply_assertion_uninspected _).symm
          · rfl
  | invalid kind => rfl

theorem run_uninspected (proof : Proof) (start : Run) :
    proof.foldlM (step t checkDisjoint) start.uninspected =
      (proof.foldlM (step t checkDisjoint) start).map uninspected := by
  induction proof generalizing start with
  | nil => rfl
  | cons instruction rest ih =>
      rw [List.foldlM_cons, List.foldlM_cons, step_uninspected]
      cases stepped : start.step t checkDisjoint instruction with
      | error failure => rfl
      | ok next => exact ih next

theorem finish_uninspected : (run.finish t).uninspected = run.uninspected.finish t := by
  have formulas : run.uninspected.formulas = run.formulas := rfl
  have owner : run.uninspected.owner = run.owner := rfl
  unfold finish
  rw [formulas, owner]
  dsimp only
  split
  · rfl
  · split
    · rfl
    · exact fail_uninspected ..

theorem calls_uninspected (proof : Proof) (start : Run) :
    calls t checkDisjoint start.uninspected proof = calls t checkDisjoint start proof := by
  induction proof generalizing start with
  | nil => rfl
  | cons instruction rest ih =>
      have same : start.uninspected.call t instruction = start.call t instruction := by
        cases instruction <;> rfl
      simp only [calls, step_uninspected, same]
      cases stepped : start.step t checkDisjoint instruction with
      | error failure => rfl
      | ok next => exact congrArg _ (ih next)

section Notes

@[simp] theorem fail_inspection (rule : String) (step : Nat) (applied message suggestion : String) :
    (run.fail t rule step applied message suggestion).inspection = run.inspection := by
  unfold fail
  split <;> rfl

theorem finish_inspection : (run.finish t).inspection = run.inspection := by
  unfold finish
  dsimp only
  split
  · rfl
  · split <;> simp

theorem step_inspection (stepped : run.step t checkDisjoint instruction = .ok next) :
    next.inspection = run.inspection.map fun note =>
      (run.call t instruction).toList.foldl (fun note call => call.note t checkDisjoint note) note := by
  cases step_performs stepped with
  | opened => simp [call, push]
  | reused target inside => simp [call, push]
  | hypothesis id h found supposed => simp [call, found, h.hypothesis_not_assertion supposed, push]
  | missing id s message found asserted few => simp [call, found, Nat.not_le.mpr few, push]
  | applied id s found asserted enough =>
      simp only [call, found, asserted, enough, Option.bind_eq_bind, Option.bind_some, and_self, if_true,
        Option.toList_some, List.foldl_cons, List.foldl_nil]
      unfold applyTo
      dsimp only
      split
      · rfl
      · simp only [push, fail_inspection]
        rfl

theorem run_inspection (proof : Proof) (start final : Run)
    (finished : proof.foldlM (step t checkDisjoint) start = .ok final) :
    final.inspection = start.inspection.map fun note =>
      (calls t checkDisjoint start proof).foldl (fun note call => call.note t checkDisjoint note) note := by
  induction proof generalizing start with
  | nil =>
      cases finished
      simp [calls]
  | cons instruction rest ih =>
      rw [List.foldlM_cons, bind_ok] at finished
      obtain ⟨next, stepped, others⟩ := finished
      rw [ih next others, step_inspection stepped, Option.map_map]
      simp only [calls, stepped, List.foldl_append, Function.comp_def]

end Notes

theorem call_at (proof : Proof) (start before : Run) (count : Nat)
    (reached : (proof.take count).foldlM (step t checkDisjoint) start = .ok before) (found : Call) :
    (found ∈ calls t checkDisjoint start proof ∧ found.step = start.formulas.length + count) ↔
      ∃ instruction next, proof[count]? = some instruction ∧
        before.step t checkDisjoint instruction = .ok next ∧ before.call t instruction = some found := by
  induction count generalizing start proof with
  | zero =>
      cases reached
      cases proof with
      | nil => simp [calls]
      | cons instruction rest =>
          simp only [mem_calls, List.getElem?_cons_zero, Option.some.injEq, exists_and_left,
            exists_eq_left', Nat.add_zero]
          constructor
          · rintro ⟨⟨next, stepped, here | later⟩, place⟩
            · exact ⟨next, stepped, here⟩
            · have length := step_length t checkDisjoint before next instruction stepped
              have bound := calls_from rest found later
              omega
          · rintro ⟨next, stepped, here⟩
            exact ⟨⟨next, stepped, Or.inl here⟩, (call_stack found here stepped).1⟩
  | succ count ih =>
      cases proof with
      | nil => simp [calls]
      | cons instruction rest =>
          rw [List.take_succ_cons, List.foldlM_cons, bind_ok] at reached
          obtain ⟨next, stepped, others⟩ := reached
          have length := step_length t checkDisjoint start next instruction stepped
          rw [List.getElem?_cons_succ, ← ih rest next others, mem_calls, length]
          constructor
          · rintro ⟨⟨other, again, here | later⟩, place⟩
            · have own := (call_stack found here again).1
              omega
            · obtain rfl : next = other := Except.ok.inj (stepped.symm.trans again)
              exact ⟨later, by omega⟩
          · rintro ⟨later, place⟩
            exact ⟨⟨next, stepped, Or.inr later⟩, by omega⟩

end Run

namespace Inspection

open Run

-- What the inspection of step `step` has to say when these are the applications of the run. Of the two
-- parts, the first is about the application at the step, and the second about the one that takes it.
structure Faithful (t : Table) (checkDisjoint : Bool) (calls : List Call) (step : Nat) (note : Inspection) :
    Prop where
  place : note.step = step
  applied : ∀ call ∈ calls, call.step = step →
    note.assertion = call.application.assertion.label ∧
      note.subst = (call.application.unify t checkDisjoint).subst
  idle : (∀ call ∈ calls, call.step ≠ step) → note.assertion = "" ∧ note.subst = []
  taken : ∀ call ∈ calls, ∀ position : Nat, call.operands[position]? = some step →
    note.parentStep = some call.step ∧ note.parentAssertion = call.application.assertion.label ∧
      note.parentSubst = (call.application.unify t checkDisjoint).subst ∧
      ∃ id, call.application.assertion.frame.required[position]? = some id ∧
        note.parentHypothesis = t.labelOf id
  untaken : (∀ call ∈ calls, step ∉ call.operands) →
    note.parentStep = none ∧ note.parentAssertion = "" ∧ note.parentSubst = [] ∧ note.parentHypothesis = ""

variable {t : Table} {checkDisjoint : Bool} {calls : List Call} {note : Inspection}

section Parents

variable (step : Nat) (assertion : Statement) (subst : Substitution)

theorem own_kept : (noteOwn step assertion subst note).step = note.step ∧
    (noteOwn step assertion subst note).parentStep = note.parentStep ∧
    (noteOwn step assertion subst note).parentAssertion = note.parentAssertion ∧
    (noteOwn step assertion subst note).parentSubst = note.parentSubst ∧
    (noteOwn step assertion subst note).parentHypothesis = note.parentHypothesis := by
  unfold noteOwn
  split <;> exact ⟨rfl, rfl, rfl, rfl, rfl⟩

theorem parents_kept (note : Inspection) (operands : List (Nat × String)) :
    (operands.foldl (noteParent step assertion subst) note).step = note.step ∧
      (operands.foldl (noteParent step assertion subst) note).assertion = note.assertion ∧
      (operands.foldl (noteParent step assertion subst) note).subst = note.subst := by
  induction operands generalizing note with
  | nil => exact ⟨rfl, rfl, rfl⟩
  | cons operand rest ih =>
      obtain ⟨same, applied, kept⟩ := ih (noteParent step assertion subst note operand)
      rw [List.foldl_cons, same, applied, kept]
      unfold noteParent
      split <;> exact ⟨rfl, rfl, rfl⟩

theorem parents_missed (operands : List (Nat × String)) (missed : note.step ∉ operands.map Prod.fst) :
    operands.foldl (noteParent step assertion subst) note = note := by
  induction operands with
  | nil => rfl
  | cons operand rest ih =>
      simp only [List.map_cons, List.mem_cons, not_or] at missed
      rw [List.foldl_cons, noteParent, if_neg (Ne.symm missed.1), ih missed.2]

-- The last operand that is the inspected step stays noted. Here it is the only one.
theorem parents_noted (operands : List (Nat × String)) (distinct : (operands.map Prod.fst).Nodup)
    (label : String) (taken : (note.step, label) ∈ operands) :
    operands.foldl (noteParent step assertion subst) note = { note with
      parentStep := some step
      parentAssertion := assertion.label
      parentHypothesis := label
      parentSubst := subst } := by
  induction operands with
  | nil => cases taken
  | cons operand rest ih =>
      obtain ⟨fresh, distinct⟩ := List.nodup_cons.mp distinct
      rcases List.mem_cons.mp taken with rfl | later
      · rw [List.foldl_cons, noteParent, if_pos rfl]
        exact parents_missed step assertion subst rest fresh
      · have other : operand.1 ≠ note.step := fun same => fresh (same ▸ List.mem_map_of_mem later)
        rw [List.foldl_cons, noteParent, if_neg other]
        exact ih distinct later

end Parents

theorem note_step (call : Call) : (call.note t checkDisjoint note).step = note.step :=
  (parents_kept ..).1.trans (own_kept ..).1

theorem note_own (call : Call) (here : call.step = note.step) :
    (call.note t checkDisjoint note).assertion = call.application.assertion.label ∧
      (call.note t checkDisjoint note).subst = (call.application.unify t checkDisjoint).subst := by
  unfold Call.note inspect
  rw [noteOwn, if_pos here.symm]
  exact (parents_kept ..).2

section Kept

variable (t checkDisjoint note)

theorem note_other (call : Call) (elsewhere : call.step ≠ note.step) :
    (call.note t checkDisjoint note).assertion = note.assertion ∧
      (call.note t checkDisjoint note).subst = note.subst := by
  unfold Call.note inspect
  rw [noteOwn, if_neg elsewhere.symm]
  exact (parents_kept ..).2

theorem note_untaken (call : Call) (untaken : note.step ∉ call.operands) :
    (call.note t checkDisjoint note).parentStep = note.parentStep ∧
      (call.note t checkDisjoint note).parentAssertion = note.parentAssertion ∧
      (call.note t checkDisjoint note).parentSubst = note.parentSubst ∧
      (call.note t checkDisjoint note).parentHypothesis = note.parentHypothesis := by
  unfold Call.note inspect
  rw [parents_missed]
  · exact (own_kept ..).2
  · rw [(own_kept ..).1]
    intro member
    obtain ⟨⟨operand, label⟩, paired, rfl⟩ := List.mem_map.mp member
    exact untaken (List.of_mem_zip paired).1

end Kept

theorem note_parent (call : Call) (distinct : call.operands.Nodup)
    (aligned : call.operands.length = call.application.assertion.frame.required.length) (position : Nat)
    (taken : call.operands[position]? = some note.step) :
    (call.note t checkDisjoint note).parentStep = some call.step ∧
      (call.note t checkDisjoint note).parentAssertion = call.application.assertion.label ∧
      (call.note t checkDisjoint note).parentSubst = (call.application.unify t checkDisjoint).subst ∧
      ∃ id, call.application.assertion.frame.required[position]? = some id ∧
        (call.note t checkDisjoint note).parentHypothesis = t.labelOf id := by
  obtain ⟨inside, _⟩ := List.getElem?_eq_some_iff.mp taken
  obtain ⟨id, required⟩ : ∃ id, call.application.assertion.frame.required[position]? = some id :=
    ⟨_, List.getElem?_eq_getElem (aligned ▸ inside)⟩
  have firsts : (call.operands.zip (call.application.assertion.frame.required.map t.labelOf)).map Prod.fst =
      call.operands := List.map_fst_zip (by simp [aligned])
  have paired : (note.step, t.labelOf id) ∈
      call.operands.zip (call.application.assertion.frame.required.map t.labelOf) :=
    List.mem_of_getElem? (List.getElem?_zip_eq_some.mpr ⟨taken, by simp [required]⟩)
  unfold Call.note inspect
  rw [parents_noted _ _ _ _ (firsts.symm ▸ distinct) (t.labelOf id) (by rwa [(own_kept ..).1])]
  exact ⟨rfl, rfl, rfl, id, required, rfl⟩

theorem Faithful.fresh (step : Nat) : Faithful t checkDisjoint [] step { step } :=
  ⟨rfl, by simp, fun _ => ⟨rfl, rfl⟩, by simp, fun _ => ⟨rfl, rfl, rfl, rfl⟩⟩

-- One more application leaves alone what was written before it: it makes a later step, and it takes none
-- of the steps that were taken already.
theorem Faithful.next {step : Nat} (faithful : Faithful t checkDisjoint calls step note) (call : Call)
    (later : ∀ earlier ∈ calls, earlier.step < call.step) (distinct : call.operands.Nodup)
    (aligned : call.operands.length = call.application.assertion.frame.required.length)
    (apart : ∀ earlier ∈ calls, ∀ operand ∈ earlier.operands, operand ∉ call.operands) :
    Faithful t checkDisjoint (calls ++ [call]) step (call.note t checkDisjoint note) := by
  obtain ⟨rfl, applied, idle, taken, untaken⟩ := faithful
  refine ⟨note_step call, ?_, ?_, ?_, ?_⟩
  · intro other member here
    rcases List.mem_append.mp member with old | new
    · have before := later other old
      have kept := note_other t checkDisjoint note call (by omega)
      exact kept.1 ▸ kept.2 ▸ applied other old here
    · obtain rfl := List.mem_singleton.mp new
      exact note_own other here
  · intro nowhere
    have kept := note_other t checkDisjoint note call (nowhere call (by simp))
    exact kept.1 ▸ kept.2 ▸ idle fun other old => nowhere other (by simp [old])
  · intro other member position operand
    rcases List.mem_append.mp member with old | new
    · obtain ⟨step, assertion, subst, hypothesis⟩ := note_untaken t checkDisjoint note call
        (apart other old _ (List.mem_of_getElem? operand))
      rw [step, assertion, subst, hypothesis]
      exact taken other old position operand
    · obtain rfl := List.mem_singleton.mp new
      exact note_parent other distinct aligned position operand
  · intro nobody
    obtain ⟨step, assertion, subst, hypothesis⟩ := note_untaken t checkDisjoint note call (nobody call (by simp))
    rw [step, assertion, subst, hypothesis]
    exact untaken fun other old => nobody other (by simp [old])

theorem notes_faithful (step : Nat) (calls : List Call)
    (ascending : calls.Pairwise fun first second => first.step < second.step)
    (aligned : ∀ call ∈ calls, call.operands.length = call.application.assertion.frame.required.length)
    (once : (calls.flatMap Call.operands).Nodup) :
    Faithful t checkDisjoint calls step
      (calls.foldl (fun note call => call.note t checkDisjoint note) { step }) := by
  induction calls using List.reverseRecOn with
  | nil => exact Faithful.fresh step
  | append_singleton calls call ih =>
      obtain ⟨before, _, later⟩ := List.pairwise_append.mp ascending
      rw [List.flatMap_append, List.flatMap_singleton] at once
      obtain ⟨own, distinct, apart⟩ := List.nodup_append.mp once
      rw [List.foldl_append, List.foldl_cons, List.foldl_nil]
      refine (ih before (fun other member => aligned other (by simp [member])) own).next call
        (fun earlier member => later earlier member call (by simp)) distinct (aligned call (by simp)) ?_
      intro earlier member operand taken again
      exact apart operand (List.mem_flatMap.mpr ⟨earlier, member, taken⟩) operand again rfl

end Inspection

theorem verify_proof_uninspected (t : Table) (checkDisjoint : Bool) (inspected : Int) (owner : Statement)
    (proof : Proof) : verifyProof t checkDisjoint (-1) owner proof =
      (verifyProof t checkDisjoint inspected owner proof).map Run.uninspected := by
  have nothing : ({ owner, proof, inspection := inspectionOf proof (-1) } : Run) =
      Run.uninspected { owner, proof, inspection := inspectionOf proof inspected } := by
    simp [inspectionOf, Run.uninspected]
  unfold verifyProof
  dsimp only
  rw [nothing, Run.run_uninspected]
  split
  · rfl
  · cases proof.foldlM (Run.step t checkDisjoint)
        { owner, proof, inspection := inspectionOf proof inspected } with
    | error failure => rfl
    | ok final => exact congrArg Except.ok Run.finish_uninspected.symm

theorem inspection_faithful (name : String) (declarations : List Declaration) (t : Table)
    (built : Table.build name declarations = .ok t) (owner : Statement) (proved : owner ∈ t.theorems)
    (text : String) (proof : Proof) (decoded : Proof.decode t owner text = .ok proof)
    (checkDisjoint : Bool) (step : Nat) (inside : step < proof.length) :
    ∃ run note calls, verifyProof t checkDisjoint step owner proof = .ok run ∧
      verifyProof t checkDisjoint (-1) owner proof = .ok { run with inspection := none } ∧
      run.inspection = some note ∧ calls = Run.calls t checkDisjoint { owner, proof } proof ∧
      note.Faithful t checkDisjoint calls step ∧ (calls.flatMap Run.Call.operands).Nodup ∧
      (∀ count, ∃ before, (proof.take count).foldlM (Run.step t checkDisjoint) { owner, proof } = .ok before ∧
        before.stack.Pairwise (· > ·)) ∧
      ∃ before instruction, proof[step]? = some instruction ∧
        (proof.take step).foldlM (Run.step t checkDisjoint) { owner, proof } = .ok before ∧
        (note.assertion = "" ↔ ¬ ∃ id s, instruction = .reference id ∧ t.statement id = some s ∧
          s.isAssertion = true ∧ s.frame.required.length ≤ before.stack.length) := by
  have coherent := Table.build_coherent name declarations t built
  obtain ⟨member, asserted⟩ := t.theorem_asserted owner proved
  have admissible := Proof.decode_admissible t coherent owner member asserted text proof decoded
  let start : Run := { owner, proof, inspection := some { step } }
  have inspected : inspectionOf proof step = some { step } := by
    simp [inspectionOf, inside]
  have piled : ({ owner, proof } : Run).Piled := ⟨List.Pairwise.nil, by simp⟩
  obtain ⟨final, finished⟩ := Run.run_progress checkDisjoint owner proof start admissible
  have plain : proof.foldlM (Run.step t checkDisjoint) { owner, proof } = .ok final.uninspected := by
    have erased : proof.foldlM (Run.step t checkDisjoint) start.uninspected =
        (proof.foldlM (Run.step t checkDisjoint) start).map Run.uninspected := Run.run_uninspected proof start
    rwa [finished] at erased
  have verified : verifyProof t checkDisjoint step owner proof = .ok (final.finish t) :=
    (verify_proof_ok ..).mpr ⟨Proof.decode_nonempty t owner text proof decoded, final, inspected ▸ finished, rfl⟩
  have noted : (final.finish t).inspection = some ((Run.calls t checkDisjoint { owner, proof } proof).foldl
      (fun note call => call.note t checkDisjoint note) { step }) := by
    rw [Run.finish_inspection, Run.run_inspection proof start final finished,
      ← Run.calls_uninspected proof start]
    rfl
  have once : ((Run.calls t checkDisjoint { owner, proof } proof).flatMap Run.Call.operands).Nodup :=
    Run.operands_once proof piled
  have faithful : Inspection.Faithful t checkDisjoint (Run.calls t checkDisjoint { owner, proof } proof) step _ :=
    Inspection.notes_faithful step _ (Run.calls_ascending proof) (Run.calls_aligned proof) once
  refine ⟨final.finish t, _, _, verified, ?_, noted, rfl, faithful, once, fun count => ?_, ?_⟩
  · rw [verify_proof_uninspected t checkDisjoint step, verified]
    rfl
  · obtain ⟨before, reached, _⟩ := Run.run_front proof _ _ plain count
    exact ⟨before, reached, (Run.run_piled _ _ before piled reached).descending⟩
  · obtain ⟨before, reached, rest⟩ := Run.run_front proof _ _ plain step
    have here : proof[step]? = some proof[step] := List.getElem?_eq_getElem inside
    rw [List.drop_eq_getElem_cons inside, List.foldlM_cons, bind_ok] at rest
    obtain ⟨next, stepped, _⟩ := rest
    refine ⟨before, proof[step], here, reached, ?_⟩
    have called := Run.call_at proof _ before step reached
    constructor
    · rintro empty ⟨id, s, same, found, applied, enough⟩
      have call := (Run.call_iff _).mpr ⟨id, s, same, found, applied, enough, rfl⟩
      obtain ⟨present, place⟩ := (called _).mpr ⟨_, next, here, stepped, call⟩
      have own := (faithful.applied _ present (place.trans (Nat.zero_add step))).1
      exact (coherent.formed s (t.member_of_statement id s found)).labelled.mpr (Or.inr applied)
        (own.symm.trans empty)
    · intro nothing
      refine (faithful.idle fun found present place => nothing ?_).1
      obtain ⟨instruction, _, same, _, call⟩ :=
        (called found).mp ⟨present, place.trans (Nat.zero_add step).symm⟩
      obtain rfl : proof[step] = instruction := Option.some.inj (here.symm.trans same)
      obtain ⟨id, s, shape, stands, applied, enough, _⟩ := (Run.call_iff found).mp call
      exact ⟨id, s, shape, stands, applied, enough⟩

theorem inspection_faithful_sample :
    sampleStatement 8 ∈ sampleTable.theorems ∧
      Proof.decode sampleTable (sampleStatement 8) (sampleStatement 8).proof =
        .ok [.reference 3, .reference 2, .reference 5, .reference 7] ∧
      ∃ run note, verifyProof sampleTable true 1 (sampleStatement 8)
          [.reference 3, .reference 2, .reference 5, .reference 7] = .ok run ∧ run.inspection = some note ∧
        note.assertion = "" ∧ note.parentStep = some 3 ∧ note.parentAssertion = "repeated" ∧
        note.parentHypothesis = "wy" := by
  have proved : sampleStatement 8 ∈ sampleTable.theorems := by decide
  have decoded : Proof.decode sampleTable (sampleStatement 8) (sampleStatement 8).proof =
      .ok [.reference 3, .reference 2, .reference 5, .reference 7] := rfl
  obtain ⟨run, note, calls, verified, _, noted, rfl, faithful, _⟩ := inspection_faithful "sample"
    sampleDeclarations sampleTable sample_built (sampleStatement 8) proved _ _ decoded true 1 (by decide)
  refine ⟨proved, decoded, run, note, verified, noted, (faithful.idle (by decide)).1, ?_⟩
  obtain ⟨call, member, step, operands, assertion⟩ : ∃ call ∈ Run.calls sampleTable true
      { owner := sampleStatement 8, proof := [.reference 3, .reference 2, .reference 5, .reference 7] }
      [.reference 3, .reference 2, .reference 5, .reference 7],
      call.step = 3 ∧ call.operands = [0, 1, 2] ∧ call.application.assertion = sampleStatement 7 := by decide
  obtain ⟨parent, label, _, id, required, hypothesis⟩ := faithful.taken call member 1 (operands ▸ rfl)
  rw [assertion] at label required
  obtain rfl : 3 = id := Option.some.inj required
  exact ⟨parent.trans (congrArg Option.some step), label, hypothesis⟩

end Lemmata
