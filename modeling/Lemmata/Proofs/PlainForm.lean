import Lemmata.Proofs.Restating
import Lemmata.Proofs.Runnable

/-!
The plain form of a proof. Writing a proof goes from step to step, and for a step that reuses an earlier
one back to the subproof of that step. It comes to an end, what it writes reuses no step, and the proof
that was written runs to the same verdict. If every step of the proof has found its operands, it also
proves the same formula.
-/

set_option autoImplicit false

namespace Lemmata

open Text

namespace Proof

def arityAt (t : Table) (proof : Proof) (step : Nat) : Nat := (proof[step]?.map (arity t)).getD 0

def subproofSteps (t : Table) (proof : Proof) (step : Nat) : List Nat :=
  let start := subproofStart (arityAt t proof) 1 step
  List.range' start (step + 1 - start)

theorem subproof_steps_le (t : Table) (proof : Proof) (step : Nat) :
    ∀ inner ∈ subproofSteps t proof step, inner ≤ step := by
  intro inner member
  have start := subproof_start_le (arityAt t proof) 1 step
  simp only [subproofSteps, List.mem_range'_1] at member
  omega

def written (t : Table) (proof : Proof) (step : Nat) : Proof :=
  match proof[step]? with
  | none => []
  | some (.reuse target) =>
      if _ : 0 ≤ target ∧ target < step then
        (subproofSteps t proof target.toNat).attach.flatMap fun inner => written t proof inner.val
      else [.reuse target]
  | some instruction => [instruction]
termination_by step
decreasing_by
  have bound := subproof_steps_le t proof target.toNat inner.val inner.property
  omega

variable {t : Table} {proof : Proof}

theorem written_reuse (step : Nat) (target : Int) (found : proof[step]? = some (.reuse target))
    (earlier : 0 ≤ target ∧ target < step) :
    written t proof step = (subproofSteps t proof target.toNat).flatMap (written t proof) := by
  rw [written, found]
  simp only [dif_pos earlier, List.flatMap_subtype, List.unattach_attach]

theorem written_direct (step : Nat) (instruction : Instruction) (found : proof[step]? = some instruction)
    (direct : ∀ target, instruction ≠ .reuse target) : written t proof step = [instruction] := by
  rw [written, found]
  cases instruction with
  | reuse target => exact absurd rfl (direct target)
  | _ => rfl

theorem written_step (step : Nat) (instruction : Instruction) (found : proof[step]? = some instruction) :
    expandStep (arityAt t proof) ((List.range step).map (written t proof)) instruction =
      written t proof step := by
  cases instruction with
  | reuse target =>
      by_cases earlier : 0 ≤ target ∧ target < step
      · have shorter : min (target.toNat + 1) step = target.toNat + 1 := by omega
        rw [written_reuse step target found earlier, expandStep, if_pos (by simpa using earlier)]
        dsimp only
        rw [← List.map_take, ← List.map_drop, List.take_range, shorter, List.range_eq_range', List.drop_range',
          Nat.zero_add, Nat.mul_one, List.flatMap_def]
        rfl
      · rw [written, found, expandStep, if_neg (by simpa using earlier)]
        simp only [dif_neg earlier]
  | _ => exact (written_direct step _ found (by simp)).symm

theorem expand_all_written (front : Proof) (first : front <+: proof) :
    expandAll (arityAt t proof) front = (List.range front.length).map (written t proof) := by
  induction front using List.reverseRecOn with
  | nil => rfl
  | append_singleton front instruction ih =>
      have found : proof[front.length]? = some instruction := by
        obtain ⟨behind, rfl⟩ := first
        simp
      rw [expand_all_snoc, ih ((List.prefix_append _ _).trans first), written_step _ _ found,
        List.length_append, List.length_singleton, List.range_succ, List.map_append, List.map_singleton]

theorem expand_written (t : Table) (proof : Proof) :
    proof.expand t = (List.range proof.length).flatMap (written t proof) := by
  rw [List.flatMap_def, ← expand_all_written proof List.prefix_rfl]
  rfl

end Proof

namespace Run

variable {t : Table} {checkDisjoint : Bool}

theorem run_stage (coherent : t.Coherent) (block : Proof) (start final : Run)
    (direct : ∀ instruction ∈ block, ∀ target, instruction ≠ .reuse target) (sane : start.Sane t)
    (ran : block.foldlM (step t checkDisjoint) start = .ok final) :
    final.stage = block.foldl (Stage.perform t checkDisjoint start.owner) start.stage := by
  induction block generalizing start with
  | nil =>
      cases ran
      rfl
  | cons instruction rest ih =>
      rw [List.foldlM_cons, bind_ok] at ran
      obtain ⟨next, stepped, others⟩ := ran
      have stage := step_stage instruction (direct instruction List.mem_cons_self) sane.stack stepped
      rw [ih next (fun other member => direct other (List.mem_cons_of_mem _ member))
        (step_sane coherent sane stepped) others, (step_stepped stepped).owner, stage, List.foldl_cons]

theorem height_after_append (height : Nat) (front behind : Proof) :
    Proof.heightAfter t height (front ++ behind) =
      (Proof.heightAfter t height front).bind fun middle => Proof.heightAfter t middle behind := by
  induction front generalizing height with
  | nil => rfl
  | cons instruction rest ih =>
      simp only [List.cons_append, Proof.heightAfter]
      by_cases missing : height < Proof.arity t instruction
      · rw [if_pos missing, if_pos missing]
        rfl
      · rw [if_neg missing, if_neg missing, ih]

theorem supplied_of_height (start : Run) (proof : Proof) (height : Nat)
    (enough : Proof.heightAfter t start.stack.length proof = some height) :
    ¬ start.Underflows t checkDisjoint proof := by
  intro underflows
  obtain ⟨front, instruction, behind, before, rfl, ran, missing⟩ := underflows
  rw [height_after_append, Option.bind_eq_some_iff] at enough
  obtain ⟨middle, reached, onward⟩ := enough
  obtain ⟨_, _, _, left, stack, length⟩ := run_height front start.stack [] middle (by simp) reached ran
  rw [stack, List.append_nil, length] at missing
  rw [Proof.heightAfter, if_pos missing] at onward
  cases onward

theorem run_last_formula (block : Proof) (start final : Run) (nonempty : block ≠ [])
    (ran : block.foldlM (step t checkDisjoint) start = .ok final) :
    final.formulas.getLast? = final.stage.held.head? := by
  have inside : final.formulas.length - 1 < final.formulas.length := by
    have length := run_length block start final ran
    have positive := List.length_pos_iff.mpr nonempty
    omega
  rw [stage, List.head?_map, run_top block nonempty ran, Option.map_some, List.getLast?_eq_getElem?]
  simp [formulaAt, inside]

end Run

section Decoded

variable {t : Table} {owner : Statement} (coherent : t.Coherent) (proved : owner ∈ t.theorems) (text : String)
  (proof : Proof) (decoded : Proof.decode t owner text = .ok proof) (checkDisjoint : Bool)
  (inspected again : Int)

include coherent proved decoded

theorem expanded_runs : ∃ run expanded, verifyProof t checkDisjoint inspected owner proof = .ok run ∧
    verifyProof t checkDisjoint again owner (proof.expand t) = .ok expanded ∧
    run.verdict = expanded.verdict := by
  obtain ⟨member, asserted⟩ := t.theorem_asserted owner proved
  have nonempty := Proof.decode_nonempty t owner text proof decoded
  have admissible := Proof.decode_admissible t coherent owner member asserted text proof decoded
  have direct := Proof.expanded_admissible coherent proved text proof decoded
  obtain ⟨run, ran, verdict⟩ := verify_proof_settled t coherent checkDisjoint inspected owner proof nonempty
    admissible
  obtain ⟨expanded, ranExpanded, sameVerdict⟩ := verify_proof_settled t coherent checkDisjoint again owner
    (proof.expand t) (Proof.expand_all_nonempty _ proof nonempty)
    (Proof.each_from_all _ 0 fun place instruction present => by
      obtain ⟨⟨position, own, _⟩, _, direct⟩ := direct instruction present
      cases instruction with
      | reuse target => exact absurd rfl (direct target)
      | _ => exact own)
  refine ⟨run, expanded, ran, ranExpanded, ?_⟩
  rw [verdict, sameVerdict, Proof.settled, Proof.settled, Proof.expand_twice coherent proved text proof decoded]

theorem expanded_formula (run expanded : Run)
    (supplied : ¬ Run.Underflows t checkDisjoint
      { owner, proof, inspection := inspectionOf proof inspected } proof)
    (ran : verifyProof t checkDisjoint inspected owner proof = .ok run)
    (ranExpanded : verifyProof t checkDisjoint again owner (proof.expand t) = .ok expanded) :
    run.formulas.getLast? = expanded.formulas.getLast? := by
  obtain ⟨member, asserted⟩ := t.theorem_asserted owner proved
  have admissible := Proof.decode_admissible t coherent owner member asserted text proof decoded
  obtain ⟨nonempty, final, finished, rfl⟩ := (verify_proof_ok ..).mp ran
  obtain ⟨nonemptyExpanded, finalExpanded, finishedExpanded, rfl⟩ := (verify_proof_ok ..).mp ranExpanded
  obtain ⟨_, same, outcome⟩ := run_unfolds t coherent checkDisjoint (Proof.arityAt t proof) proof _ final
    (.initial rfl rfl rfl) ⟨by simp, by simp, by simp⟩ admissible
    (by intro index instruction found; simp [Proof.arityAt, found]) finished
  have along := outcome.resolve_right fun underflow => supplied underflow.1
  have direct : ∀ instruction ∈ proof.expand t, ∀ target, instruction ≠ .reuse target :=
    fun instruction present =>
      (Proof.expanded_admissible coherent proved text proof decoded instruction present).2.2
  have stage : final.stage = finalExpanded.stage := by
    rw [Run.run_stage coherent _ _ finalExpanded direct ⟨by simp, by simp, by simp⟩ finishedExpanded,
      ← along.whole, same]
    rfl
  rw [Run.finish_formulas, Run.finish_formulas, Run.run_last_formula _ _ _ nonempty finished,
    Run.run_last_formula _ _ _ nonemptyExpanded finishedExpanded, stage]

end Decoded

-- The first three parts say what writing a proof does at each step. It ends because a reuse goes back.
theorem plain_form_faithful (name : String) (declarations : List Declaration) (t : Table)
    (built : Table.build name declarations = .ok t) (owner : Statement) (proved : owner ∈ t.theorems)
    (text : String) (proof : Proof) (decoded : Proof.decode t owner text = .ok proof) :
    proof.expand t = (List.range proof.length).flatMap (Proof.written t proof) ∧
      (∀ (step : Nat) target, proof[step]? = some (.reuse target) →
        0 ≤ target ∧ target < step ∧ (∀ inner ∈ Proof.subproofSteps t proof target.toNat, inner < step) ∧
          Proof.written t proof step =
            (Proof.subproofSteps t proof target.toNat).flatMap (Proof.written t proof)) ∧
      (∀ (step : Nat) instruction, proof[step]? = some instruction →
        (∀ target, instruction ≠ .reuse target) → Proof.written t proof step = [instruction]) ∧
      (∀ target, .reuse target ∉ proof.expand t) ∧
      (∀ checkDisjoint inspected again, ∃ run expanded,
        verifyProof t checkDisjoint inspected owner proof = .ok run ∧
          verifyProof t checkDisjoint again owner (proof.expand t) = .ok expanded ∧
          run.verdict = expanded.verdict ∧
          (¬ Run.Underflows t checkDisjoint { owner, proof, inspection := inspectionOf proof inspected } proof →
            run.formulas.getLast? = expanded.formulas.getLast?)) ∧
      ((∀ id, .reference id ∈ proof → ∀ c ∈ (t.labelOf id).toList, isBlank c = false) →
        Proof.decode t owner (Proof.plainText t proof) = .ok (proof.expand t)) := by
  have coherent := Table.build_coherent name declarations t built
  obtain ⟨member, asserted⟩ := t.theorem_asserted owner proved
  have admissible := Proof.decode_admissible t coherent owner member asserted text proof decoded
  refine ⟨Proof.expand_written t proof, ?_, Proof.written_direct, ?_, ?_, ?_⟩
  · intro step target found
    have earlier : 0 ≤ target ∧ target < step := by
      simpa [Instruction.Admissible] using admissible.at 0 proof step _ found
    refine ⟨earlier.1, earlier.2, ?_, Proof.written_reuse step target found earlier⟩
    intro inner inside
    have bound := Proof.subproof_steps_le t proof target.toNat inner inside
    omega
  · intro target present
    exact (Proof.expanded_admissible coherent proved text proof decoded _ present).2.2 target rfl
  · intro checkDisjoint inspected again
    obtain ⟨run, expanded, ran, ranExpanded, verdict⟩ :=
      expanded_runs coherent proved text proof decoded checkDisjoint inspected again
    exact ⟨run, expanded, ran, ranExpanded, verdict, fun supplied =>
      expanded_formula coherent proved text proof decoded checkDisjoint inspected again run expanded supplied
        ran ranExpanded⟩
  · exact fun plain => Proof.plain_reads coherent proved text proof decoded fun id _ => plain id

def sharingDeclarations : List Declaration :=
  [.constantList ["wff", "="], .variableList ["x", "y"], .floating "wx" "wff x", .floating "wy" "wff y",
    .assumed "eq" "wff x = y" ⟨["wx", "wy"], [], []⟩,
    .proved "th" "wff x = x = x = x" ⟨["wx"], [], []⟩ "( eq ) AZCBZDB"]

def sharingTable : Table := (Table.build "sharing" sharingDeclarations).toOption.getD { name := "sharing" }

def sharingTheorem : Statement := (sharingTable.statement 5).getD ⟨5, "", .constantList, [], {}, ""⟩

theorem plain_form_faithful_sample :
    Proof.decode sharingTable sharingTheorem "( eq ) AZCBZDB" =
        .ok [.reference 2, .reuse 0, .reference 4, .reuse 2, .reference 4] ∧
      Proof.decode sharingTable sharingTheorem "wx wx eq wx wx eq eq" =
        .ok [.reference 2, .reference 2, .reference 4, .reference 2, .reference 2, .reference 4, .reference 4] ∧
      ∃ run expanded,
        verifyProof sharingTable true (-1) sharingTheorem
            [.reference 2, .reuse 0, .reference 4, .reuse 2, .reference 4] = .ok run ∧
          verifyProof sharingTable true (-1) sharingTheorem
            [.reference 2, .reference 2, .reference 4, .reference 2, .reference 2, .reference 4,
              .reference 4] = .ok expanded ∧
          run.verdict = expanded.verdict ∧ run.formulas.getLast? = expanded.formulas.getLast? := by
  have decoded : Proof.decode sharingTable sharingTheorem "( eq ) AZCBZDB" =
      .ok [.reference 2, .reuse 0, .reference 4, .reuse 2, .reference 4] := rfl
  obtain ⟨_, _, _, _, runs, reads⟩ := plain_form_faithful "sharing" sharingDeclarations sharingTable rfl
    sharingTheorem (by decide) "( eq ) AZCBZDB" _ decoded
  obtain ⟨run, expanded, ran, ranExpanded, verdict, formula⟩ := runs true (-1) (-1)
  refine ⟨decoded, reads ?_, run, expanded, ran, ranExpanded, verdict, ?_⟩
  · have plain : ∀ id ∈ [(2 : Int), 4],
        (sharingTable.labelOf id).toList.all (fun c => !isBlank c) = true := by decide
    intro id present
    simpa using plain id (by simpa using present)
  · exact formula (Run.supplied_of_height _ _ 1 rfl)

end Lemmata
