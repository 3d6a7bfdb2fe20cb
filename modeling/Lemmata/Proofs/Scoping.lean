import Lemmata.Proofs.Applications
import Lemmata.Proofs.Exactness

/-!
What the formulas of a run are made of. A run starts from the hypotheses of the theorem that it proves,
and substitution only moves their symbols around; so a variable never leaves the scope of the theorem,
neither in the formula of a step nor in a substitution.
-/

set_option autoImplicit false

namespace Lemmata

def Statement.Sees (t : Table) (owner : Statement) (x : Symbol) : Prop :=
  x ∈ owner.frame.vars ∨ ∃ id ∈ owner.frame.optional, x ∈ t.formulaOf id

def Formula.Scoped (t : Table) (owner : Statement) (formula : Formula) : Prop :=
  ∀ x ∈ formula, t.Declares x ∧ (t.isVariable x = true → owner.Sees t x)

theorem Formula.Scoped.separator_free {t : Table} {owner : Statement} {formula : Formula}
    (confined : formula.Scoped t owner) : separator ∉ formula :=
  fun present => t.separator_undeclared (confined separator present).1

namespace Matching

variable {t : Table} {pairs : List (Formula × Formula)}

theorem solution_bindings (patternsFree : ∀ pair ∈ pairs, separator ∉ pair.1)
    (instancesFree : ∀ pair ∈ pairs, separator ∉ pair.2) (limit : Nat) (positive : 0 < limit)
    (subst : Substitution)
    (found : subst ∈ (solve t limit (pairs.map Prod.fst) (pairs.map Prod.snd)).solutions)
    (binding : Binding) (member : binding ∈ subst) :
    (t.isVariable binding.var = true ∧ ∃ pair ∈ pairs, binding.var ∈ pair.1) ∧ binding.value ≠ [] ∧
      ∀ x ∈ binding.value, ∃ pair ∈ pairs, x ∈ pair.2 := by
  rw [solve_solutions t limit positive] at found
  obtain ⟨solves, same⟩ :=
    (mem_solutions_solves patternsFree instancesFree subst).mp (List.mem_of_mem_take found)
  rw [same] at member
  have value := (solves.recorded_window binding member).1
  have used : binding.var ∈ varsOf t pairs := by
    rw [← recorded_vars subst.image]
    exact List.mem_map_of_mem member
  obtain ⟨⟨pair, inside, occurs⟩, var⟩ := (mem_vars_of binding.var).mp used
  refine ⟨⟨var, pair, inside, occurs⟩, value ▸ (solves.assigned binding.var).mpr used, ?_⟩
  intro x present
  refine ⟨pair, inside, ?_⟩
  rw [← solves.instances pair inside]
  exact (Formula.mem_instantiate pair.1 x).mpr (Or.inr ⟨binding.var, occurs, var, value ▸ present⟩)

end Matching

namespace Application

open Matching

-- The substitutions that an application computes: its outcome, what the search found, and what was found
-- for the front parts of the hypotheses when one of them has to be blamed.
inductive Computes (t : Table) (checkDisjoint : Bool) (app : Application) : Substitution → Prop
  | outcome : Computes t checkDisjoint app (app.unify t checkDisjoint).subst
  | solution (subst : Substitution)
      (found : subst ∈ (solve t 2 (app.known.map Prod.fst) (app.known.map Prod.snd)).solutions) :
      Computes t checkDisjoint app subst
  | front (count : Nat) (subst : Substitution)
      (found : subst ∈ (solve t 1 (app.patterns.take count) (app.instances.take count)).solutions) :
      Computes t checkDisjoint app subst

variable {t : Table} {checkDisjoint : Bool} {app : Application}

theorem unify_subst : (app.unify t checkDisjoint).subst = [] ∨
    (app.unify t checkDisjoint).subst ∈
      (solve t 2 (app.known.map Prod.fst) (app.known.map Prod.snd)).solutions := by
  unfold unify
  dsimp only
  split
  · split <;> exact Or.inl rfl
  · rename_i first second others several
    rw [several]
    split <;> exact Or.inr List.mem_cons_self
  · rename_i subst single
    rw [single]
    split
    · exact Or.inr List.mem_cons_self
    · split
      · exact Or.inr List.mem_cons_self
      · split <;> exact Or.inr List.mem_cons_self

theorem Computes.searched {subst : Substitution} (length : app.patterns.length = app.instances.length)
    (computed : app.Computes t checkDisjoint subst) :
    subst = [] ∨ ∃ limit pairs, 0 < limit ∧ pairs ⊆ app.patterns.zip app.instances ∧
      subst ∈ (solve t limit (pairs.map Prod.fst) (pairs.map Prod.snd)).solutions := by
  have subset : app.known ⊆ app.patterns.zip app.instances :=
    fun pair member => (app.mem_known pair.1 pair.2 member).1
  cases computed with
  | outcome => exact unify_subst.imp_right fun found => ⟨2, app.known, by decide, subset, found⟩
  | solution subst found => exact Or.inr ⟨2, app.known, by decide, subset, found⟩
  | front count subst found =>
      refine Or.inr ⟨1, (app.patterns.zip app.instances).take count, Nat.one_pos, List.take_subset _ _, ?_⟩
      rwa [List.map_take, List.map_take, List.map_fst_zip (Nat.le_of_eq length),
        List.map_snd_zip (Nat.le_of_eq length.symm)]

end Application

namespace Run

variable {t : Table} {checkDisjoint : Bool} {owner : Statement} {run next : Run} {instruction : Instruction}

structure Scoped (t : Table) (owner : Statement) (run : Run) : Prop where
  sane : run.Sane t
  seen : ∀ formula ∈ run.formulas, ∀ x ∈ formula, t.isVariable x = true → owner.Sees t x

theorem Scoped.formula (confined : run.Scoped t owner) (formula : Formula) (member : formula ∈ run.formulas) :
    formula.Scoped t owner := by
  intro x present
  refine ⟨?_, confined.seen formula member x present⟩
  rcases confined.sane.formed formula member with rfl | formed
  · cases present
  · exact formed.declared x present

theorem hypothesis_seen (coherent : t.Coherent) (member : owner ∈ t.statements)
    (asserted : owner.isAssertion = true) (id : Int) (usable : owner.frame.contains id = true) (x : Symbol)
    (present : x ∈ t.formulaOf id) (var : t.isVariable x = true) : owner.Sees t x := by
  simp only [Frame.contains, Frame.index_of_is_some, Bool.or_eq_true, List.contains_iff_mem] at usable
  rcases usable with required | optional
  · exact Or.inl (coherent.required_vars member asserted id required x present var)
  · exact Or.inr ⟨id, optional, present⟩

-- A variable of the new formula comes from a hypothesis of the theorem, or from an earlier formula: the
-- constants of an applied assertion stay, and its variables are replaced.
theorem step_scoped (coherent : t.Coherent) (member : owner ∈ t.statements)
    (asserted : owner.isAssertion = true)
    (admissible : instruction.Admissible t owner run.formulas.length) (confined : run.Scoped t owner)
    (stepped : run.step t checkDisjoint instruction = .ok next) : next.Scoped t owner := by
  refine ⟨step_sane coherent confined.sane stepped, ?_⟩
  suffices ∃ formula, next.formulas = run.formulas ++ [formula] ∧
      ∀ x ∈ formula, t.isVariable x = true → owner.Sees t x by
    obtain ⟨formula, formulas, seen⟩ := this
    intro other present
    rw [formulas, List.mem_append, List.mem_singleton] at present
    rcases present with old | rfl
    · exact confined.seen other old
    · exact seen
  cases step_performs stepped with
  | opened => exact ⟨[], rfl, by simp⟩
  | reused target inside => exact ⟨_, rfl, confined.seen _ (run.formula_at_mem target inside)⟩
  | hypothesis id h found supposed =>
      obtain ⟨s, same, usable⟩ := admissible
      obtain rfl : h = s := Option.some.inj (found.symm.trans same)
      have contained : owner.frame.contains id = true := by
        rcases usable with ⟨claimed, _⟩ | ⟨_, contained⟩
        · simp [h.hypothesis_not_assertion supposed] at claimed
        · exact contained
      refine ⟨h.formula, rfl, fun x present => ?_⟩
      rw [← t.formula_of_statement id h found] at present
      exact hypothesis_seen coherent member asserted id contained x present
  | missing id s message found applied few => exact ⟨[], by simp [push], by simp⟩
  | applied id s found applied enough =>
      refine ⟨_, apply_to_formulas .., fun x present var => ?_⟩
      rcases Application.unify_symbols x present with ⟨_, const⟩ | ⟨operand, inside, used⟩
      · simp [const] at var
      · obtain ⟨step, taken, rfl⟩ := List.mem_map.mp inside
        have made := confined.sane.stack step (List.mem_of_mem_take (List.mem_reverse.mp taken))
        exact confined.seen _ (run.formula_at_mem step made) x used var

theorem call_scoped (coherent : t.Coherent) (confined : run.Scoped t owner) (found : Call)
    (called : run.call t instruction = some found) (subst : Substitution)
    (computed : found.application.Computes t checkDisjoint subst) (binding : Binding)
    (bound : binding ∈ subst) :
    binding.var ∈ found.application.assertion.frame.vars ∧ binding.value ≠ [] ∧
      binding.value.Scoped t owner := by
  obtain ⟨id, s, rfl, stands, asserted, enough, rfl⟩ := (call_iff found).mp called
  have member := t.member_of_statement id s stands
  have made : ∀ step ∈ (run.stack.take s.frame.required.length).reverse, step < run.formulas.length :=
    fun step taken => confined.sane.stack step (List.mem_of_mem_take (List.mem_reverse.mp taken))
  have instances : ∀ operand ∈ (run.stack.take s.frame.required.length).reverse.map run.formulaAt,
      operand.Scoped t owner := by
    intro operand inside
    obtain ⟨step, taken, rfl⟩ := List.mem_map.mp inside
    exact confined.formula _ (run.formula_at_mem step (made step taken))
  rcases computed.searched (by simp [applicationOf, Nat.min_eq_left enough]) with rfl |
    ⟨limit, pairs, positive, subset, solution⟩
  · cases bound
  · have sides : ∀ pair ∈ pairs, (∃ id ∈ s.frame.required, t.formulaOf id = pair.1) ∧
        pair.2.Scoped t owner := by
      intro pair inside
      obtain ⟨left, right⟩ := List.of_mem_zip (subset inside)
      exact ⟨List.mem_map.mp left, instances pair.2 right⟩
    obtain ⟨⟨var, pair, inside, occurs⟩, nonempty, pieces⟩ :=
      Matching.solution_bindings
        (fun pair inside => by
          obtain ⟨id, needed, same⟩ := (sides pair inside).1
          exact same ▸ (coherent.required_formed member asserted id needed).separator_free)
        (fun pair inside => (sides pair inside).2.separator_free) limit positive subst solution binding bound
    obtain ⟨id, needed, same⟩ := (sides pair inside).1
    refine ⟨coherent.required_vars member asserted id needed _ (same ▸ occurs) var, nonempty, ?_⟩
    intro x present
    obtain ⟨source, seen, used⟩ := pieces x present
    exact (sides source seen).2 x used

end Run

theorem steps_well_scoped (name : String) (declarations : List Declaration) (t : Table)
    (built : Table.build name declarations = .ok t) (owner : Statement) (proved : owner ∈ t.theorems)
    (text : String) (proof : Proof) (decoded : Proof.decode t owner text = .ok proof)
    (checkDisjoint : Bool) (inspected : Int) :
    ∃ run calls, verifyProof t checkDisjoint inspected owner proof = .ok run ∧
      calls = Run.calls t checkDisjoint { owner, proof, inspection := inspectionOf proof inspected } proof ∧
      run.unifications = calls.length ∧
      (∀ formula ∈ run.formulas, formula = [] ∨
        (∃ head tail, formula = head :: tail ∧ t.isVariable head = false) ∧ formula.Scoped t owner ∧
          separator ∉ formula) ∧
      ∀ call ∈ calls, ∀ subst, call.application.Computes t checkDisjoint subst → ∀ binding ∈ subst,
        binding.var ∈ call.application.assertion.frame.vars ∧ binding.value ≠ [] ∧
          binding.value.Scoped t owner ∧ separator ∉ binding.value := by
  have coherent := Table.build_coherent name declarations t built
  obtain ⟨member, asserted⟩ := t.theorem_asserted owner proved
  have admissible := Proof.decode_admissible t coherent owner member asserted text proof decoded
  let start : Run := { owner, proof, inspection := inspectionOf proof inspected }
  have initial : start.Scoped t owner := ⟨⟨by simp [start], by simp [start], by simp [start]⟩, by simp [start]⟩
  have preserved : ∀ (run : Run) instruction next, Instruction.Admissible t owner run.formulas.length instruction →
      run.Scoped t owner → run.step t checkDisjoint instruction = .ok next → next.Scoped t owner :=
    fun run instruction next allowed confined stepped =>
      Run.step_scoped coherent member asserted allowed confined stepped
  obtain ⟨final, finished⟩ := Run.run_progress checkDisjoint owner proof start admissible
  have confined := Run.run_forall (fun run => run.Scoped t owner) preserved proof start final admissible initial
    finished
  refine ⟨final.finish t, _, (verify_proof_ok ..).mpr ⟨Proof.decode_nonempty t owner text proof decoded, final,
    finished, rfl⟩, rfl, ?_, ?_, ?_⟩
  · rw [Run.finish_unifications, Run.run_unifications proof start final finished]
    exact Nat.zero_add _
  · intro formula present
    rw [Run.finish_formulas] at present
    rcases confined.sane.formed formula present with unknown | formed
    · exact Or.inl unknown
    · exact Or.inr ⟨formed.headed, confined.formula formula present, formed.separator_free⟩
  · refine Run.calls_forall (fun run => run.Scoped t owner) _ preserved ?_ proof start admissible initial
    intro run instruction found allowed confined called subst computed binding bound
    obtain ⟨var, nonempty, value⟩ := Run.call_scoped coherent confined found called subst computed binding bound
    exact ⟨var, nonempty, value, value.separator_free⟩

theorem steps_well_scoped_sample :
    sampleStatement 8 ∈ sampleTable.theorems ∧
      Proof.decode sampleTable (sampleStatement 8) (sampleStatement 8).proof =
        .ok [.reference 3, .reference 2, .reference 5, .reference 7] ∧
      ∃ run, verifyProof sampleTable true (-1) (sampleStatement 8)
          [.reference 3, .reference 2, .reference 5, .reference 7] = .ok run ∧ run.unifications = 1 ∧
        ∀ formula ∈ run.formulas, formula = [] ∨ formula.Scoped sampleTable (sampleStatement 8) := by
  have proved : sampleStatement 8 ∈ sampleTable.theorems := by decide
  have decoded : Proof.decode sampleTable (sampleStatement 8) (sampleStatement 8).proof =
      .ok [.reference 3, .reference 2, .reference 5, .reference 7] := rfl
  obtain ⟨run, calls, verified, same, counted, formulas, _⟩ := steps_well_scoped "sample" sampleDeclarations
    sampleTable sample_built (sampleStatement 8) proved _ _ decoded true (-1)
  refine ⟨proved, decoded, run, verified, ?_, fun formula member => ?_⟩
  · rw [counted, same]
    decide
  · exact (formulas formula member).imp_right fun known => known.2.1

end Lemmata
