import Lemmata.Proofs.Soundness

/-!
Every derivation can be written as a proof that is accepted. The proof of an application is the
proofs of its operands, one behind the other, and then a reference to the rule. With soundness this
says that the theorems that have an accepted proof are exactly the derivable ones.
-/

set_option autoImplicit false

namespace Lemmata

structure Run.Clean (owner : Statement) (run : Run) : Prop where
  proves : run.owner = owner
  fine : run.verdict = .ok
  stack : ∀ step ∈ run.stack, step < run.formulas.length

-- Running the proof puts the formulas on the stack, the last one on top, and leaves what is below.
structure Stacked (owner : Statement) (run next : Run) (steps : List Nat) (formulas : List Formula) :
    Prop where
  clean : next.Clean owner
  grown : run.formulas <+: next.formulas
  stack : next.stack = steps.reverse ++ run.stack
  values : steps.map next.formulaAt = formulas
  last : next.formulas.getLast? = formulas.getLast?.or run.formulas.getLast?

def Pushes (t : Table) (owner : Statement) (proof : Proof) (formulas : List Formula) : Prop :=
  ∀ run : Run, run.Clean owner → ∃ next steps,
    proof.foldlM (Run.step t true) run = .ok next ∧ Stacked owner run next steps formulas

theorem Run.Clean.push (owner : Statement) (run counted : Run) (formula : Formula)
    (clean : counted.Clean owner) (formulas : counted.formulas = run.formulas)
    (stack : counted.stack = run.stack) :
    Stacked owner run (counted.push formula) [run.formulas.length] [formula] := by
  refine ⟨⟨clean.proves, clean.fine, ?_⟩, ?_, ?_, ?_, by simp [Run.push]⟩
  · intro step member
    simp only [Run.push, List.mem_cons, List.length_append, List.length_singleton] at member ⊢
    rcases member with rfl | old
    · omega
    · have bounded := clean.stack step old
      omega
  · rw [← formulas]
    exact List.prefix_append _ _
  · simp only [Run.push, formulas, stack, List.reverse_singleton, List.singleton_append]
  · rw [← formulas, List.map_singleton, Run.formula_at_last]

section Pushing

variable {t : Table} {owner : Statement}

theorem pushes_nothing : Pushes t owner [] [] := by
  intro run clean
  exact ⟨run, [], rfl, clean, List.prefix_rfl, rfl, rfl, rfl⟩

theorem pushes_append (first second : Proof) (left right : List Formula)
    (pushesFirst : Pushes t owner first left) (pushesSecond : Pushes t owner second right) :
    Pushes t owner (first ++ second) (left ++ right) := by
  intro run clean
  obtain ⟨middle, early, ranFirst, stackedFirst⟩ := pushesFirst run clean
  obtain ⟨next, late, ranSecond, stackedSecond⟩ := pushesSecond middle stackedFirst.clean
  refine ⟨next, early ++ late, ?_, stackedSecond.clean,
    stackedFirst.grown.trans stackedSecond.grown, ?_, ?_, ?_⟩
  · rw [List.foldlM_append, ranFirst]
    exact ranSecond
  · rw [stackedSecond.stack, stackedFirst.stack, List.reverse_append, List.append_assoc]
  · rw [List.map_append, stackedSecond.values, ← stackedFirst.values]
    congr 1
    apply List.map_congr_left
    intro step member
    apply Run.formula_at_prefix middle next stackedSecond.grown
    apply stackedFirst.clean.stack
    rw [stackedFirst.stack]
    exact List.mem_append_left _ (List.mem_reverse.mpr member)
  · rw [stackedSecond.last, stackedFirst.last, List.getLast?_append, Option.or_assoc]

theorem pushes_hypothesis (id : Int) (h : Statement) (found : t.statement id = some h)
    (hypothesis : h.isHypothesis = true) : Pushes t owner [.reference id] [h.formula] := by
  intro run clean
  refine ⟨run.push h.formula, [run.formulas.length], ?_, clean.push owner run run _ rfl rfl⟩
  rw [List.foldlM_cons]
  simp only [Run.step, found, hypothesis, if_true]
  rfl

theorem apply_assertion_clean (coherent : t.Coherent) (ownerMember : owner ∈ t.statements)
    (ownerAsserted : owner.isAssertion = true) (rule : Statement) (image : Symbol → Formula)
    (member : rule ∈ t.statements) (asserted : rule.isAssertion = true)
    (nonempty : ∀ v ∈ rule.frame.vars, image v ≠ [])
    (derived : ∀ id ∈ rule.frame.required, Derivable t owner ((t.formulaOf id).instantiate t image))
    (respects : Respects t owner rule image) (run : Run) (clean : run.Clean owner)
    (steps below : List Nat) (stack : run.stack = steps.reverse ++ below)
    (values : steps.map run.formulaAt =
      rule.frame.required.map fun id => (t.formulaOf id).instantiate t image) :
    Stacked owner { run with stack := below } (run.applyAssertion t true rule)
      [run.formulas.length] [rule.formula.instantiate t image] := by
  have length : steps.length = rule.frame.required.length := by
    simpa using congrArg List.length values
  have operands : (run.stack.take rule.frame.required.length).reverse = steps := by
    rw [stack, List.take_left' (by simpa using length), List.reverse_reverse]
  have rest : run.stack.drop rule.frame.required.length = below := by
    rw [stack, List.drop_left' (by simpa using length)]
  have enough : ¬ run.stack.length < rule.frame.required.length := by
    rw [stack, List.length_append, List.length_reverse, length]
    omega
  have operandsDerived : ∀ step ∈ steps, Derivable t owner (run.formulaAt step) := by
    intro step inside
    have value : run.formulaAt step ∈ steps.map run.formulaAt := List.mem_map.mpr ⟨step, inside, rfl⟩
    rw [values] at value
    obtain ⟨id, needed, same⟩ := List.mem_map.mp value
    exact same ▸ derived id needed
  have known : ({ run with stack := below }.applicationOf t rule steps).Known t :=
    Run.application_known coherent ownerMember ownerAsserted rule member asserted steps length
      operandsDerived
  have fits : Fits t rule (steps.map run.formulaAt) image := ⟨nonempty, values.symm⟩
  obtain ⟨noError, formula⟩ := unify_derived coherent known image fits (clean.proves ▸ respects)
  unfold Run.applyAssertion
  simp only [if_neg enough, operands, rest, Run.applyTo, noError, formula]
  refine Run.Clean.push owner _ _ _ ⟨clean.proves, clean.fine, ?_⟩ rfl rfl
  intro step inside
  apply clean.stack
  rw [stack]
  exact List.mem_append_right _ inside

theorem pushes_application (coherent : t.Coherent) (ownerMember : owner ∈ t.statements)
    (ownerAsserted : owner.isAssertion = true) (rule : Statement) (image : Symbol → Formula)
    (member : rule ∈ t.statements) (asserted : rule.isAssertion = true)
    (nonempty : ∀ v ∈ rule.frame.vars, image v ≠ [])
    (derived : ∀ id ∈ rule.frame.required, Derivable t owner ((t.formulaOf id).instantiate t image))
    (respects : Respects t owner rule image) (proof : Proof)
    (pushes : Pushes t owner proof
      (rule.frame.required.map fun id => (t.formulaOf id).instantiate t image)) :
    Pushes t owner (proof ++ [.reference rule.id]) [rule.formula.instantiate t image] := by
  intro run clean
  obtain ⟨middle, steps, ran, stacked⟩ := pushes run clean
  have applied := apply_assertion_clean coherent ownerMember ownerAsserted rule image member asserted
    nonempty derived respects middle stacked.clean steps run.stack stacked.stack stacked.values
  refine ⟨middle.applyAssertion t true rule, [middle.formulas.length], ?_, applied.clean,
    stacked.grown.trans applied.grown, applied.stack, applied.values, ?_⟩
  · rw [List.foldlM_append, ran]
    simp only [List.foldlM_cons, Run.step, coherent.statement_of_member rule member, asserted,
      rule.assertion_not_hypothesis asserted, Bool.false_eq_true, if_false, if_true]
    rfl
  · rw [applied.last]
    rfl

def Instruction.Usable (t : Table) (owner : Statement) (instruction : Instruction) : Prop :=
  ∀ position, instruction.Admissible t owner position

theorem operands_push (formulas : List Formula)
    (each : ∀ formula ∈ formulas, ∃ proof : Proof,
      (∀ instruction ∈ proof, instruction.Usable t owner) ∧ Pushes t owner proof [formula]) :
    ∃ proof : Proof, (∀ instruction ∈ proof, instruction.Usable t owner) ∧
      Pushes t owner proof formulas := by
  induction formulas with
  | nil => exact ⟨[], by simp, pushes_nothing⟩
  | cons formula rest ih =>
      obtain ⟨first, firstUsable, firstPushes⟩ := each formula List.mem_cons_self
      obtain ⟨others, othersUsable, othersPush⟩ :=
        ih fun other member => each other (List.mem_cons_of_mem formula member)
      refine ⟨first ++ others, ?_, pushes_append first others [formula] rest firstPushes othersPush⟩
      intro instruction member
      rcases List.mem_append.mp member with early | late
      · exact firstUsable instruction early
      · exact othersUsable instruction late

theorem derivable_pushes (coherent : t.Coherent) (ownerMember : owner ∈ t.statements)
    (ownerAsserted : owner.isAssertion = true) (formula : Formula)
    (derived : Derivable t owner formula) :
    ∃ proof : Proof, (∀ instruction ∈ proof, instruction.Usable t owner) ∧
      Pushes t owner proof [formula] := by
  induction derived with
  | hypothesis id h usable found =>
      obtain ⟨other, same, hypothesis, _⟩ :=
        (coherent.framed ownerMember ownerAsserted).usable id usable
      cases found.symm.trans same
      refine ⟨[.reference id], ?_, pushes_hypothesis id h found hypothesis⟩
      intro instruction member position
      rw [List.mem_singleton.mp member]
      refine ⟨h, found, Or.inr ⟨hypothesis, ?_⟩⟩
      simpa [Frame.contains] using usable
  | application rule image member asserted earlier nonempty operands respects ih =>
      obtain ⟨proof, usable, pushes⟩ := operands_push
        (rule.frame.required.map fun id => (t.formulaOf id).instantiate t image) (by
          intro operand present
          obtain ⟨id, needed, rfl⟩ := List.mem_map.mp present
          exact ih id needed)
      refine ⟨proof ++ [.reference rule.id], ?_, pushes_application coherent ownerMember ownerAsserted
        rule image member asserted nonempty operands respects proof pushes⟩
      intro instruction present position
      rcases List.mem_append.mp present with early | last
      · exact usable instruction early position
      · rw [List.mem_singleton.mp last]
        exact ⟨rule, coherent.statement_of_member rule member, Or.inl ⟨asserted, earlier⟩⟩

end Pushing

theorem Run.finish_proved (t : Table) (run : Run) (known : run.owner.formula ≠ [])
    (last : run.formulas.getLast? = some run.owner.formula) : run.finish t = run := by
  have present : Formula.isUnknown run.owner.formula = false := by
    simpa [Formula.isUnknown] using known
  simp [Run.finish, last, present]

def Accepts (t : Table) (inspected : Int) (owner : Statement) (proof : Proof) : Prop :=
  ∃ run, verifyProof t true inspected owner proof = .ok run ∧ run.verdict = .ok

-- What a proof leaves on the stack below its last formula does not matter.
theorem pushed_accepted (t : Table) (coherent : t.Coherent) (owner : Statement)
    (member : owner ∈ t.statements) (asserted : owner.isAssertion = true) (inspected : Int)
    (proof : Proof) (below : List Formula) (pushes : Pushes t owner proof (below ++ [owner.formula])) :
    Accepts t inspected owner proof := by
  obtain ⟨final, steps, ran, stacked⟩ := pushes
    { owner, proof, inspection := inspectionOf proof inspected } ⟨rfl, rfl, by simp⟩
  have last : final.formulas.getLast? = some final.owner.formula := by
    rw [stacked.last, stacked.clean.proves, List.getLast?_concat]
    rfl
  have known : final.owner.formula ≠ [] := by
    rw [stacked.clean.proves]
    exact (coherent.conclusion_formed member asserted).nonempty
  have nonempty : proof ≠ [] := by
    rintro rfl
    cases ran
    cases last
  exact ⟨final, (verify_proof_ok t true inspected owner proof final).mpr
    ⟨nonempty, final, ran, final.finish_proved t known last⟩, stacked.clean.fine⟩

theorem verify_proof_complete (t : Table) (coherent : t.Coherent) (owner : Statement)
    (member : owner ∈ t.statements) (asserted : owner.isAssertion = true) (inspected : Int)
    (derived : Derivable t owner owner.formula) :
    ∃ proof : Proof, proof.EachFrom (Instruction.Admissible t owner) 0 ∧
      Accepts t inspected owner proof := by
  obtain ⟨proof, usable, pushes⟩ := derivable_pushes coherent member asserted owner.formula derived
  exact ⟨proof, proof.each_from_all 0 fun position instruction present =>
    usable instruction present position, pushed_accepted t coherent owner member asserted inspected proof []
    pushes⟩

theorem accepted_iff_derivable (name : String) (declarations : List Declaration) (t : Table)
    (built : Table.build name declarations = .ok t) (owner : Statement) (proved : owner ∈ t.theorems)
    (inspected : Int) :
    ((∃ proof : Proof, proof.EachFrom (Instruction.Admissible t owner) 0 ∧
        Accepts t inspected owner proof) ↔ Derivable t owner owner.formula) ∧
      ∀ run, verify t true inspected owner = .ok run → run.verdict = .ok →
        Derivable t owner owner.formula := by
  have coherent := Table.build_coherent name declarations t built
  obtain ⟨member, asserted⟩ := t.theorem_asserted owner proved
  refine ⟨⟨?_, verify_proof_complete t coherent owner member asserted inspected⟩, ?_⟩
  · rintro ⟨proof, admissible, run, verified, fine⟩
    exact verify_proof_sound t coherent owner member asserted inspected proof admissible run verified
      fine
  · exact verify_sound t coherent owner member inspected

theorem accepted_iff_derivable_sample :
    sampleStatement 8 ∈ sampleTable.theorems ∧
      Derivable sampleTable (sampleStatement 8) (sampleStatement 8).formula ∧
      ∃ proof : Proof, proof.EachFrom (Instruction.Admissible sampleTable (sampleStatement 8)) 0 ∧
        Accepts sampleTable (-1) (sampleStatement 8) proof := by
  have settled := accepted_iff_derivable "sample" sampleDeclarations sampleTable sample_built
    (sampleStatement 8) (by decide) (-1)
  have derived : Derivable sampleTable (sampleStatement 8) (sampleStatement 8).formula :=
    settled.2 _ rfl rfl
  exact ⟨by decide, derived, settled.1.mpr derived⟩

end Lemmata
