import Lemmata.Proofs.Soundness

/-!
Theorems as lemmas. An application of a verified theorem can be replaced by its own derivation with
the variables replaced, so whatever verified theorems yield also follows from assertions that need
no proof. The disjointness that the theorem was proved under passes through the replacement.
-/

set_option autoImplicit false

namespace Lemmata

section Frames

variable {t : Table} {s owner : Statement} {image : Symbol → Formula}

theorem Frame.allows_disjoint_comm (frame : Frame) (x y : Symbol) :
    frame.allowsDisjoint x y = frame.allowsDisjoint y x := by
  unfold Frame.allowsDisjoint
  rw [Pair.of_comm]

theorem Separated.symm {left right : Formula} (separated : Separated t owner left right) :
    Separated t owner right left := by
  intro x xMember xVar y yMember yVar
  obtain ⟨different, allowed⟩ := separated y yMember yVar x xMember xVar
  exact ⟨different.symm, owner.frame.allows_disjoint_comm y x ▸ allowed⟩

theorem Statement.Framed.required_pair (framed : s.Framed t) (x y : Symbol) (xUsed : x ∈ s.frame.vars)
    (yUsed : y ∈ s.frame.vars) (allowed : s.frame.allowsDisjoint x y = true) :
    Pair.of x y ∈ s.frame.disjoint := by
  have both : (Pair.of x y).a ∈ s.frame.vars ∧ (Pair.of x y).b ∈ s.frame.vars := by
    unfold Pair.of
    split
    · exact ⟨yUsed, xUsed⟩
    · exact ⟨xUsed, yUsed⟩
  simp only [Frame.allowsDisjoint, Bool.or_eq_true, List.contains_iff_mem] at allowed
  rcases allowed with required | optional
  · exact required
  · exact absurd both (framed.optionalDisjoint _ optional)

theorem Respects.separated (framed : s.Framed t) (respects : Respects t owner s image) (x y : Symbol)
    (xUsed : x ∈ s.frame.vars) (yUsed : y ∈ s.frame.vars)
    (allowed : s.frame.allowsDisjoint x y = true) : Separated t owner (image x) (image y) := by
  have separated := respects _ (framed.required_pair x y xUsed yUsed allowed)
  unfold Pair.of at separated
  split at separated
  · exact separated.symm
  · exact separated

end Frames

section Composition

variable {t : Table} {owner used : Statement} {image inner : Symbol → Formula}

theorem assumed_asserted (rule : Statement) (assumed : rule.kind = .assumed) :
    rule.isAssertion = true := by
  simp [Statement.isAssertion, assumed, Kind.isAssertion]

theorem grounded_vars (coherent : t.Coherent) (member : used ∈ t.statements)
    (asserted : used.isAssertion = true) (formula : Formula) (grounded : Grounded t used formula) :
    ∀ x ∈ formula, t.isVariable x = true → x ∈ used.frame.vars := by
  refine derivation_symbols coherent assumed_asserted _ ?_ ?_ formula grounded
  · intro id needed x present var
    exact coherent.required_vars member asserted id needed x present var
  · intro x _ const var
    simp [const] at var

theorem image_vars (coherent : t.Coherent) (member : used ∈ t.statements)
    (asserted : used.isAssertion = true) (rule : Statement) (ruleMember : rule ∈ t.statements)
    (ruleAsserted : rule.isAssertion = true)
    (operands : ∀ id ∈ rule.frame.required,
      Grounded t used ((t.formulaOf id).instantiate t inner))
    (v : Symbol) (typed : v ∈ rule.frame.vars) (x : Symbol) (present : x ∈ inner v)
    (var : t.isVariable x = true) : x ∈ used.frame.vars := by
  obtain ⟨vVar, id, needed, typecode, shape, _⟩ := coherent.var_typed ruleMember ruleAsserted v typed
  apply grounded_vars coherent member asserted _ (operands id needed) x _ var
  exact (Formula.mem_instantiate _ x).mpr (Or.inr ⟨v, by simp [shape], vVar, present⟩)

-- A clash after both replacements comes from two variables of the theorem whose images clash, and
-- the theorem keeps these two variables apart.
theorem respects_compose (coherent : t.Coherent) (member : used ∈ t.statements)
    (asserted : used.isAssertion = true) (respects : Respects t owner used image) (rule : Statement)
    (ruleMember : rule ∈ t.statements) (ruleAsserted : rule.isAssertion = true)
    (operands : ∀ id ∈ rule.frame.required,
      Grounded t used ((t.formulaOf id).instantiate t inner))
    (innerRespects : Respects t used rule inner) :
    Respects t owner rule fun v => (inner v).instantiate t image := by
  intro pair required x xPresent xVar y yPresent yVar
  have origin : ∀ v z, t.isVariable z = true → z ∈ (inner v).instantiate t image →
      ∃ u ∈ inner v, t.isVariable u = true ∧ z ∈ image u := by
    intro v z var present
    rcases (Formula.mem_instantiate _ z).mp present with ⟨_, const⟩ | found
    · simp [const] at var
    · exact found
  obtain ⟨u, uPresent, uVar, inU⟩ := origin pair.a x xVar xPresent
  obtain ⟨w, wPresent, wVar, inW⟩ := origin pair.b y yVar yPresent
  obtain ⟨left, right⟩ := (coherent.framed ruleMember ruleAsserted).disjoint pair required
  have uUsed := image_vars coherent member asserted rule ruleMember ruleAsserted operands pair.a left
    u uPresent uVar
  have wUsed := image_vars coherent member asserted rule ruleMember ruleAsserted operands pair.b right
    w wPresent wVar
  have allowed := (innerRespects pair required u uPresent uVar w wPresent wVar).2
  exact respects.separated (coherent.framed member asserted) u w uUsed wUsed allowed
    x inU xVar y inW yVar

theorem grounded_instantiate (coherent : t.Coherent) (member : used ∈ t.statements)
    (asserted : used.isAssertion = true) (earlier : used.id < owner.id)
    (nonempty : ∀ v ∈ used.frame.vars, image v ≠ [])
    (hypotheses : ∀ id ∈ used.frame.required,
      Grounded t owner ((t.formulaOf id).instantiate t image))
    (respects : Respects t owner used image) (formula : Formula) (grounded : Grounded t used formula) :
    Grounded t owner (formula.instantiate t image) := by
  induction grounded with
  | hypothesis id h needed found =>
      rw [← t.formula_of_statement id h found]
      exact hypotheses id needed
  | application rule inner ruleMember assumed before innerNonempty operands innerRespects ih =>
      have ruleAsserted := assumed_asserted rule assumed
      rw [Formula.instantiate_instantiate]
      refine .application rule _ ruleMember assumed (Int.lt_trans before earlier) ?_ ?_ ?_
      · intro v typed
        apply Formula.instantiate_nonempty (inner v) (innerNonempty v typed)
        intro x present var
        exact nonempty x (image_vars coherent member asserted rule ruleMember ruleAsserted operands
          v typed x present var)
      · intro id needed
        rw [← Formula.instantiate_instantiate]
        exact ih id needed
      · exact respects_compose coherent member asserted respects rule ruleMember ruleAsserted operands
          innerRespects

end Composition

theorem grounded_of_lemmas (t : Table) (coherent : t.Coherent) (owner : Statement)
    (lemmas : ∀ used ∈ t.theorems, used.id < owner.id → Grounded t used used.formula)
    (formula : Formula)
    (derived : Derivation t owner owner.frame.required (fun rule => rule.isAssertion = true) formula) :
    Grounded t owner formula := by
  induction derived with
  | hypothesis id h needed found => exact .hypothesis id h needed found
  | application rule image member asserted earlier nonempty operands respects ih =>
      cases kind : rule.kind with
      | assumed => exact .application rule image member kind earlier nonempty ih respects
      | proved =>
          have proved : rule ∈ t.theorems := List.mem_filter.mpr ⟨member, by simp [kind]⟩
          exact grounded_instantiate coherent member asserted earlier nonempty ih respects rule.formula
            (lemmas rule proved earlier)
      | _ => simp [Statement.isAssertion, kind, Kind.isAssertion] at asserted

-- The theorem and every theorem before it are accepted, and none has optional hypotheses.
def VerifiedUpTo (t : Table) (inspected : Int) (owner : Statement) : Prop :=
  ∀ other ∈ t.theorems, other.id ≤ owner.id → other.frame.optional = [] ∧
    ∃ run, verify t true inspected other = .ok run ∧ run.verdict = .ok

-- By induction on the position of the theorem.
theorem verified_grounded (name : String) (declarations : List Declaration) (t : Table)
    (built : Table.build name declarations = .ok t) (inspected : Int) (owner : Statement)
    (proved : owner ∈ t.theorems) (verified : VerifiedUpTo t inspected owner) :
    Grounded t owner owner.formula := by
  have coherent := Table.build_coherent name declarations t built
  obtain ⟨member, asserted⟩ := t.theorem_asserted owner proved
  have nonnegative := (coherent.id_bounds owner member).1
  induction position : owner.id.toNat using Nat.strongRecOn generalizing owner with
  | ind position ih =>
      obtain ⟨noOptional, run, accepted, fine⟩ := verified owner proved (Int.le_refl _)
      have derived := verify_sound t coherent owner member inspected run accepted fine
      unfold Derivable at derived
      rw [noOptional, List.append_nil] at derived
      refine grounded_of_lemmas t coherent owner ?_ owner.formula derived
      intro used usedProved earlier
      obtain ⟨usedMember, usedAsserted⟩ := t.theorem_asserted used usedProved
      have usedNonnegative := (coherent.id_bounds used usedMember).1
      refine ih used.id.toNat (by omega) used usedProved ?_ usedMember usedAsserted usedNonnegative rfl
      intro other otherProved before
      exact verified other otherProved (Int.le_trans before (Int.le_of_lt earlier))

theorem verified_grounded_sample :
    sampleStatement 8 ∈ sampleTable.theorems ∧ VerifiedUpTo sampleTable (-1) (sampleStatement 8) ∧
      Grounded sampleTable (sampleStatement 8) (sampleStatement 8).formula := by
  have proved : sampleStatement 8 ∈ sampleTable.theorems := by decide
  have verified : VerifiedUpTo sampleTable (-1) (sampleStatement 8) := by
    intro other member _
    have all : sampleTable.theorems = [sampleStatement 7, sampleStatement 8] := rfl
    rw [all] at member
    rcases List.mem_pair.mp member with rfl | rfl
    · exact ⟨rfl, _, rfl, rfl⟩
    · exact ⟨rfl, _, rfl, rfl⟩
  exact ⟨proved, verified,
    verified_grounded "sample" sampleDeclarations sampleTable sample_built (-1) (sampleStatement 8) proved
      verified⟩

end Lemmata
