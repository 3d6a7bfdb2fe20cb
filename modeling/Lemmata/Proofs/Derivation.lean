import Lemmata.Proofs.Fitting

/-!
Derivability. The formulas that a set of hypotheses and rules yields are the smallest collection
that contains the hypotheses and every conclusion of a rule whose operands it contains.
-/

set_option autoImplicit false

namespace Lemmata

inductive Derivation (t : Table) (owner : Statement) (hypotheses : List Int)
    (rules : Statement → Prop) : Formula → Prop
  | hypothesis (id : Int) (h : Statement) (usable : id ∈ hypotheses)
      (found : t.statement id = some h) : Derivation t owner hypotheses rules h.formula
  | application (rule : Statement) (image : Symbol → Formula) (member : rule ∈ t.statements)
      (allowed : rules rule) (earlier : rule.id < owner.id)
      (nonempty : ∀ v ∈ rule.frame.vars, image v ≠ [])
      (operands : ∀ id ∈ rule.frame.required,
        Derivation t owner hypotheses rules ((t.formulaOf id).instantiate t image))
      (respects : Respects t owner rule image) :
      Derivation t owner hypotheses rules (rule.formula.instantiate t image)

-- All hypotheses of the frame, and every earlier assertion.
def Derivable (t : Table) (owner : Statement) (formula : Formula) : Prop :=
  Derivation t owner (owner.frame.required ++ owner.frame.optional)
    (fun rule => rule.isAssertion = true) formula

-- Only the required hypotheses, and only assertions that need no proof.
def Grounded (t : Table) (owner : Statement) (formula : Formula) : Prop :=
  Derivation t owner owner.frame.required (fun rule => rule.kind = .assumed) formula

section Derivation

variable {t : Table} {owner : Statement} {hypotheses : List Int} {rules : Statement → Prop}

theorem application_symbols (coherent : t.Coherent) (rule : Statement) (image : Symbol → Formula)
    (member : rule ∈ t.statements) (asserted : rule.isAssertion = true) (x : Symbol)
    (present : x ∈ rule.formula.instantiate t image) :
    (t.Declares x ∧ t.isVariable x = false) ∨
      ∃ id ∈ rule.frame.required, x ∈ (t.formulaOf id).instantiate t image := by
  rcases (Formula.mem_instantiate rule.formula x).mp present with ⟨own, const⟩ | ⟨v, used, var, inside⟩
  · exact Or.inl ⟨(coherent.conclusion_formed member asserted).declared x own, const⟩
  · have required := coherent.conclusion_vars member asserted v used var
    obtain ⟨_, id, needed, typecode, shape, _⟩ := coherent.var_typed member asserted v required
    refine Or.inr ⟨id, needed, (Formula.mem_instantiate _ x).mpr (Or.inr ⟨v, ?_, var, inside⟩)⟩
    simp [shape]

theorem derivation_symbols (coherent : t.Coherent)
    (asserted : ∀ rule, rules rule → rule.isAssertion = true) (property : Symbol → Prop)
    (start : ∀ id ∈ hypotheses, ∀ x ∈ t.formulaOf id, property x)
    (constants : ∀ x, t.Declares x → t.isVariable x = false → property x) (formula : Formula)
    (derived : Derivation t owner hypotheses rules formula) : ∀ x ∈ formula, property x := by
  induction derived with
  | hypothesis id h usable found =>
      rw [← t.formula_of_statement id h found]
      exact start id usable
  | application rule image member allowed earlier nonempty operands respects ih =>
      intro x present
      rcases application_symbols coherent rule image member (asserted rule allowed) x present with
        ⟨declared, const⟩ | ⟨id, needed, inside⟩
      · exact constants x declared const
      · exact ih id needed x inside

theorem derivation_formed (coherent : t.Coherent)
    (asserted : ∀ rule, rules rule → rule.isAssertion = true)
    (usable : ∀ id ∈ hypotheses, t.HypothesisBefore owner.id id) (formula : Formula)
    (derived : Derivation t owner hypotheses rules formula) : formula.Formed t := by
  have formed : ∀ id ∈ hypotheses, (t.formulaOf id).Formed t := by
    intro id member
    obtain ⟨h, found, hypothesis, _⟩ := usable id member
    rw [t.formula_of_statement id h found]
    exact coherent.hypothesis_formed id h found hypothesis
  refine ⟨?_, ?_⟩
  · cases derived with
    | hypothesis id h member found =>
        rw [← t.formula_of_statement id h found]
        exact (formed id member).headed
    | application rule image member allowed =>
        obtain ⟨head, tail, shape, const⟩ :=
          (coherent.conclusion_formed member (asserted rule allowed)).headed
        rw [shape, Formula.instantiate_const head tail const]
        exact ⟨head, _, rfl, const⟩
  · exact derivation_symbols coherent asserted t.Declares
      (fun id member => (formed id member).declared) (fun x declared _ => declared) formula derived

end Derivation

theorem derivable_formed (t : Table) (coherent : t.Coherent) (owner : Statement)
    (member : owner ∈ t.statements) (asserted : owner.isAssertion = true) (formula : Formula)
    (derived : Derivable t owner formula) : formula.Formed t := by
  apply derivation_formed coherent (fun rule allowed => allowed) _ formula derived
  exact (coherent.framed member asserted).usable

end Lemmata
