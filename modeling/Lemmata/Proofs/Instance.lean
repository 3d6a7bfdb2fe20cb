import Lemmata.Unification
import Lemmata.Proofs.Coherence

/-!
Instances of formulas. An instance replaces every variable by the formula that a map gives it, so
instances compose; a list of bindings gives such a map for the variables that it binds.
-/

set_option autoImplicit false

namespace Lemmata

def Formula.instantiate (t : Table) (image : Symbol → Formula) (formula : Formula) : Formula :=
  formula.flatMap fun s => if t.isVariable s then image s else [s]

namespace Formula

variable {t : Table} {image : Symbol → Formula}

@[simp] theorem instantiate_nil : instantiate t image [] = [] := rfl

theorem instantiate_var (s : Symbol) (rest : Formula) (var : t.isVariable s = true) :
    instantiate t image (s :: rest) = image s ++ instantiate t image rest := by
  simp [instantiate, var]

theorem instantiate_const (s : Symbol) (rest : Formula) (const : t.isVariable s = false) :
    instantiate t image (s :: rest) = s :: instantiate t image rest := by
  simp [instantiate, const]

@[simp] theorem instantiate_append (left right : Formula) :
    instantiate t image (left ++ right) = instantiate t image left ++ instantiate t image right := by
  simp [instantiate]

theorem mem_instantiate (formula : Formula) (x : Symbol) :
    x ∈ instantiate t image formula ↔
      (x ∈ formula ∧ t.isVariable x = false) ∨ ∃ v ∈ formula, t.isVariable v = true ∧ x ∈ image v := by
  simp only [instantiate, List.mem_flatMap]
  constructor
  · rintro ⟨s, member, inside⟩
    cases var : t.isVariable s with
    | true => exact Or.inr ⟨s, member, var, by simpa [var] using inside⟩
    | false =>
        have same : x = s := by simpa [var] using inside
        exact Or.inl ⟨same ▸ member, same ▸ var⟩
  · rintro (⟨member, const⟩ | ⟨v, member, var, inside⟩)
    · exact ⟨x, member, by simp [const]⟩
    · exact ⟨v, member, by simpa [var] using inside⟩

theorem instantiate_congr (formula : Formula) (other : Symbol → Formula)
    (same : ∀ v ∈ formula, t.isVariable v = true → image v = other v) :
    instantiate t image formula = instantiate t other formula := by
  induction formula with
  | nil => rfl
  | cons s rest ih =>
      have others := ih fun v member => same v (List.mem_cons_of_mem s member)
      cases var : t.isVariable s with
      | true => rw [instantiate_var s rest var, instantiate_var s rest var, others,
          same s List.mem_cons_self var]
      | false => rw [instantiate_const s rest var, instantiate_const s rest var, others]

theorem instantiate_instantiate (inner : Symbol → Formula) (formula : Formula) :
    instantiate t image (instantiate t inner formula) =
      instantiate t (fun v => instantiate t image (inner v)) formula := by
  induction formula with
  | nil => rfl
  | cons s rest ih =>
      cases var : t.isVariable s with
      | true => rw [instantiate_var s rest var, instantiate_append, ih, instantiate_var s rest var]
      | false =>
          rw [instantiate_const s rest var, instantiate_const s _ var, ih, instantiate_const s rest var]

theorem instantiate_nonempty (formula : Formula) (nonempty : formula ≠ [])
    (images : ∀ v ∈ formula, t.isVariable v = true → image v ≠ []) :
    instantiate t image formula ≠ [] := by
  cases formula with
  | nil => exact absurd rfl nonempty
  | cons s rest =>
      cases var : t.isVariable s with
      | true =>
          rw [instantiate_var s rest var]
          exact List.append_ne_nil_of_left_ne_nil (images s List.mem_cons_self var) _
      | false =>
          rw [instantiate_const s rest var]
          exact List.cons_ne_nil _ _

end Formula

namespace Substitution

-- The map that the bindings make; a variable without a binding gets the empty formula.
def image (subst : Substitution) (v : Symbol) : Formula := (subst.lookup v).getD []

theorem image_of_lookup (subst : Substitution) (v : Symbol) (value : Formula)
    (bound : subst.lookup v = some value) : subst.image v = value := by
  simp [image, bound]

theorem apply_bound (subst : Substitution) (t : Table) (formula : Formula)
    (bound : ∀ v ∈ formula, t.isVariable v = true → (subst.lookup v).isSome = true) :
    subst.apply t formula = some (formula.instantiate t subst.image) := by
  induction formula with
  | nil => rfl
  | cons s rest ih =>
      have others := ih fun v member => bound v (List.mem_cons_of_mem s member)
      cases var : t.isVariable s with
      | true =>
          obtain ⟨value, found⟩ := Option.isSome_iff_exists.mp (bound s List.mem_cons_self var)
          rw [Formula.instantiate_var s rest var, image_of_lookup subst s value found]
          simp [apply, var, found, others]
      | false =>
          rw [Formula.instantiate_const s rest var]
          simp [apply, var, others]

theorem lookup_append (subst added : Substitution) (v : Symbol) :
    (subst ++ added).lookup v = (subst.lookup v).or (added.lookup v) := by
  simp only [lookup, List.find?_append]
  cases subst.find? fun binding => binding.var == v <;> rfl

theorem lookup_single (v w : Symbol) (start : Nat) (value : Formula) :
    lookup [⟨v, start, value⟩] w = if v = w then some value else none := by
  by_cases same : v = w <;> simp [lookup, same]

end Substitution

end Lemmata
