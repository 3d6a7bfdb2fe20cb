import Lemmata.Proofs.Building
import Lemmata.Proofs.OpenOperands
import Mathlib.Data.List.Lex

/-!
Unification is exact on every application, also on patterns that no assertion has. The search finds
the first assignments that turn the patterns into their instances, in the lexicographic order of the
lengths that they give to the variables, and the outcome is decided by how many there are.
-/

set_option autoImplicit false

namespace Lemmata

def Formula.vars (t : Table) (formula : Formula) : List Symbol :=
  (formula.filter t.isVariable).eraseDups

namespace Matching

def varsOf (t : Table) (pairs : List (Formula × Formula)) : List Symbol :=
  Formula.vars t (pairs.map Prod.fst).flatten

structure Solves (t : Table) (pairs : List (Formula × Formula)) (image : Symbol → Formula) : Prop where
  assigned : ∀ v, image v ≠ [] ↔ v ∈ varsOf t pairs
  instances : ∀ pair ∈ pairs, pair.1.instantiate t image = pair.2

def lengths (t : Table) (pairs : List (Formula × Formula)) (image : Symbol → Formula) : List Nat :=
  (varsOf t pairs).map fun v => (image v).length

-- All solutions in the lexicographic order of their lengths. The order is strict, so each comes once.
structure Enumerates (t : Table) (pairs : List (Formula × Formula)) (all : List (Symbol → Formula)) :
    Prop where
  members : ∀ image, image ∈ all ↔ Solves t pairs image
  ascending : all.Pairwise fun first second => lengths t pairs first < lengths t pairs second

def placed (t : Table) (scheme : Formula) (image : Symbol → Formula) : Substitution :=
  (scheme.vars t).map fun v =>
    ⟨v, (Formula.instantiate t image (scheme.takeWhile (· != v))).length, image v⟩

def recorded (t : Table) (pairs : List (Formula × Formula)) (image : Symbol → Formula) : Substitution :=
  placed t (join (pairs.map Prod.fst)) image

section Placed

variable (t : Table) (image : Symbol → Formula)

theorem mem_vars (formula : Formula) (v : Symbol) :
    v ∈ formula.vars t ↔ v ∈ formula ∧ t.isVariable v = true := by
  simp [Formula.vars]

theorem vars_snoc (front : Formula) (s : Symbol) :
    Formula.vars t (front ++ [s]) =
      front.vars t ++ if t.isVariable s = true ∧ s ∉ front then [s] else [] := by
  rw [Formula.vars, List.filter_append, List.eraseDups_append, Formula.vars]
  congr 1
  cases var : t.isVariable s with
  | false => simp [var]
  | true => by_cases met : s ∈ front <;> simp [var, met, List.removeAll, List.eraseDups_cons]

theorem before_first (front behind : Formula) (v : Symbol) (met : v ∈ front) :
    (front ++ behind).takeWhile (· != v) = front.takeWhile (· != v) := by
  induction front with
  | nil => cases met
  | cons s rest ih =>
      by_cases same : s = v
      · simp [same]
      · have later : v ∈ rest := (List.mem_cons.mp met).resolve_left (Ne.symm same)
        simp [same, ih later]

theorem before_new (front behind : Formula) (s : Symbol) (fresh : s ∉ front) :
    (front ++ s :: behind).takeWhile (· != s) = front := by
  rw [List.takeWhile_append_of_pos, List.takeWhile_cons_of_neg (by simp), List.append_nil]
  intro other member
  have different : other ≠ s := fun same => fresh (same ▸ member)
  simpa using different

theorem placed_snoc (front : Formula) (s : Symbol) :
    placed t (front ++ [s]) image =
      placed t front image ++
        if t.isVariable s = true ∧ s ∉ front then
          [⟨s, (Formula.instantiate t image front).length, image s⟩] else [] := by
  rw [placed, vars_snoc, List.map_append, placed]
  congr 1
  · apply List.map_congr_left
    intro v member
    rw [before_first front [s] v ((mem_vars t front v).mp member).1]
  · by_cases new : t.isVariable s = true ∧ s ∉ front
    · rw [if_pos new, if_pos new, List.map_singleton, before_new front [] s new.2]
    · rw [if_neg new, if_neg new, List.map_nil]

theorem placed_lookup (scheme : Formula) (v : Symbol) :
    (placed t scheme image).lookup v = if v ∈ scheme.vars t then some (image v) else none := by
  unfold placed
  induction scheme.vars t with
  | nil => rfl
  | cons w others ih =>
      by_cases same : w = v
      · simp [Substitution.lookup, same]
      · simpa [Substitution.lookup, same, Ne.symm same] using ih

-- The walk over the scheme collects the bindings one by one. What it has behind it is `front`.
theorem bindings_placed (front scheme : Formula) :
    bindings t image scheme (placed t front image) (Formula.instantiate t image front).length =
      placed t (front ++ scheme) image := by
  induction scheme generalizing front with
  | nil => rw [bindings, List.append_nil]
  | cons s scheme ih =>
      have next := ih (front ++ [s])
      rw [List.append_assoc, List.singleton_append, placed_snoc, Formula.instantiate_append,
        List.length_append] at next
      rw [← next]
      cases var : t.isVariable s with
      | false => simp [bindings, var, Formula.instantiate_const s [] var]
      | true =>
          by_cases met : s ∈ front
          · have bound : s ∈ front.vars t := (mem_vars t front s).mpr ⟨met, var⟩
            simp [bindings, var, placed_lookup, bound, met, Formula.instantiate_var s [] var]
          · have free : s ∉ front.vars t := fun bound => met ((mem_vars t front s).mp bound).1
            simp [bindings, var, placed_lookup, free, met, Formula.instantiate_var s [] var]

theorem placed_congr (scheme : Formula) (other : Symbol → Formula)
    (same : ∀ v ∈ scheme.vars t, image v = other v) : placed t scheme image = placed t scheme other := by
  apply List.map_congr_left
  intro v used
  have before : Formula.instantiate t image (scheme.takeWhile (· != v)) =
      Formula.instantiate t other (scheme.takeWhile (· != v)) := by
    apply Formula.instantiate_congr
    intro w present var
    exact same w ((mem_vars t scheme w).mpr ⟨(List.takeWhile_sublist _).subset present, var⟩)
  rw [before, same v used]

theorem placed_window (scheme : Formula) (binding : Binding) (member : binding ∈ placed t scheme image) :
    ((scheme.instantiate t image).drop binding.start).take binding.value.length = binding.value := by
  obtain ⟨v, used, rfl⟩ := List.mem_map.mp member
  obtain ⟨present, var⟩ := (mem_vars t scheme v).mp used
  obtain ⟨front, behind, rfl, fresh⟩ := List.eq_append_cons_of_mem present
  dsimp only
  rw [before_new front behind v fresh, Formula.instantiate_append, List.drop_left,
    Formula.instantiate_var v behind var, List.take_left]

end Placed

section Solutions

variable {t : Table} {pairs : List (Formula × Formula)}

theorem vars_join (patterns : List Formula) :
    (join patterns).vars t = Formula.vars t patterns.flatten := by
  unfold Formula.vars
  congr 1
  induction patterns with
  | nil => rfl
  | cons first others ih =>
      cases others with
      | nil => rw [join_single, List.flatten_singleton]
      | cons second others =>
          rw [join_cons, List.flatten_cons, List.filter_append, List.filter_append, ← ih]
          simp

theorem recorded_vars (image : Symbol → Formula) :
    (recorded t pairs image).map Binding.var = varsOf t pairs := by
  simp [recorded, placed, varsOf, vars_join, Function.comp_def]

theorem recorded_lengths (image : Symbol → Formula) :
    (recorded t pairs image).map (fun binding => binding.value.length) = lengths t pairs image := by
  simp [recorded, placed, lengths, varsOf, vars_join, Function.comp_def]

theorem recorded_lookup (image : Symbol → Formula) (v : Symbol) :
    (recorded t pairs image).lookup v = if v ∈ varsOf t pairs then some (image v) else none := by
  rw [recorded, placed_lookup, vars_join]
  rfl

theorem bindings_recorded (image : Symbol → Formula) :
    bindings t image (join (pairs.map Prod.fst)) [] 0 = recorded t pairs image :=
  bindings_placed t image [] (join (pairs.map Prod.fst))

theorem recorded_image (image : Symbol → Formula) (v : Symbol) (used : v ∈ varsOf t pairs) :
    (recorded t pairs image).image v = image v := by
  simp [Substitution.image, recorded_lookup, used]

theorem Solves.recorded_self {image : Symbol → Formula} (solves : Solves t pairs image) :
    (recorded t pairs image).image = image := by
  funext v
  by_cases used : v ∈ varsOf t pairs
  · exact recorded_image image v used
  · have none : image v = [] := Classical.not_not.mp fun given => used ((solves.assigned v).mp given)
    simp [Substitution.image, recorded_lookup, used, none]

theorem recorded_ascending (first second : Symbol → Formula)
    (shorter : Shorter (recorded t pairs first) (recorded t pairs second)) :
    lengths t pairs first < lengths t pairs second := by
  obtain ⟨shared, v, start, short, long, ⟨restOne, one⟩, ⟨restTwo, two⟩, _, less⟩ := shorter
  rw [← recorded_lengths, ← recorded_lengths, ← one, ← two]
  simp only [List.map_append, List.map_cons, List.append_assoc, List.singleton_append]
  exact List.Lex.append_left _ (List.Lex.rel less) _

theorem Solves.recorded_window {image : Symbol → Formula} (solves : Solves t pairs image)
    (binding : Binding) (member : binding ∈ recorded t pairs image) :
    binding.value = image binding.var ∧
      ((join (pairs.map Prod.snd)).drop binding.start).take binding.value.length = binding.value := by
  have joined : (join (pairs.map Prod.fst)).instantiate t image = join (pairs.map Prod.snd) := by
    rw [join_instantiate, List.map_map]
    congr 1
    exact List.map_congr_left solves.instances
  refine ⟨?_, joined ▸ placed_window t image _ binding member⟩
  obtain ⟨v, _, rfl⟩ := List.mem_map.mp member
  rfl

theorem mem_vars_of (v : Symbol) :
    v ∈ varsOf t pairs ↔ (∃ pair ∈ pairs, v ∈ pair.1) ∧ t.isVariable v = true := by
  simp [varsOf, mem_vars]

variable (patternsFree : ∀ pair ∈ pairs, separator ∉ pair.1)
  (instancesFree : ∀ pair ∈ pairs, separator ∉ pair.2)

include instancesFree in
theorem Solves.fills {image : Symbol → Formula} (solves : Solves t pairs image) :
    Fills t image (join (pairs.map Prod.fst)) := by
  intro v present var
  have different : v ≠ separator := fun equal => by simp [equal] at var
  obtain ⟨pattern, member, used⟩ := (mem_join v different _).mp present
  obtain ⟨pair, inside, rfl⟩ := List.mem_map.mp member
  refine ⟨(solves.assigned v).mpr ((mem_vars_of v).mpr ⟨⟨pair, inside, used⟩, var⟩), fun blocked => ?_⟩
  apply instancesFree pair inside
  rw [← solves.instances pair inside]
  exact (Formula.mem_instantiate pair.1 separator).mpr (Or.inr ⟨v, used, var, blocked⟩)

theorem solves_of_fills {image : Symbol → Formula} (fills : Fills t image (join (pairs.map Prod.fst)))
    (same : (pairs.map Prod.fst).map (Formula.instantiate t image) = pairs.map Prod.snd) :
    Solves t pairs (recorded t pairs image).image := by
  refine ⟨fun v => ?_, fun pair member => ?_⟩
  · by_cases used : v ∈ varsOf t pairs
    · obtain ⟨⟨pair, member, inside⟩, var⟩ := (mem_vars_of v).mp used
      have different : v ≠ separator := fun equal => by simp [equal] at var
      have given := (fills v ((mem_join v different _).mpr
        ⟨pair.1, List.mem_map_of_mem member, inside⟩) var).1
      simpa [recorded_image image v used, used] using given
    · simp [Substitution.image, recorded_lookup, used]
  · rw [List.map_map] at same
    rw [← List.map_inj_left.mp same pair member]
    apply Formula.instantiate_congr
    intro v inside var
    exact recorded_image image v ((mem_vars_of v).mpr ⟨⟨pair, member, inside⟩, var⟩)

include patternsFree instancesFree

theorem mem_solutions_solves (subst : Substitution) :
    subst ∈ solutions t (join (pairs.map Prod.fst)) [] 0 (join (pairs.map Prod.snd)) ↔
      Solves t pairs subst.image ∧ subst = recorded t pairs subst.image := by
  rw [mem_joined_solutions t _ _ (by simp) (by simpa using fun a b => patternsFree (a, b))
    (by simpa using fun b a => instancesFree (a, b))]
  constructor
  · rintro ⟨image, fills, same, rfl⟩
    rw [bindings_recorded]
    have solves := solves_of_fills fills same
    refine ⟨solves, placed_congr t _ _ _ fun v used => (recorded_image image v ?_).symm⟩
    rwa [vars_join] at used
  · rintro ⟨solves, same⟩
    refine ⟨subst.image, solves.fills instancesFree, ?_, ?_⟩
    · rw [List.map_map]
      exact List.map_congr_left fun pair member => solves.instances pair member
    · rw [bindings_recorded]
      exact same

theorem solve_enumerated (limit : Nat) (positive : 0 < limit) :
    ∃ all, Enumerates t pairs all ∧
      (solve t limit (pairs.map Prod.fst) (pairs.map Prod.snd)).solutions =
        (all.take limit).map (recorded t pairs) := by
  have found := mem_solutions_solves (t := t) patternsFree instancesFree
  have ordered := solutions_ascending t (join (pairs.map Prod.fst)) [] 0 (join (pairs.map Prod.snd))
    (fun v value impossible => by cases impossible)
  rw [solve_solutions t limit positive]
  generalize solutions t (join (pairs.map Prod.fst)) [] 0 (join (pairs.map Prod.snd)) = each at found ordered
  have restored : (each.map Substitution.image).map (recorded t pairs) = each := by
    rw [List.map_map]
    conv_rhs => rw [← List.map_id each]
    exact List.map_congr_left fun subst member => ((found subst).mp member).2.symm
  refine ⟨each.map Substitution.image, ⟨fun image => ?_, ?_⟩, ?_⟩
  · rw [List.mem_map]
    constructor
    · rintro ⟨subst, member, rfl⟩
      exact ((found subst).mp member).1
    · intro solves
      refine ⟨recorded t pairs image, (found _).mpr ?_, solves.recorded_self⟩
      rw [solves.recorded_self]
      exact ⟨solves, rfl⟩
  · rw [List.pairwise_map]
    refine ordered.imp_of_mem ?_
    intro first second firstFound secondFound shorter
    rw [((found first).mp firstFound).2, ((found second).mp secondFound).2] at shorter
    exact recorded_ascending _ _ shorter
  · rw [List.map_take, restored]

end Solutions

end Matching

open Matching

def Matching.covered (t : Table) (pairs : List (Formula × Formula)) (formula : Formula)
    (image : Symbol → Formula) : Option Formula :=
  if ∀ v ∈ formula.vars t, v ∈ varsOf t pairs then some (formula.instantiate t image) else none

theorem Substitution.apply_unbound (subst : Substitution) (t : Table) (formula : Formula) (v : Symbol)
    (present : v ∈ formula) (var : t.isVariable v = true) (free : subst.lookup v = none) :
    subst.apply t formula = none := by
  induction formula with
  | nil => cases present
  | cons s rest ih =>
      by_cases same : s = v
      · simp [apply, same, var, free]
      · have later := ih ((List.mem_cons.mp present).resolve_left (Ne.symm same))
        cases t.isVariable s <;> simp [apply, later]

theorem Matching.recorded_apply (t : Table) (pairs : List (Formula × Formula)) (image : Symbol → Formula)
    (formula : Formula) : (recorded t pairs image).apply t formula = covered t pairs formula image := by
  by_cases bound : ∀ v ∈ formula.vars t, v ∈ varsOf t pairs
  · rw [covered, if_pos bound, Substitution.apply_bound]
    · congr 1
      apply Formula.instantiate_congr
      intro v present var
      exact recorded_image image v (bound v ((mem_vars t formula v).mpr ⟨present, var⟩))
    · intro v present var
      simp [recorded_lookup, bound v ((mem_vars t formula v).mpr ⟨present, var⟩)]
  · rw [covered, if_neg bound]
    obtain ⟨v, used, missing⟩ : ∃ v ∈ formula.vars t, v ∉ varsOf t pairs := by simpa using bound
    obtain ⟨present, var⟩ := (mem_vars t formula v).mp used
    exact Substitution.apply_unbound _ t formula v present var (by simp [recorded_lookup, missing])

namespace Application

variable {t : Table} {app : Application}

theorem disjoint_error_respects (app : Application) (subst : Substitution) :
    app.disjointError t subst = none ↔ Respects t app.owner app.assertion subst.image := by
  simp only [disjointError, List.findSome?_eq_none_iff]
  refine forall₂_congr fun pair _ => ?_
  unfold pairError Substitution.image
  cases subst.lookup pair.a with
  | none => simp [Separated]
  | some left =>
      cases subst.lookup pair.b with
      | none => simp [Separated]
      | some right =>
          rw [Option.getD_some, Option.getD_some, ← clash_none_iff]
          cases found : clash t app.owner left right <;> simp [found]

structure Decided (t : Table) (checkDisjoint : Bool) (app : Application) (all : List (Symbol → Formula))
    (outcome : Unified) : Prop where
  unmatched : all = [] → app.unknownOperand = false → ∃ hypothesis pattern operand,
    outcome.error = some (.mismatch app.step app.assertion.label hypothesis pattern operand)
  several : ∀ first second rest, all = first :: second :: rest → app.unknownOperand = false →
    outcome.error = some (.ambiguous app.step app.assertion.label
      ((recorded t app.known first).render t) ((recorded t app.known second).render t)
      (t.render ((covered t app.known app.assertion.formula first).getD []))
      (t.render ((covered t app.known app.assertion.formula second).getD [])))
  clash : ∀ only, all = [only] → checkDisjoint = true → ¬ Respects t app.owner app.assertion only →
    ∃ a b x y, outcome.error = some (.disjoint app.step app.assertion.label app.owner.label a b x y)
  derived : ∀ only formula, all = [only] →
    (checkDisjoint = true → Respects t app.owner app.assertion only) →
    covered t app.known app.assertion.formula only = some formula →
    outcome.error = none ∧ outcome.formula = formula ∧ outcome.subst = recorded t app.known only
  uncovered : ∀ only, all = [only] → (checkDisjoint = true → Respects t app.owner app.assertion only) →
    covered t app.known app.assertion.formula only = none → app.unknownOperand = false →
    ∃ hypothesis pattern operand,
      outcome.error = some (.mismatch app.step app.assertion.label hypothesis pattern operand)
  opened : app.unknownOperand = true → (∀ only, all = [only] →
      (checkDisjoint = true → Respects t app.owner app.assertion only) ∧
        covered t app.known app.assertion.formula only = none) →
    outcome.error = none ∧ outcome.formula = []

section Counted

variable (t app) (checkDisjoint : Bool)

theorem unify_none
    (found : (solve t 2 (app.known.map Prod.fst) (app.known.map Prod.snd)).solutions = []) :
    (app.unify t checkDisjoint).formula = [] ∧ (app.unify t checkDisjoint).error =
      if app.unknownOperand then none else some (app.mismatch t) := by
  simp only [unify, found]
  cases app.unknownOperand <;> exact ⟨rfl, rfl⟩

theorem unify_several (first second : Substitution) (rest : List Substitution)
    (found : (solve t 2 (app.known.map Prod.fst) (app.known.map Prod.snd)).solutions =
      first :: second :: rest) :
    (app.unify t checkDisjoint).formula = [] ∧ (app.unify t checkDisjoint).error =
      if app.unknownOperand then none else some (app.ambiguous t first second) := by
  simp only [unify, found]
  cases app.unknownOperand <;> exact ⟨rfl, rfl⟩

theorem unify_clashing (only : Substitution) (error : UnifyError)
    (found : (solve t 2 (app.known.map Prod.fst) (app.known.map Prod.snd)).solutions = [only])
    (failed : app.disjointError t only = some error) : (app.unify t true).error = some error := by
  simp only [unify, found, if_true, failed]

theorem unify_apart (only : Substitution)
    (found : (solve t 2 (app.known.map Prod.fst) (app.known.map Prod.snd)).solutions = [only])
    (apart : checkDisjoint = true → app.disjointError t only = none) :
    (app.unify t checkDisjoint).subst = only ∧
      (app.unify t checkDisjoint).formula = (only.apply t app.assertion.formula).getD [] ∧
      (app.unify t checkDisjoint).error =
        if (only.apply t app.assertion.formula).isSome || app.unknownOperand then none
        else some (app.mismatch t) := by
  have passed : (if checkDisjoint then app.disjointError t only else none) = none := by
    cases checkDisjoint with
    | true => exact apart rfl
    | false => rfl
  simp only [unify, found, passed]
  cases only.apply t app.assertion.formula with
  | some formula => exact ⟨rfl, rfl, rfl⟩
  | none => cases app.unknownOperand <;> exact ⟨rfl, rfl, rfl⟩

end Counted

theorem unify_decided (checkDisjoint : Bool) (all : List (Symbol → Formula))
    (solves : ∀ image ∈ all, Solves t app.known image)
    (found : (solve t 2 (app.known.map Prod.fst) (app.known.map Prod.snd)).solutions =
      (all.take 2).map (recorded t app.known)) :
    Decided t checkDisjoint app all (app.unify t checkDisjoint) := by
  obtain ⟨hypothesis, pattern, operand, shape⟩ := mismatch_shape t app
  match all, solves, found with
  | [], _, found =>
      obtain ⟨formula, error⟩ := unify_none t app checkDisjoint found
      refine ⟨?_, by simp, by simp, by simp, by simp, ?_⟩
      · intro _ known
        exact ⟨hypothesis, pattern, operand, by rw [error, known, ← shape]; rfl⟩
      · intro opened _
        exact ⟨by rw [error, opened]; rfl, formula⟩
  | first :: second :: rest, _, found =>
      obtain ⟨formula, error⟩ := unify_several t app checkDisjoint _ _ _ found
      refine ⟨by simp, ?_, by simp, by simp, by simp, ?_⟩
      · rintro first second rest ⟨⟩ known
        rw [error, known]
        simp [ambiguous, recorded_apply]
      · intro opened _
        exact ⟨by rw [error, opened]; rfl, formula⟩
  | [only], solves, found =>
      have respects : app.disjointError t (recorded t app.known only) = none ↔
          Respects t app.owner app.assertion only := by
        rw [disjoint_error_respects, (solves only List.mem_cons_self).recorded_self]
      by_cases apart : checkDisjoint = true → Respects t app.owner app.assertion only
      · obtain ⟨subst, formula, error⟩ := unify_apart t app checkDisjoint _ found
          fun checked => respects.mpr (apart checked)
        rw [recorded_apply] at formula error
        refine ⟨by simp, by simp, ?_, ?_, ?_, ?_⟩
        · rintro only ⟨⟩ checked clashing
          exact absurd (apart checked) clashing
        · rintro only result ⟨⟩ _ covers
          rw [covers] at formula error
          exact ⟨error, formula, subst⟩
        · rintro only ⟨⟩ _ fails known
          rw [fails, known] at error
          exact ⟨hypothesis, pattern, operand, shape ▸ error⟩
        · intro opened single
          rw [(single only rfl).2, opened] at error
          rw [(single only rfl).2] at formula
          exact ⟨error, formula⟩
      · obtain ⟨checked, clashing⟩ := Classical.not_imp.mp apart
        obtain ⟨error, failed⟩ := Option.ne_none_iff_exists'.mp (mt respects.mp clashing)
        have own := unify_clashing t app _ error found failed
        obtain ⟨a, b, x, y, rfl⟩ := disjoint_error_shape _ error failed
        refine ⟨by simp, by simp, ?_, ?_, ?_, ?_⟩
        · rintro only ⟨⟩ _ _
          exact ⟨a, b, x, y, checked ▸ own⟩
        · rintro only formula ⟨⟩ clean
          exact absurd clean apart
        · rintro only ⟨⟩ clean
          exact absurd clean apart
        · intro _ single
          exact absurd (single only rfl).1 apart

end Application

theorem unify_exact (t : Table) (app : Application)
    (patternsFree : ∀ pattern ∈ app.patterns, separator ∉ pattern)
    (instancesFree : ∀ operand ∈ app.instances, separator ∉ operand) :
    ∃ all, Enumerates t app.known all ∧
      (solve t 2 (app.known.map Prod.fst) (app.known.map Prod.snd)).solutions =
        (all.take 2).map (recorded t app.known) ∧
      (∀ image ∈ all, (recorded t app.known image).map Binding.var = varsOf t app.known ∧
        ∀ binding ∈ recorded t app.known image, binding.value = image binding.var ∧
          ((join (app.known.map Prod.snd)).drop binding.start).take binding.value.length = binding.value) ∧
      ∀ checkDisjoint, app.Decided t checkDisjoint all (app.unify t checkDisjoint) := by
  have kept : ∀ pair ∈ app.known, pair.1 ∈ app.patterns ∧ pair.2 ∈ app.instances := by
    rintro ⟨pattern, operand⟩ seen
    exact List.of_mem_zip (app.mem_known pattern operand seen).1
  obtain ⟨all, enumerates, found⟩ := solve_enumerated (t := t)
    (fun pair seen => patternsFree pair.1 (kept pair seen).1)
    (fun pair seen => instancesFree pair.2 (kept pair seen).2) 2 (by decide)
  have solves : ∀ image ∈ all, Solves t app.known image :=
    fun image member => (enumerates.members image).mp member
  refine ⟨all, enumerates, found, fun image member => ?_, fun checkDisjoint => ?_⟩
  · exact ⟨recorded_vars image, (solves image member).recorded_window⟩
  · exact app.unify_decided checkDisjoint all solves found

def sampleSharing : Application where
  assertion := sampleStatement 6
  owner := sampleStatement 8
  step := 3
  patterns := [[1, 3, 4], [1, 4, 3]]
  instances := [[1, 2, 2, 2], [1, 2, 2, 2]]
  unknownOperand := false

theorem unify_exact_sample :
    (∀ pattern ∈ sampleSharing.patterns, separator ∉ pattern) ∧
      (∀ operand ∈ sampleSharing.instances, separator ∉ operand) ∧
      (sampleSharing.unify sampleTable true).error = some (.ambiguous 3 "rule" "x := =, y := = ="
        "x := = =, y := =" "|- = = = =" "|- = = = =") ∧
      ∃ first second rest, Enumerates sampleTable sampleSharing.known (first :: second :: rest) ∧
        (solve sampleTable 2 sampleSharing.patterns sampleSharing.instances).solutions =
          [recorded sampleTable sampleSharing.known first,
            recorded sampleTable sampleSharing.known second] := by
  have patternsFree : ∀ pattern ∈ sampleSharing.patterns, separator ∉ pattern := by decide
  have instancesFree : ∀ operand ∈ sampleSharing.instances, separator ∉ operand := by decide
  have two : (solve sampleTable 2 sampleSharing.patterns sampleSharing.instances).solutions.length = 2 := by
    decide
  obtain ⟨all, enumerates, found, _⟩ := unify_exact sampleTable sampleSharing patternsFree instancesFree
  refine ⟨patternsFree, instancesFree, by decide, ?_⟩
  change (solve sampleTable 2 sampleSharing.patterns sampleSharing.instances).solutions = _ at found
  rw [found, List.length_map] at two
  match all, enumerates, found with
  | [], _, _ => cases two
  | [only], _, _ => cases two
  | first :: second :: rest, enumerates, found => exact ⟨first, second, rest, enumerates, found⟩

end Lemmata
