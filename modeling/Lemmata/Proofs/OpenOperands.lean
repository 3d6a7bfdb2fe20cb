import Lemmata.Proofs.Fitting

/-!
Applying an assertion to operands of which some are open. The search then sees the other operands
only: it may find several images, or leave variables of the conclusion without one. Whatever formula
it commits to all the same is the one that every completion of the operands gives.
-/

set_option autoImplicit false

namespace Lemmata

theorem Matching.bindings_agree (t : Table) (image : Symbol → Formula) (scheme : Formula) :
    Agrees (bindings t image scheme [] 0) image := by
  intro v value bound
  have nothing : Agrees [] image := fun w other impossible => by cases impossible
  rcases bindings_met t image scheme [] 0 v (by simp [bound]) with impossible | met
  · cases impossible
  · rw [bindings_lookup t image scheme [] 0 nothing v (Or.inr met), Option.some.injEq] at bound
    exact bound

theorem Matching.solution_window (t : Table) (patterns instances : List Formula) (subst : Substitution)
    (found : subst ∈ solutions t (join patterns) [] 0 (join instances)) (v : Symbol) (value : Formula)
    (bound : subst.lookup v = some value) (x : Symbol) (present : x ∈ value) :
    ∃ operand ∈ instances, x ∈ operand := by
  have nothing : Windowed [] := fun w other impossible => by cases impossible
  obtain ⟨image, _, fills, same, rfl⟩ := (mem_solutions t _ [] 0 _ subst nothing).mp found
  rcases bindings_met t image (join patterns) [] 0 v (by simp [bound]) with impossible | ⟨used, var⟩
  · cases impossible
  · rw [← bindings_agree t image (join patterns) v value bound] at present
    have different : x ≠ separator := by
      rintro rfl
      exact (fills v used var).2 present
    rw [← mem_join x different, ← same]
    exact (Formula.mem_instantiate _ x).mpr (Or.inr ⟨v, used, var, present⟩)

theorem Substitution.apply_agrees (subst : Substitution) (t : Table) (image : Symbol → Formula)
    (agrees : Matching.Agrees subst image) (formula result : Formula)
    (applied : subst.apply t formula = some result) : result = formula.instantiate t image := by
  induction formula generalizing result with
  | nil =>
      cases applied
      rfl
  | cons s rest ih =>
      cases var : t.isVariable s with
      | true =>
          simp only [apply, var, if_true, Option.bind_eq_bind, Option.bind_eq_some_iff, pure,
            Option.some.injEq] at applied
          obtain ⟨value, bound, others, behind, rfl⟩ := applied
          rw [Formula.instantiate_var s rest var, ih others behind, agrees s value bound]
      | false =>
          simp only [apply, var, Bool.false_eq_true, if_false, Option.bind_eq_bind,
            Option.bind_eq_some_iff, pure, Option.some.injEq] at applied
          obtain ⟨others, behind, rfl⟩ := applied
          rw [Formula.instantiate_const s rest var, ih others behind]

namespace Application

variable {t : Table} {app : Application} {checkDisjoint : Bool}

theorem mem_known (app : Application) (pattern operand : Formula) (seen : (pattern, operand) ∈ app.known) :
    (pattern, operand) ∈ app.patterns.zip app.instances ∧
      (app.unknownOperand = true → operand ≠ []) := by
  unfold known at seen
  cases flag : app.unknownOperand with
  | false => exact ⟨by simpa [flag] using seen, by simp⟩
  | true =>
      simp only [flag, if_true, List.mem_filter, Formula.isUnknown, Bool.not_eq_eq_eq_not, Bool.not_true,
        List.isEmpty_eq_false_iff] at seen
      exact ⟨seen.1, fun _ => seen.2⟩

theorem unify_formula (t : Table) (checkDisjoint : Bool) (app : Application) :
    (app.unify t checkDisjoint).formula = [] ∨ ∃ subst,
      subst ∈ Matching.solutions t (Matching.join (app.known.map Prod.fst)) [] 0
        (Matching.join (app.known.map Prod.snd)) ∧
      subst.apply t app.assertion.formula = some (app.unify t checkDisjoint).formula := by
  unfold unify
  dsimp only
  split
  · split <;> exact Or.inl rfl
  · split <;> exact Or.inl rfl
  · rename_i subst single
    split
    · exact Or.inl rfl
    · split
      · rename_i formula applied
        refine Or.inr ⟨subst, ?_, applied⟩
        rw [Matching.solve_solutions t 2 (by omega)] at single
        exact List.mem_of_mem_take (single ▸ List.mem_singleton_self subst)
      · split <;> exact Or.inl rfl

theorem unify_symbols (x : Symbol) (present : x ∈ (app.unify t checkDisjoint).formula) :
    (x ∈ app.assertion.formula ∧ t.isVariable x = false) ∨ ∃ operand ∈ app.instances, x ∈ operand := by
  rcases unify_formula t checkDisjoint app with empty | ⟨subst, found, applied⟩
  · rw [empty] at present
    cases present
  · have shape := subst.apply_agrees t subst.image (fun v value => subst.image_of_lookup v value)
      app.assertion.formula _ applied
    rw [shape] at present
    rcases (Formula.mem_instantiate _ x).mp present with const | ⟨v, _, _, inside⟩
    · exact Or.inl const
    · cases bound : subst.lookup v with
      | none => simp [Substitution.image, bound] at inside
      | some value =>
          rw [subst.image_of_lookup v value bound] at inside
          obtain ⟨operand, member, own⟩ := Matching.solution_window t _ _ subst found v value bound x inside
          obtain ⟨⟨pattern, same⟩, seen, rfl⟩ := List.mem_map.mp member
          exact Or.inr ⟨same, (List.of_mem_zip (app.mem_known pattern same seen).1).2, own⟩

theorem unify_formed (conclusion : app.assertion.formula.Formed t)
    (operands : ∀ operand ∈ app.instances, operand = [] ∨ operand.Formed t) :
    (app.unify t checkDisjoint).formula = [] ∨ (app.unify t checkDisjoint).formula.Formed t := by
  rcases unify_formula t checkDisjoint app with empty | ⟨subst, found, applied⟩
  · exact Or.inl empty
  · refine Or.inr ⟨?_, ?_⟩
    · obtain ⟨head, tail, shape, const⟩ := conclusion.headed
      have own := subst.apply_agrees t subst.image (fun v value => subst.image_of_lookup v value)
        app.assertion.formula _ applied
      rw [own, shape, Formula.instantiate_const head tail const]
      exact ⟨head, _, rfl, const⟩
    · intro x present
      rcases unify_symbols x present with ⟨own, _⟩ | ⟨operand, member, inside⟩
      · exact conclusion.declared x own
      · rcases operands operand member with rfl | formed
        · cases inside
        · exact formed.declared x inside

end Application

section Completion

variable {t : Table} {app full : Application} {checkDisjoint : Bool}

theorem unify_fitting (coherent : t.Coherent) (known : app.Known t) (image : Symbol → Formula)
    (fits : Fits t app.assertion app.instances image)
    (respects : checkDisjoint = true → Respects t app.owner app.assertion image) :
    (app.unify t checkDisjoint).error = none ∧
      (app.unify t checkDisjoint).formula = app.assertion.formula.instantiate t image := by
  cases checkDisjoint with
  | true => exact unify_derived coherent known image fits (respects rfl)
  | false =>
      simp only [Application.unify, known_pairs known, solve_fits coherent known image fits,
        bindings_apply coherent known image, Bool.false_eq_true, if_false, and_self]

theorem unify_clean (coherent : t.Coherent) (known : app.Known t)
    (clean : (app.unify t checkDisjoint).error = none) :
    ∃ image, Fits t app.assertion app.instances image ∧
      (checkDisjoint = true → Respects t app.owner app.assertion image) := by
  by_cases fitting : ∃ image, Fits t app.assertion app.instances image
  · cases checkDisjoint with
    | true =>
        obtain ⟨image, fits, respects, _⟩ := (unify_ok_iff coherent known _).mp ⟨clean, rfl⟩
        exact ⟨image, fits, fun _ => respects⟩
    | false =>
        obtain ⟨image, fits⟩ := fitting
        exact ⟨image, fits, fun impossible => by cases impossible⟩
  · have failed := unify_unfit coherent known checkDisjoint fun image fits => fitting ⟨image, fits⟩
    rw [clean] at failed
    cases failed

structure Application.Opens (app full : Application) : Prop where
  assertion : app.assertion = full.assertion
  owner : app.owner = full.owner
  patterns : app.patterns = full.patterns
  instances : List.Forall₂ (fun operand value => operand = [] ∨ operand = value) app.instances full.instances
  unknown : app.unknownOperand = app.instances.any Formula.isUnknown

theorem opened_pair (pattern operand : Formula) (patterns operands values : List Formula)
    (opened : List.Forall₂ (fun operand value => operand = [] ∨ operand = value) operands values)
    (nonempty : operand ≠ []) (paired : (pattern, operand) ∈ patterns.zip operands) :
    (pattern, operand) ∈ patterns.zip values := by
  induction opened generalizing patterns with
  | nil => simp at paired
  | cons first _ ih =>
      cases patterns with
      | nil => cases paired
      | cons other patterns =>
          rcases List.mem_cons.mp paired with same | behind
          · cases same
            rcases first with empty | rfl
            · exact absurd empty nonempty
            · exact List.mem_cons_self
          · exact List.mem_cons_of_mem _ (ih patterns behind)

theorem opened_closed (operands values : List Formula)
    (opened : List.Forall₂ (fun operand value => operand = [] ∨ operand = value) operands values)
    (closed : operands.any Formula.isUnknown = false) : operands = values := by
  induction opened with
  | nil => rfl
  | cons first _ ih =>
      simp only [List.any_cons, Bool.or_eq_false_iff, Formula.isUnknown, List.isEmpty_eq_false_iff] at closed
      rw [first.resolve_left closed.1, ih closed.2]

theorem single_solution {α : Type} (all : List α) (only : α) (single : all.take 2 = [only]) :
    all = [only] := by
  match all, single with
  | [first], single => simpa using single
  | first :: second :: rest, single => simp at single

-- The image that fits the full operands also fits those that the search sees, so it is among the
-- solutions.
theorem opened_solution (coherent : t.Coherent) (known : full.Known t) (opened : app.Opens full)
    (unknown : app.unknownOperand = true) (image : Symbol → Formula)
    (fits : Fits t full.assertion full.instances image) :
    Matching.bindings t image (Matching.join (app.known.map Prod.fst)) [] 0 ∈
      Matching.solutions t (Matching.join (app.known.map Prod.fst)) [] 0
        (Matching.join (app.known.map Prod.snd)) := by
  have paired : ∀ pattern operand, (pattern, operand) ∈ app.known →
      (pattern, operand) ∈ full.patterns.zip full.instances := by
    intro pattern operand seen
    obtain ⟨own, nonempty⟩ := app.mem_known pattern operand seen
    exact opened.patterns ▸ opened_pair pattern operand _ _ _ opened.instances (nonempty unknown) own
  have zipped : full.patterns.zip full.instances =
      full.patterns.map fun pattern => (pattern, pattern.instantiate t image) := by
    rw [← fits.operands, ← patterns_instantiated known image]
    have both : (full.patterns.map id).zip (full.patterns.map (Formula.instantiate t image)) = _ :=
      List.zip_map'
    simpa using both
  have seenPattern : ∀ pattern ∈ app.known.map Prod.fst, pattern ∈ full.patterns := by
    intro pattern member
    obtain ⟨⟨own, operand⟩, seen, rfl⟩ := List.mem_map.mp member
    exact (List.of_mem_zip (paired own operand seen)).1
  refine (Matching.mem_joined_solutions t _ _ (by simp) ?_ ?_ _).mpr ⟨image, ?_, ?_, rfl⟩
  · exact fun pattern member => patterns_free coherent known pattern (seenPattern pattern member)
  · intro operand member
    obtain ⟨⟨pattern, own⟩, seen, rfl⟩ := List.mem_map.mp member
    exact known.free own (List.of_mem_zip (paired pattern own seen)).2
  · intro v present var
    have different : v ≠ separator := fun equal => by simp [equal] at var
    obtain ⟨pattern, member, used⟩ := (Matching.mem_join v different _).mp present
    exact fills_of_fits coherent known image fits v
      ((Matching.mem_join v different _).mpr ⟨pattern, seenPattern pattern member, used⟩) var
  · rw [List.map_map]
    apply List.map_congr_left
    rintro ⟨pattern, operand⟩ seen
    have inside := paired pattern operand seen
    rw [zipped] at inside
    obtain ⟨own, _, same⟩ := List.mem_map.mp inside
    cases same
    rfl

theorem agreeing_pairs (app : Application) (subst : Substitution) (image : Symbol → Formula)
    (agrees : Matching.Agrees subst image) (respects : Respects t app.owner app.assertion image) :
    app.disjointError t subst = none := by
  refine List.findSome?_eq_none_iff.mpr fun pair required => ?_
  unfold Application.pairError
  cases left : subst.lookup pair.a with
  | none => rfl
  | some a =>
      cases right : subst.lookup pair.b with
      | none => rfl
      | some b =>
          have separated := respects pair required
          rw [agrees pair.a a left, agrees pair.b b right] at separated
          simp [(clash_none_iff t app.owner a b).mpr separated]

theorem unify_opened (coherent : t.Coherent) (known : full.Known t) (opened : app.Opens full)
    (clean : (full.unify t checkDisjoint).error = none) :
    (app.unify t checkDisjoint).error = none ∧
      ((app.unify t checkDisjoint).formula = [] ∨
        (app.unify t checkDisjoint).formula = (full.unify t checkDisjoint).formula) := by
  obtain ⟨image, fits, respects⟩ := unify_clean coherent known clean
  have result := (unify_fitting coherent known image fits respects).2
  rw [result]
  cases unknown : app.unknownOperand with
  | false =>
      -- Nothing is open, so the two applications differ at most in their steps.
      have same := opened_closed _ _ opened.instances (opened.unknown ▸ unknown)
      have ownKnown : app.Known t := by
        refine ⟨opened.assertion ▸ known.member, opened.assertion ▸ known.asserted, ?_, ?_, ?_, unknown⟩
        · rw [opened.patterns, opened.assertion, known.patterns]
        · rw [same, opened.assertion, known.length]
        · exact same ▸ known.free
      rw [← opened.assertion, ← same] at fits
      rw [← opened.assertion, ← opened.owner] at respects
      have own := unify_fitting coherent ownKnown image fits respects
      rw [own.2, opened.assertion]
      exact ⟨own.1, Or.inr rfl⟩
  | true =>
      have solution := opened_solution coherent known opened unknown image fits
      unfold Application.unify
      simp only [unknown, if_true]
      split
      · exact ⟨rfl, Or.inl rfl⟩
      · exact ⟨rfl, Or.inl rfl⟩
      · rename_i subst single
        rw [Matching.solve_solutions t 2 (by omega)] at single
        have agrees : Matching.Agrees subst image := by
          rw [single_solution _ subst single, List.mem_singleton] at solution
          exact solution ▸ Matching.bindings_agree t image _
        have apart : (if checkDisjoint then app.disjointError t subst else none) = none := by
          cases checkDisjoint with
          | true =>
              have own := respects rfl
              rw [← opened.assertion, ← opened.owner] at own
              exact agreeing_pairs app subst image agrees own
          | false => rfl
        simp only [apart]
        split
        · rename_i formula applied
          refine ⟨rfl, Or.inr ?_⟩
          rw [← opened.assertion]
          exact subst.apply_agrees t image agrees _ formula applied
        · exact ⟨rfl, Or.inl rfl⟩

end Completion

end Lemmata
