import Lemmata.Proofs.Search

/-!
Applying an assertion to known operands. Every variable of an assertion is typed by one of its
hypotheses, so its image can be read off one operand; unification by search therefore agrees with
that direct reading, and never finds two answers.
-/

set_option autoImplicit false

namespace Lemmata

structure Fits (t : Table) (assertion : Statement) (operands : List Formula)
    (image : Symbol → Formula) : Prop where
  nonempty : ∀ v ∈ assertion.frame.vars, image v ≠ []
  operands : assertion.frame.required.map (fun id => (t.formulaOf id).instantiate t image) = operands

def Separated (t : Table) (owner : Statement) (left right : Formula) : Prop :=
  ∀ x ∈ left, t.isVariable x = true → ∀ y ∈ right, t.isVariable y = true →
    x ≠ y ∧ owner.frame.allowsDisjoint x y = true

def Respects (t : Table) (owner assertion : Statement) (image : Symbol → Formula) : Prop :=
  ∀ pair ∈ assertion.frame.disjoint, Separated t owner (image pair.a) (image pair.b)

structure Application.Known (t : Table) (app : Application) : Prop where
  member : app.assertion ∈ t.statements
  asserted : app.assertion.isAssertion = true
  patterns : app.patterns = app.assertion.frame.required.map t.formulaOf
  length : app.instances.length = app.assertion.frame.required.length
  free : ∀ operand ∈ app.instances, separator ∉ operand
  known : app.unknownOperand = false

theorem fits_unique (t : Table) (coherent : t.Coherent) (assertion : Statement)
    (member : assertion ∈ t.statements) (asserted : assertion.isAssertion = true)
    (operands : List Formula) (image other : Symbol → Formula) (fits : Fits t assertion operands image)
    (otherFits : Fits t assertion operands other) :
    ∀ v ∈ assertion.frame.vars, image v = other v := by
  intro v used
  obtain ⟨var, id, needed, typecode, shape, const⟩ := coherent.var_typed member asserted v used
  have same := List.map_inj_left.mp (fits.operands.trans otherFits.operands.symm) id needed
  simpa [shape, Formula.instantiate_const _ _ const, Formula.instantiate_var _ _ var] using same

section Congruence

variable {t : Table} {assertion : Statement} {image other : Symbol → Formula}

theorem Fits.congr (coherent : t.Coherent) (member : assertion ∈ t.statements)
    (asserted : assertion.isAssertion = true) (operands : List Formula)
    (fits : Fits t assertion operands image)
    (same : ∀ v ∈ assertion.frame.vars, image v = other v) : Fits t assertion operands other := by
  refine ⟨fun v used => same v used ▸ fits.nonempty v used, ?_⟩
  rw [← fits.operands]
  apply List.map_congr_left
  intro id needed
  apply Formula.instantiate_congr
  intro v present var
  exact (same v (coherent.required_vars member asserted id needed v present var)).symm

theorem respects_congr (coherent : t.Coherent) (member : assertion ∈ t.statements)
    (asserted : assertion.isAssertion = true) (owner : Statement)
    (same : ∀ v ∈ assertion.frame.vars, image v = other v) (respects : Respects t owner assertion image) :
    Respects t owner assertion other := by
  intro pair required
  obtain ⟨left, right⟩ := (coherent.framed member asserted).disjoint pair required
  rw [← same pair.a left, ← same pair.b right]
  exact respects pair required

theorem conclusion_congr (coherent : t.Coherent) (member : assertion ∈ t.statements)
    (asserted : assertion.isAssertion = true)
    (same : ∀ v ∈ assertion.frame.vars, image v = other v) :
    assertion.formula.instantiate t image = assertion.formula.instantiate t other := by
  apply Formula.instantiate_congr
  intro v present var
  exact same v (coherent.conclusion_vars member asserted v present var)

end Congruence

theorem clash_none_iff (t : Table) (owner : Statement) (left right : Formula) :
    Application.clash t owner left right = none ↔ Separated t owner left right := by
  simp only [Application.clash, List.find?_eq_none, List.mem_flatMap, List.mem_map, List.mem_filter]
  constructor
  · intro none x xMember xVar y yMember yVar
    have allowed := none (x, y) ⟨x, ⟨xMember, xVar⟩, y, ⟨yMember, yVar⟩, rfl⟩
    simpa using allowed
  · rintro separated ⟨x, y⟩ ⟨x', ⟨xMember, xVar⟩, y', ⟨yMember, yVar⟩, same⟩
    cases same
    simpa using separated x xMember xVar y yMember yVar

section Known

variable {t : Table} {app : Application}

theorem patterns_vars (coherent : t.Coherent) (known : app.Known t) (v : Symbol)
    (var : t.isVariable v = true) :
    v ∈ Matching.join app.patterns ↔ v ∈ app.assertion.frame.vars := by
  have different : v ≠ separator := fun equal => by simp [equal] at var
  rw [Matching.mem_join v different, known.patterns]
  constructor
  · rintro ⟨pattern, member, present⟩
    obtain ⟨id, needed, rfl⟩ := List.mem_map.mp member
    exact coherent.required_vars known.member known.asserted id needed v present var
  · intro used
    obtain ⟨_, id, needed, typecode, shape, _⟩ := coherent.var_typed known.member known.asserted v used
    exact ⟨t.formulaOf id, List.mem_map.mpr ⟨id, needed, rfl⟩, by simp [shape]⟩

theorem patterns_free (coherent : t.Coherent) (known : app.Known t) :
    ∀ pattern ∈ app.patterns, separator ∉ pattern := by
  rw [known.patterns]
  intro pattern member
  obtain ⟨id, needed, rfl⟩ := List.mem_map.mp member
  exact (coherent.required_formed known.member known.asserted id needed).separator_free

theorem fills_of_fits (coherent : t.Coherent) (known : app.Known t) (image : Symbol → Formula)
    (fits : Fits t app.assertion app.instances image) :
    Matching.Fills t image (Matching.join app.patterns) := by
  intro v present var
  have used := (patterns_vars coherent known v var).mp present
  obtain ⟨_, id, needed, typecode, shape, _⟩ := coherent.var_typed known.member known.asserted v used
  refine ⟨fits.nonempty v used, fun inside => ?_⟩
  have operand : (t.formulaOf id).instantiate t image ∈ app.instances := by
    rw [← fits.operands]
    exact List.mem_map.mpr ⟨id, needed, rfl⟩
  apply known.free _ operand
  exact (Formula.mem_instantiate _ _).mpr (Or.inr ⟨v, by simp [shape], var, inside⟩)

theorem patterns_instantiated (known : app.Known t) (image : Symbol → Formula) :
    app.patterns.map (Formula.instantiate t image) =
      app.assertion.frame.required.map fun id => (t.formulaOf id).instantiate t image := by
  rw [known.patterns, List.map_map]
  rfl

theorem mem_solutions_fits (coherent : t.Coherent) (known : app.Known t) (subst : Substitution) :
    subst ∈ Matching.solutions t (Matching.join app.patterns) [] 0 (Matching.join app.instances) ↔
      ∃ image, Fits t app.assertion app.instances image ∧
        subst = Matching.bindings t image (Matching.join app.patterns) [] 0 := by
  have length : app.patterns.length = app.instances.length := by
    rw [known.patterns, List.length_map, known.length]
  rw [Matching.mem_joined_solutions t _ _ length (patterns_free coherent known) known.free]
  constructor
  · rintro ⟨image, fills, same, rfl⟩
    refine ⟨image, ⟨?_, (patterns_instantiated known image).symm.trans same⟩, rfl⟩
    intro v used
    have var := (coherent.var_typed known.member known.asserted v used).1
    exact (fills v ((patterns_vars coherent known v var).mpr used) var).1
  · rintro ⟨image, fits, rfl⟩
    exact ⟨image, fills_of_fits coherent known image fits,
      (patterns_instantiated known image).trans fits.operands, rfl⟩

theorem bindings_of_var (coherent : t.Coherent) (known : app.Known t) (image : Symbol → Formula)
    (v : Symbol) (used : v ∈ app.assertion.frame.vars) :
    (Matching.bindings t image (Matching.join app.patterns) [] 0).lookup v = some (image v) := by
  have var := (coherent.var_typed known.member known.asserted v used).1
  apply Matching.bindings_lookup
  · intro w value impossible
    cases impossible
  · exact Or.inr ⟨(patterns_vars coherent known v var).mpr used, var⟩

-- Two different solutions would differ in the image of a variable of the assertion.
theorem solutions_agree (coherent : t.Coherent) (known : app.Known t) (first second : Substitution)
    (firstFound : first ∈ Matching.solutions t (Matching.join app.patterns) [] 0
      (Matching.join app.instances))
    (secondFound : second ∈ Matching.solutions t (Matching.join app.patterns) [] 0
      (Matching.join app.instances)) : ¬ Matching.Shorter first second := by
  intro shorter
  obtain ⟨image, fits, rfl⟩ := (mem_solutions_fits coherent known first).mp firstFound
  obtain ⟨other, otherFits, rfl⟩ := (mem_solutions_fits coherent known second).mp secondFound
  obtain ⟨v, short, long, left, right, different⟩ := Matching.shorter_lookup _ _ shorter
  rcases Matching.bindings_met t image (Matching.join app.patterns) [] 0 v (by simp [left]) with
    impossible | ⟨present, var⟩
  · cases impossible
  · have used := (patterns_vars coherent known v var).mp present
    have same := fits_unique t coherent app.assertion known.member known.asserted
      app.instances image other fits otherFits v used
    rw [bindings_of_var coherent known image v used] at left
    rw [bindings_of_var coherent known other v used] at right
    rw [← Option.some.inj left, ← Option.some.inj right] at different
    exact different same

theorem solve_fits (coherent : t.Coherent) (known : app.Known t) (image : Symbol → Formula)
    (fits : Fits t app.assertion app.instances image) :
    (Matching.solve t 2 app.patterns app.instances).solutions =
      [Matching.bindings t image (Matching.join app.patterns) [] 0] := by
  rw [Matching.solve_solutions t 2 (by omega)]
  have ascending := Matching.solutions_ascending t (Matching.join app.patterns) [] 0
    (Matching.join app.instances) (fun v value impossible => by cases impossible)
  have present := (mem_solutions_fits coherent known
    (Matching.bindings t image (Matching.join app.patterns) [] 0)).mpr ⟨image, fits, rfl⟩
  have agree := solutions_agree coherent known
  generalize Matching.solutions t (Matching.join app.patterns) [] 0 (Matching.join app.instances) = all
    at ascending present agree
  cases all with
  | nil => cases present
  | cons first others =>
      cases others with
      | nil => rw [List.mem_singleton.mp present, List.take_of_length_le (by simp)]
      | cons second rest =>
          have shorter := (List.pairwise_cons.mp ascending).1 second List.mem_cons_self
          exact absurd shorter (agree first second List.mem_cons_self
            (List.mem_cons_of_mem _ List.mem_cons_self))

theorem solve_unfit (coherent : t.Coherent) (known : app.Known t)
    (unfit : ∀ image, ¬ Fits t app.assertion app.instances image) :
    (Matching.solve t 2 app.patterns app.instances).solutions = [] := by
  have none : Matching.solutions t (Matching.join app.patterns) [] 0
      (Matching.join app.instances) = [] := by
    apply List.eq_nil_iff_forall_not_mem.mpr
    intro subst found
    obtain ⟨image, fits, _⟩ := (mem_solutions_fits coherent known subst).mp found
    exact unfit image fits
  rw [Matching.solve_solutions t 2 (by omega), none]
  rfl

theorem pair_error_none_iff (coherent : t.Coherent) (known : app.Known t) (image : Symbol → Formula)
    (pair : Pair) (required : pair ∈ app.assertion.frame.disjoint) :
    app.pairError t (Matching.bindings t image (Matching.join app.patterns) [] 0) pair = none ↔
      Separated t app.owner (image pair.a) (image pair.b) := by
  obtain ⟨left, right⟩ := (coherent.framed known.member known.asserted).disjoint pair required
  rw [← clash_none_iff]
  simp only [Application.pairError, bindings_of_var coherent known image _ left,
    bindings_of_var coherent known image _ right, Option.bind_eq_bind, Option.bind_some]
  cases Application.clash t app.owner (image pair.a) (image pair.b) <;> simp

theorem disjoint_error_none_iff (coherent : t.Coherent) (known : app.Known t)
    (image : Symbol → Formula) :
    app.disjointError t (Matching.bindings t image (Matching.join app.patterns) [] 0) = none ↔
      Respects t app.owner app.assertion image := by
  simp only [Application.disjointError, List.findSome?_eq_none_iff]
  constructor
  · intro clean pair required
    exact (pair_error_none_iff coherent known image pair required).mp (clean pair required)
  · intro respects pair required
    exact (pair_error_none_iff coherent known image pair required).mpr (respects pair required)

theorem disjoint_error_shape (subst : Substitution) (error : UnifyError)
    (failed : app.disjointError t subst = some error) :
    ∃ a b x y, error = .disjoint app.step app.assertion.label app.owner.label a b x y := by
  obtain ⟨pair, _, found⟩ := List.exists_of_findSome?_eq_some failed
  simp only [Application.pairError, Option.bind_eq_bind, Option.bind_eq_some_iff, pure,
    Option.some.injEq] at found
  obtain ⟨left, _, right, _, ⟨x, y⟩, _, rfl⟩ := found
  exact ⟨_, _, _, _, rfl⟩

theorem mismatch_shape (t : Table) (app : Application) : ∃ hypothesis pattern operand,
    app.mismatch t = .mismatch app.step app.assertion.label hypothesis pattern operand := by
  unfold Application.mismatch
  split
  · exact ⟨_, _, _, rfl⟩
  · exact ⟨_, _, _, rfl⟩

theorem known_pairs (known : app.Known t) : app.known.map Prod.fst = app.patterns ∧
    app.known.map Prod.snd = app.instances := by
  have length : app.patterns.length = app.instances.length := by
    rw [known.patterns, List.length_map, known.length]
  have all : app.known = app.patterns.zip app.instances := by
    simp [Application.known, known.known]
  rw [all]
  exact ⟨List.map_fst_zip (Nat.le_of_eq length), List.map_snd_zip (Nat.le_of_eq length.symm)⟩

theorem bindings_apply (coherent : t.Coherent) (known : app.Known t) (image : Symbol → Formula) :
    (Matching.bindings t image (Matching.join app.patterns) [] 0).apply t app.assertion.formula =
      some (app.assertion.formula.instantiate t image) := by
  have bound : ∀ v ∈ app.assertion.formula, t.isVariable v = true →
      (Matching.bindings t image (Matching.join app.patterns) [] 0).lookup v = some (image v) :=
    fun v present var => bindings_of_var coherent known image v
      (coherent.conclusion_vars known.member known.asserted v present var)
  rw [Substitution.apply_bound _ t _ fun v present var => by simp [bound v present var]]
  congr 1
  apply Formula.instantiate_congr
  intro v present var
  exact Substitution.image_of_lookup _ v _ (bound v present var)

theorem unify_unfit (coherent : t.Coherent) (known : app.Known t) (checkDisjoint : Bool)
    (unfit : ∀ image, ¬ Fits t app.assertion app.instances image) :
    (app.unify t checkDisjoint).error = some (app.mismatch t) := by
  simp only [Application.unify, known_pairs known, solve_unfit coherent known unfit, known.known,
    Bool.false_eq_true, if_false]

theorem unify_derived (coherent : t.Coherent) (known : app.Known t) (image : Symbol → Formula)
    (fits : Fits t app.assertion app.instances image)
    (respects : Respects t app.owner app.assertion image) :
    (app.unify t true).error = none ∧
      (app.unify t true).formula = app.assertion.formula.instantiate t image := by
  simp only [Application.unify, known_pairs known, solve_fits coherent known image fits,
    (disjoint_error_none_iff coherent known image).mpr respects, if_true,
    bindings_apply coherent known image, and_self]

theorem unify_clash (coherent : t.Coherent) (known : app.Known t) (image : Symbol → Formula)
    (fits : Fits t app.assertion app.instances image)
    (clash : ¬ Respects t app.owner app.assertion image) :
    ∃ a b x y, (app.unify t true).error =
      some (.disjoint app.step app.assertion.label app.owner.label a b x y) := by
  cases found : app.disjointError t (Matching.bindings t image (Matching.join app.patterns) [] 0) with
  | none => exact absurd ((disjoint_error_none_iff coherent known image).mp found) clash
  | some error =>
      obtain ⟨a, b, x, y, rfl⟩ := disjoint_error_shape _ error found
      exact ⟨a, b, x, y, by
        simp only [Application.unify, known_pairs known, solve_fits coherent known image fits, found,
          if_true]⟩

-- Success says exactly that some image turns the hypotheses into the operands and respects the
-- disjoint variables; the conclusion is its instance.
theorem unify_ok_iff (coherent : t.Coherent) (known : app.Known t) (formula : Formula) :
    (app.unify t true).error = none ∧ (app.unify t true).formula = formula ↔
      ∃ image, Fits t app.assertion app.instances image ∧
        Respects t app.owner app.assertion image ∧
        formula = app.assertion.formula.instantiate t image := by
  constructor
  · rintro ⟨clean, rfl⟩
    by_cases fitting : ∃ image, Fits t app.assertion app.instances image
    · obtain ⟨image, fits⟩ := fitting
      by_cases respects : Respects t app.owner app.assertion image
      · exact ⟨image, fits, respects, (unify_derived coherent known image fits respects).2⟩
      · obtain ⟨a, b, x, y, failed⟩ := unify_clash coherent known image fits respects
        rw [clean] at failed
        cases failed
    · have failed := unify_unfit coherent known true fun image fits => fitting ⟨image, fits⟩
      rw [clean] at failed
      cases failed
  · rintro ⟨image, fits, respects, rfl⟩
    exact unify_derived coherent known image fits respects

end Known

end Lemmata
