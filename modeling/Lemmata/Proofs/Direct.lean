import Lemmata.Proofs.Building
import Lemmata.Proofs.Fitting

/-!
Direct application of an assertion, without search: floating hypotheses give the images of the
variables, essential hypotheses are compared with their operands, and then the disjoint variables
are checked. Unification gives the same outcome on every assertion of a table.
-/

set_option autoImplicit false

namespace Lemmata

inductive Outcome where
  | derived (formula : Formula)
  | clash
  | mismatch
deriving DecidableEq, Repr

def Unified.outcome (unified : Unified) : Option Outcome :=
  match unified.error with
  | none => some (.derived unified.formula)
  | some (.disjoint ..) => some .clash
  | some (.mismatch ..) => some .mismatch
  | some (.ambiguous ..) => none

namespace Direct

def typed (t : Table) (id : Int) : Option Symbol := (t.statement id).bind Statement.typedVariable

def isEssential (t : Table) (id : Int) : Bool :=
  match t.statement id with
  | some h => h.kind == .essential
  | none => false

def readImages (t : Table) : List Int → List Formula → Option (List (Symbol × Formula))
  | id :: ids, operand :: operands =>
      match typed t id with
      | none => readImages t ids operands
      | some v =>
          match operand with
          | [] => none
          | head :: tail =>
              if (t.formulaOf id).head? = some head ∧ tail ≠ [] then
                (readImages t ids operands).map ((v, tail) :: ·)
              else none
  | _, _ => some []

def imageOf (images : List (Symbol × Formula)) (v : Symbol) : Formula := (images.lookup v).getD []

def essentialsHold (t : Table) (image : Symbol → Formula) (ids : List Int)
    (operands : List Formula) : Bool :=
  (ids.zip operands).all fun (id, operand) =>
    !isEssential t id || (t.formulaOf id).instantiate t image == operand

def separates (t : Table) (owner : Statement) (left right : Formula) : Bool :=
  left.all fun x => right.all fun y =>
    !(t.isVariable x && t.isVariable y) || (x != y && owner.frame.allowsDisjoint x y)

def apply (t : Table) (owner assertion : Statement) (operands : List Formula) : Outcome :=
  match readImages t assertion.frame.required operands with
  | none => .mismatch
  | some images =>
      let image := imageOf images
      if essentialsHold t image assertion.frame.required operands then
        if assertion.frame.disjoint.all fun p => separates t owner (image p.a) (image p.b) then
          .derived (assertion.formula.instantiate t image)
        else .clash
      else .mismatch

theorem separates_iff (t : Table) (owner : Statement) (left right : Formula) :
    separates t owner left right = true ↔ Separated t owner left right := by
  simp only [separates, Separated, List.all_eq_true]
  constructor
  · intro all x xMember xVar y yMember yVar
    simpa [xVar, yVar] using all x xMember y yMember
  · intro separated x xMember y yMember
    cases xVar : t.isVariable x with
    | false => simp
    | true =>
        cases yVar : t.isVariable y with
        | false => simp
        | true => simpa using separated x xMember xVar y yMember yVar

theorem lookup_member (images : List (Symbol × Formula)) (v : Symbol) (value : Formula)
    (distinct : (images.map Prod.fst).Nodup) (member : (v, value) ∈ images) :
    images.lookup v = some value := by
  induction images with
  | nil => cases member
  | cons first rest ih =>
      obtain ⟨w, other⟩ := first
      obtain ⟨fresh, distinct⟩ := List.nodup_cons.mp distinct
      rcases List.mem_cons.mp member with same | behind
      · cases same
        exact List.lookup_cons_self
      · have different : v ≠ w := by
          rintro rfl
          exact fresh (List.mem_map.mpr ⟨(v, value), behind, rfl⟩)
        simp [List.lookup_cons, beq_false_of_ne different, ih distinct behind]

theorem image_of_map (image : Symbol → Formula) (vars : List Symbol) (v : Symbol) (used : v ∈ vars) :
    imageOf (vars.map fun w => (w, image w)) v = image v := by
  induction vars with
  | nil => cases used
  | cons w rest ih =>
      by_cases same : v = w
      · simp [imageOf, same]
      · rcases List.mem_cons.mp used with equal | behind
        · exact absurd equal same
        · simpa [imageOf, List.lookup_cons, beq_false_of_ne same] using ih behind

theorem read_instances (t : Table) (image : Symbol → Formula) (ids : List Int)
    (floats : ∀ id ∈ ids, ∀ v, typed t id = some v → t.isVariable v = true ∧ image v ≠ [] ∧
      ∃ typecode, t.formulaOf id = [typecode, v] ∧ t.isVariable typecode = false) :
    readImages t ids (ids.map fun id => (t.formulaOf id).instantiate t image) =
      some ((t.typedVariables ids).map fun v => (v, image v)) := by
  induction ids with
  | nil => rfl
  | cons id rest ih =>
      have others := ih fun other member => floats other (List.mem_cons_of_mem id member)
      cases known : typed t id with
      | none =>
          have vars : t.typedVariables (id :: rest) = t.typedVariables rest :=
            List.filterMap_cons_none known
          simp only [List.map_cons, readImages, known, others, vars]
      | some v =>
          have vars : t.typedVariables (id :: rest) = v :: t.typedVariables rest :=
            List.filterMap_cons_some known
          obtain ⟨var, nonempty, typecode, shape, const⟩ := floats id List.mem_cons_self v known
          simp [readImages, known, others, vars, shape, Formula.instantiate_const _ _ const,
            Formula.instantiate_var _ _ var, nonempty]

theorem read_operands (t : Table) (ids : List Int) (operands : List Formula)
    (images : List (Symbol × Formula)) (length : operands.length = ids.length)
    (read : readImages t ids operands = some images) :
    images.map Prod.fst = t.typedVariables ids ∧
      ∀ id operand, (id, operand) ∈ ids.zip operands → ∀ v, typed t id = some v →
        ∃ head tail, operand = head :: tail ∧ (t.formulaOf id).head? = some head ∧ tail ≠ [] ∧
          (v, tail) ∈ images := by
  induction ids generalizing operands images with
  | nil =>
      obtain rfl := List.length_eq_zero_iff.mp length
      cases read
      simp [Table.typedVariables]
  | cons id rest ih =>
      cases operands with
      | nil => cases length
      | cons operand others =>
          cases known : typed t id with
          | none =>
              simp only [readImages, known] at read
              obtain ⟨vars, floats⟩ := ih others images (Nat.succ.inj length) read
              refine ⟨vars.trans (List.filterMap_cons_none known).symm, ?_⟩
              intro other value member v float
              rcases List.mem_cons.mp member with same | behind
              · cases same
                simp [known] at float
              · exact floats other value behind v float
          | some v =>
              simp only [readImages, known] at read
              split at read
              · cases read
              · rename_i head tail
                split at read
                · rename_i shape
                  obtain ⟨found, inner, rfl⟩ := Option.map_eq_some_iff.mp read
                  obtain ⟨vars, floats⟩ := ih others found (Nat.succ.inj length) inner
                  refine ⟨?_, ?_⟩
                  · rw [List.map_cons, vars]
                    exact (List.filterMap_cons_some known).symm
                  · intro other value member w float
                    rcases List.mem_cons.mp member with same | behind
                    · cases same
                      rw [known] at float
                      cases float
                      exact ⟨head, tail, rfl, shape.1, shape.2, List.mem_cons_self⟩
                    · obtain ⟨first, behindFirst, split, typecode, nonempty, present⟩ :=
                        floats other value behind w float
                      exact ⟨first, behindFirst, split, typecode, nonempty,
                        List.mem_cons_of_mem _ present⟩
                · cases read

theorem map_of_zip (f : Int → Formula) (ids : List Int) (operands : List Formula)
    (length : operands.length = ids.length)
    (same : ∀ id operand, (id, operand) ∈ ids.zip operands → f id = operand) :
    ids.map f = operands := by
  induction ids generalizing operands with
  | nil => exact (List.length_eq_zero_iff.mp length).symm
  | cons id rest ih =>
      cases operands with
      | nil => cases length
      | cons operand others =>
          have first := same id operand List.mem_cons_self
          have behind := ih others (Nat.succ.inj length)
            fun other value member => same other value (List.mem_cons_of_mem _ member)
          rw [List.map_cons, first, behind]

theorem zip_of_map (f : Int → Formula) (ids : List Int) (id : Int) (operand : Formula)
    (zipped : (id, operand) ∈ ids.zip (ids.map f)) : f id = operand := by
  induction ids with
  | nil => cases zipped
  | cons first rest ih =>
      rcases List.mem_cons.mp zipped with same | behind
      · cases same
        rfl
      · exact ih behind

section Assertion

variable {t : Table} {assertion : Statement}

theorem typed_formula (coherent : t.Coherent) (id : Int) (v : Symbol) (known : typed t id = some v) :
    t.isVariable v = true ∧ ∃ typecode, t.formulaOf id = [typecode, v] ∧
      t.isVariable typecode = false := by
  obtain ⟨h, found, float⟩ := Option.bind_eq_some_iff.mp known
  rw [t.formula_of_statement id h found]
  exact coherent.floating_formula id h v found float

theorem essential_of_untyped (coherent : t.Coherent) (member : assertion ∈ t.statements)
    (asserted : assertion.isAssertion = true) (id : Int) (needed : id ∈ assertion.frame.required)
    (untyped : typed t id = none) : isEssential t id = true := by
  obtain ⟨h, found, hypothesis, _⟩ := (coherent.framed member asserted).required id needed
  cases kind : h.kind with
  | floating =>
      obtain ⟨typecode, v, shape, _⟩ :=
        (coherent.formed h (t.member_of_statement id h found)).floating kind
      simp [typed, found, Statement.typedVariable, kind, shape] at untyped
  | essential => simp [isEssential, found, kind]
  | _ => simp [Statement.isHypothesis, kind, Kind.isHypothesis] at hypothesis

theorem fits_of_read (coherent : t.Coherent) (member : assertion ∈ t.statements)
    (asserted : assertion.isAssertion = true) (operands : List Formula)
    (length : operands.length = assertion.frame.required.length) (images : List (Symbol × Formula))
    (read : readImages t assertion.frame.required operands = some images)
    (essentials : essentialsHold t (imageOf images) assertion.frame.required operands = true) :
    Fits t assertion operands (imageOf images) := by
  have framed := coherent.framed member asserted
  obtain ⟨vars, floats⟩ := read_operands t assertion.frame.required operands images length read
  have distinct : (images.map Prod.fst).Nodup := by
    rw [vars, ← framed.vars]
    exact framed.varsDistinct
  have image : ∀ v tail, (v, tail) ∈ images → imageOf images v = tail := by
    intro v tail present
    simp [imageOf, lookup_member images v tail distinct present]
  constructor
  · intro v used
    rw [framed.vars, ← vars] at used
    obtain ⟨⟨w, tail⟩, present, rfl⟩ := List.mem_map.mp used
    have typedVar : w ∈ t.typedVariables assertion.frame.required := by
      rw [← vars]
      exact List.mem_map.mpr ⟨(w, tail), present, rfl⟩
    obtain ⟨id, needed, known⟩ := List.mem_filterMap.mp typedVar
    obtain ⟨index, bounded, rfl⟩ := List.mem_iff_getElem.mp needed
    have zipped : (assertion.frame.required[index], operands[index]) ∈
        assertion.frame.required.zip operands := by
      rw [← List.getElem_zip (h := by simp; omega)]
      exact List.getElem_mem _
    obtain ⟨head, behind, _, _, nonempty, found⟩ := floats _ _ zipped w known
    rw [image w behind found]
    exact nonempty
  · apply map_of_zip _ _ _ length
    intro id operand zipped
    cases known : typed t id with
    | none =>
        have essential := essential_of_untyped coherent member asserted id
          (List.of_mem_zip zipped).1 known
        simpa [essential] using List.all_eq_true.mp essentials (id, operand) zipped
    | some v =>
        obtain ⟨head, tail, rfl, typecode, _, found⟩ := floats id operand zipped v known
        obtain ⟨var, first, shape, const⟩ := typed_formula coherent id v known
        rw [shape] at typecode ⊢
        rw [Formula.instantiate_const _ _ const, Formula.instantiate_var _ _ var, image v tail found]
        cases typecode
        simp

theorem read_of_fits (coherent : t.Coherent) (member : assertion ∈ t.statements)
    (asserted : assertion.isAssertion = true) (operands : List Formula) (image : Symbol → Formula)
    (fits : Fits t assertion operands image) :
    readImages t assertion.frame.required operands =
      some (assertion.frame.vars.map fun v => (v, image v)) := by
  rw [← fits.operands, (coherent.framed member asserted).vars]
  apply read_instances
  intro id needed v known
  obtain ⟨var, shape⟩ := typed_formula coherent id v known
  refine ⟨var, fits.nonempty v ?_, shape⟩
  rw [(coherent.framed member asserted).vars]
  exact List.mem_filterMap.mpr ⟨id, needed, known⟩

theorem essentials_of_fits (operands : List Formula) (image : Symbol → Formula)
    (fits : Fits t assertion operands image) :
    essentialsHold t image assertion.frame.required operands = true := by
  apply List.all_eq_true.mpr
  intro entry zipped
  obtain ⟨id, operand⟩ := entry
  rw [← fits.operands] at zipped
  simp [zip_of_map _ _ id operand zipped]

-- The images that are read agree with any image that fits on the variables of the assertion, and
-- no other variable occurs in its hypotheses, its conclusion or its disjoint pairs.
theorem apply_fits (coherent : t.Coherent) (member : assertion ∈ t.statements)
    (asserted : assertion.isAssertion = true) (owner : Statement) (operands : List Formula)
    (image : Symbol → Formula) (fits : Fits t assertion operands image) :
    (Respects t owner assertion image →
      apply t owner assertion operands = .derived (assertion.formula.instantiate t image)) ∧
    (¬ Respects t owner assertion image → apply t owner assertion operands = .clash) := by
  have same : ∀ v ∈ assertion.frame.vars,
      image v = imageOf (assertion.frame.vars.map fun w => (w, image w)) v :=
    fun v used => (image_of_map image assertion.frame.vars v used).symm
  have readFits := fits.congr coherent member asserted operands same
  have separation : (assertion.frame.disjoint.all fun p => separates t owner
      (imageOf (assertion.frame.vars.map fun w => (w, image w)) p.a)
      (imageOf (assertion.frame.vars.map fun w => (w, image w)) p.b)) = true ↔
        Respects t owner assertion image := by
    simp only [List.all_eq_true, separates_iff]
    constructor
    · exact respects_congr coherent member asserted owner fun v used => (same v used).symm
    · exact respects_congr coherent member asserted owner same
  simp only [apply, read_of_fits coherent member asserted operands image fits,
    essentials_of_fits operands _ readFits, if_true]
  constructor
  · intro respects
    rw [if_pos (separation.mpr respects), conclusion_congr coherent member asserted same]
  · intro clash
    rw [if_neg fun all => clash (separation.mp all)]

theorem apply_unfit (coherent : t.Coherent) (member : assertion ∈ t.statements)
    (asserted : assertion.isAssertion = true) (owner : Statement) (operands : List Formula)
    (length : operands.length = assertion.frame.required.length)
    (unfit : ∀ image, ¬ Fits t assertion operands image) :
    apply t owner assertion operands = .mismatch := by
  unfold apply
  cases read : readImages t assertion.frame.required operands with
  | none => rfl
  | some images =>
      cases essentials : essentialsHold t (imageOf images) assertion.frame.required operands with
      | false => simp [essentials]
      | true =>
          exact absurd (fits_of_read coherent member asserted operands length images read essentials)
            (unfit (imageOf images))

end Assertion

end Direct

theorem unify_outcome_direct (name : String) (declarations : List Declaration) (t : Table)
    (built : Table.build name declarations = .ok t) (owner assertion : Statement) (step : Int)
    (operands : List Formula) (member : assertion ∈ t.statements)
    (asserted : assertion.isAssertion = true)
    (length : operands.length = assertion.frame.required.length)
    (known : ∀ operand ∈ operands, operand ≠ []) (free : ∀ operand ∈ operands, separator ∉ operand) :
    let app : Application :=
      { assertion, owner, step, patterns := assertion.frame.required.map t.formulaOf,
        instances := operands, unknownOperand := operands.any Formula.isUnknown }
    (app.unify t true).outcome = some (Direct.apply t owner assertion operands) ∧
      ∀ subst ∈ (Matching.solve t 2 app.patterns app.instances).solutions,
        (subst.apply t assertion.formula).isSome = true := by
  intro app
  have coherent := Table.build_coherent name declarations t built
  have complete : operands.any Formula.isUnknown = false := by
    simpa [Formula.isUnknown] using known
  have knownApp : app.Known t := ⟨member, asserted, rfl, length, free, complete⟩
  by_cases fitting : ∃ image, Fits t assertion operands image
  · obtain ⟨image, fits⟩ := fitting
    constructor
    · by_cases respects : Respects t owner assertion image
      · obtain ⟨clean, formula⟩ := unify_derived coherent knownApp image fits respects
        rw [(Direct.apply_fits coherent member asserted owner operands image fits).1 respects]
        simp only [Unified.outcome, clean, formula]
        rfl
      · obtain ⟨a, b, x, y, failed⟩ := unify_clash coherent knownApp image fits respects
        rw [(Direct.apply_fits coherent member asserted owner operands image fits).2 respects]
        simp only [Unified.outcome, failed]
    · intro subst found
      rw [solve_fits coherent knownApp image fits, List.mem_singleton] at found
      rw [found]
      exact Option.isSome_iff_exists.mpr ⟨_, bindings_apply coherent knownApp image⟩
  · have unfit : ∀ image, ¬ Fits t assertion operands image := fun image fits => fitting ⟨image, fits⟩
    constructor
    · obtain ⟨hypothesis, pattern, operand, shape⟩ := mismatch_shape t app
      rw [Direct.apply_unfit coherent member asserted owner operands length unfit]
      simp only [Unified.outcome, unify_unfit coherent knownApp true unfit, shape]
    · intro subst found
      rw [solve_unfit coherent knownApp unfit] at found
      cases found

theorem unify_outcome_direct_sample :
    let rule := sampleStatement 6
    let operands : List Formula := [[0, 4], [0, 3], [1, 4]]
    let app : Application :=
      { assertion := rule, owner := sampleStatement 8, step := 3,
        patterns := rule.frame.required.map sampleTable.formulaOf,
        instances := operands, unknownOperand := operands.any Formula.isUnknown }
    rule ∈ sampleTable.statements ∧ operands.length = rule.frame.required.length ∧
      (app.unify sampleTable true).outcome = some (.derived [1, 4, 2, 3]) := by
  refine ⟨by decide, by decide, ?_⟩
  exact (unify_outcome_direct "sample" sampleDeclarations sampleTable sample_built (sampleStatement 8)
    (sampleStatement 6) 3 [[0, 4], [0, 3], [1, 4]] (by decide) rfl (by decide) (by decide)
    (by decide)).1

end Lemmata
