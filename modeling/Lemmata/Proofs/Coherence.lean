import Lemmata.Declaration
import Mathlib.Data.List.Forall2

/-!
What a table owes to the declarations that made it: every statement stands at its own position,
labels are unique, formulas use declared symbols, and the frame of an assertion types each of its
variables once. All of this survives when the table grows.
-/

set_option autoImplicit false

namespace Lemmata

theorem bind_ok {ε α β : Type} {x : Except ε α} {f : α → Except ε β} {result : β} :
    (x >>= f) = .ok result ↔ ∃ value, x = .ok value ∧ f value = .ok result := by
  cases x with
  | error e => simp [bind, Except.bind]
  | ok value => simp [bind, Except.bind]

theorem pure_ok {ε α : Type} {value result : α} :
    (pure value : Except ε α) = .ok result ↔ value = result := by
  simp [pure, Except.pure]

theorem map_m_ok {ε α β : Type} (f : α → Except ε β) (inputs : List α) (outputs : List β) :
    inputs.mapM f = .ok outputs ↔ List.Forall₂ (fun x y => f x = .ok y) inputs outputs := by
  induction inputs generalizing outputs with
  | nil => cases outputs <;> simp [pure, Except.pure]
  | cons x rest ih =>
      simp only [List.mapM_cons, bind_ok, pure_ok, List.forall₂_cons_left_iff]
      constructor
      · rintro ⟨y, first, others, tail, rfl⟩
        exact ⟨y, others, first, (ih others).mp tail, rfl⟩
      · rintro ⟨y, others, first, tail, rfl⟩
        exact ⟨y, first, others, (ih others).mpr tail, rfl⟩

theorem map_m_member {ε α β : Type} (f : α → Except ε β) (inputs : List α) (outputs : List β)
    (mapped : inputs.mapM f = .ok outputs) (y : β) (member : y ∈ outputs) :
    ∃ x ∈ inputs, f x = .ok y := by
  induction (map_m_ok f inputs outputs).mp mapped with
  | nil => cases member
  | cons first _ ih =>
      rcases List.mem_cons.mp member with rfl | behind
      · exact ⟨_, List.mem_cons_self, first⟩
      · obtain ⟨x, present, made⟩ := ih ((map_m_ok f _ _).mpr ‹_›) behind
        exact ⟨x, List.mem_cons_of_mem _ present, made⟩

theorem mem_intercalate {α : Type} (bar x : α) (different : x ≠ bar) (parts : List (List α)) :
    x ∈ [bar].intercalate parts ↔ ∃ part ∈ parts, x ∈ part := by
  induction parts with
  | nil => simp [List.intercalate]
  | cons first others ih =>
      cases others with
      | nil => simp [List.intercalate]
      | cons second others =>
          rw [List.intercalate_cons_cons, List.mem_append, List.mem_append, ih]
          simp [different]

theorem separated_parts {α : Type} (bar : α) (left right restLeft restRight : List α)
    (leftFree : bar ∉ left) (rightFree : bar ∉ right)
    (same : left ++ bar :: restLeft = right ++ bar :: restRight) :
    left = right ∧ restLeft = restRight := by
  induction left generalizing right with
  | nil =>
      cases right with
      | nil => exact ⟨rfl, (List.cons.inj same).2⟩
      | cons s rest => exact absurd ((List.cons.inj same).1 ▸ List.mem_cons_self) rightFree
  | cons s rest ih =>
      cases right with
      | nil => exact absurd ((List.cons.inj same).1 ▸ List.mem_cons_self) leftFree
      | cons s' rest' =>
          obtain ⟨head, tail⟩ := List.cons.inj same
          obtain ⟨equal, behind⟩ := ih rest' (fun present => leftFree (List.mem_cons_of_mem s present))
            (fun present => rightFree (List.mem_cons_of_mem s' present)) tail
          exact ⟨by rw [head, equal], behind⟩

namespace Table

def Declares (t : Table) (s : Symbol) : Prop := (t.symbolInfo s).isSome = true

structure Extends (t larger : Table) : Prop where
  symbols : t.symbols <+: larger.symbols
  statements : t.statements <+: larger.statements

theorem declares_iff (t : Table) (s : Int) :
    t.Declares s ↔ 0 ≤ s ∧ s < t.symbols.length := by
  have entry : t.symbolInfo s = if (s : Int) < 0 then none else t.symbols[s.toNat]? := rfl
  unfold Declares
  rw [entry]
  split
  · simp only [Option.isSome_none, Bool.false_eq_true, false_iff]
    omega
  · rename_i inside
    simp only [Option.isSome_iff_exists, List.getElem?_eq_some_iff]
    constructor
    · rintro ⟨info, bounded, _⟩
      omega
    · rintro ⟨_, bounded⟩
      have position : s.toNat < t.symbols.length := by omega
      exact ⟨t.symbols[s.toNat], position, rfl⟩

theorem separator_undeclared (t : Table) : ¬ t.Declares separator := by
  rw [declares_iff]
  simp [separator]

theorem variable_declared (t : Table) (s : Symbol) (var : t.isVariable s = true) :
    t.Declares s := by
  unfold isVariable at var
  unfold Declares
  cases found : t.symbolInfo s with
  | none => simp [found] at var
  | some info => rfl

@[simp] theorem separator_constant (t : Table) : t.isVariable separator = false := by
  cases var : t.isVariable separator with
  | false => rfl
  | true => exact absurd (variable_declared t separator var) (separator_undeclared t)

theorem statement_position (t : Table) (id : Int) (s : Statement)
    (found : t.statement id = some s) :
    0 ≤ id ∧ id < t.statements.length ∧ t.statements[id.toNat]? = some s := by
  unfold statement at found
  by_cases negative : id < 0
  · simp [negative] at found
  · rw [if_neg negative] at found
    have bounded := (List.getElem?_eq_some_iff.mp found).1
    exact ⟨by omega, by omega, found⟩

theorem member_of_statement (t : Table) (id : Int) (s : Statement)
    (found : t.statement id = some s) : s ∈ t.statements :=
  List.mem_of_getElem? (t.statement_position id s found).2.2

theorem statement_at (t : Table) (position : Nat) :
    t.statement position = t.statements[position]? := by
  have inside : ¬ (position : Int) < 0 := by omega
  simp only [statement, if_neg inside, Int.toNat_natCast]

namespace Extends

variable {t larger : Table}

theorem symbolInfo (grown : t.Extends larger) (s : Int) (declared : t.Declares s) :
    larger.symbolInfo s = t.symbolInfo s := by
  obtain ⟨added, symbols⟩ := grown.symbols
  obtain ⟨nonnegative, bounded⟩ := (declares_iff t s).mp declared
  have inside : s.toNat < t.symbols.length := by omega
  unfold Table.symbolInfo
  rw [← symbols, List.getElem?_append_left inside]

theorem declares (grown : t.Extends larger) (s : Symbol) (declared : t.Declares s) :
    larger.Declares s := by
  have same := grown.symbolInfo s declared
  unfold Declares at *
  rw [same, declared]

theorem isVariable (grown : t.Extends larger) (s : Symbol) (declared : t.Declares s) :
    larger.isVariable s = t.isVariable s := by
  unfold Table.isVariable
  rw [grown.symbolInfo s declared]

theorem statement (grown : t.Extends larger) (id : Int) (s : Statement)
    (found : t.statement id = some s) : larger.statement id = some s := by
  obtain ⟨added, statements⟩ := grown.statements
  obtain ⟨nonnegative, bounded, position⟩ := statement_position t id s found
  unfold Table.statement
  rw [if_neg (by omega), ← statements, List.getElem?_append_left (by omega)]
  exact position

end Extends

def typedVariables (t : Table) (ids : List Int) : List Symbol :=
  ids.filterMap fun id => (t.statement id).bind Statement.typedVariable

end Table

-- A formula that a labelled statement may have: it starts with a constant and uses declared
-- symbols only.
structure Formula.Formed (t : Table) (formula : Formula) : Prop where
  headed : ∃ head tail, formula = head :: tail ∧ t.isVariable head = false
  declared : ∀ s ∈ formula, t.Declares s

namespace Formula.Formed

variable {t larger : Table} {formula : Formula}

theorem nonempty (formed : formula.Formed t) : formula ≠ [] := by
  obtain ⟨head, tail, rfl, _⟩ := formed.headed
  simp

theorem separator_free (formed : formula.Formed t) : separator ∉ formula := by
  intro present
  exact t.separator_undeclared (formed.declared separator present)

theorem extend (formed : formula.Formed t) (grown : t.Extends larger) : formula.Formed larger := by
  obtain ⟨head, tail, rfl, const⟩ := formed.headed
  refine ⟨⟨head, tail, rfl, ?_⟩, fun s present => grown.declares s (formed.declared s present)⟩
  rw [grown.isVariable head (formed.declared head (by simp)), const]

end Formula.Formed

def Table.HypothesisBefore (t : Table) (limit id : Int) : Prop :=
  ∃ h, t.statement id = some h ∧ h.isHypothesis = true ∧ id < limit

structure Statement.Framed (t : Table) (s : Statement) : Prop where
  required : ∀ id ∈ s.frame.required, t.HypothesisBefore s.id id
  optional : ∀ id ∈ s.frame.optional, t.HypothesisBefore s.id id
  apart : ∀ id ∈ s.frame.optional, id ∉ s.frame.required
  vars : s.frame.vars = t.typedVariables s.frame.required
  varsDistinct : s.frame.vars.Nodup
  typed : ∀ x ∈ t.scopeOf s.formula s.frame.required, t.isVariable x = true → x ∈ s.frame.vars
  disjoint : ∀ p ∈ s.frame.disjoint, p.a ∈ s.frame.vars ∧ p.b ∈ s.frame.vars
  optionalDisjoint : ∀ p ∈ s.frame.optionalDisjoint, ¬ (p.a ∈ s.frame.vars ∧ p.b ∈ s.frame.vars)
  ordered : ∀ p ∈ s.frame.pairs, p.a < p.b
  pairsDistinct : s.frame.pairs.Nodup

theorem Statement.Framed.usable {t : Table} {s : Statement} (framed : s.Framed t) (id : Int)
    (usable : id ∈ s.frame.required ++ s.frame.optional) : t.HypothesisBefore s.id id := by
  rcases List.mem_append.mp usable with required | optional
  · exact framed.required id required
  · exact framed.optional id optional

structure Statement.Formed (t : Table) (s : Statement) : Prop where
  labelled : s.label ≠ "" ↔ s.isHypothesis = true ∨ s.isAssertion = true
  plain : isLabelName s.label = true
  formula : s.label ≠ "" → s.formula.Formed t
  floating : s.kind = .floating → ∃ typecode v, s.formula = [typecode, v] ∧ t.isVariable v = true
  framed : s.isAssertion = true → s.Framed t

-- The representation invariant of tables.
structure Table.Coherent (t : Table) : Prop where
  placed : ∀ (position : Nat) s, t.statements[position]? = some s → s.id = position
  formed : ∀ s ∈ t.statements, s.Formed t
  labels : t.statements.Pairwise fun s other => s.label ≠ "" → s.label ≠ other.label
  names : (t.symbols.map SymbolInfo.name).Nodup

namespace Table.Coherent

variable {t : Table}

theorem statement_id (coherent : t.Coherent) (id : Int) (s : Statement)
    (found : t.statement id = some s) : s.id = id := by
  obtain ⟨nonnegative, _, position⟩ := t.statement_position id s found
  have placed := coherent.placed id.toNat s position
  omega

theorem statement_of_member (coherent : t.Coherent) (s : Statement) (member : s ∈ t.statements) :
    t.statement s.id = some s := by
  obtain ⟨position, found⟩ := List.mem_iff_getElem?.mp member
  rw [coherent.placed position s found, t.statement_at, found]

theorem id_bounds (coherent : t.Coherent) (s : Statement) (member : s ∈ t.statements) :
    0 ≤ s.id ∧ s.id < t.statements.length := by
  have position := t.statement_position s.id s (coherent.statement_of_member s member)
  exact ⟨position.1, position.2.1⟩

theorem same_label (coherent : t.Coherent) (s other : Statement) (member : s ∈ t.statements)
    (otherMember : other ∈ t.statements) (labelled : s.label ≠ "") (same : s.label = other.label) :
    s = other := by
  obtain ⟨i, iBound, rfl⟩ := List.mem_iff_getElem.mp member
  obtain ⟨j, jBound, rfl⟩ := List.mem_iff_getElem.mp otherMember
  have separate := List.pairwise_iff_getElem.mp coherent.labels
  rcases Nat.lt_trichotomy i j with before | equal | behind
  · exact absurd same (separate i j iBound jBound before labelled)
  · simp only [equal]
  · exact absurd same.symm (separate j i jBound iBound behind (same ▸ labelled))

theorem lookup_label (coherent : t.Coherent) (s : Statement) (member : s ∈ t.statements)
    (labelled : s.label ≠ "") : t.lookup s.label = some s := by
  unfold Table.lookup
  rw [if_neg labelled]
  cases found : t.statements.find? fun other => other.label == s.label with
  | none => simpa using List.find?_eq_none.mp found s member
  | some other =>
      have label : other.label = s.label := by simpa using List.find?_some found
      have same := coherent.same_label s other member (List.mem_of_find?_eq_some found) labelled
        label.symm
      rw [same]

end Table.Coherent

theorem Statement.assertion_not_hypothesis (s : Statement) (asserted : s.isAssertion = true) :
    s.isHypothesis = false := by
  cases kind : s.kind <;>
    simp_all [Statement.isHypothesis, Statement.isAssertion, Kind.isHypothesis, Kind.isAssertion]

theorem Statement.hypothesis_not_assertion (s : Statement) (hypothesis : s.isHypothesis = true) :
    s.isAssertion = false := by
  cases asserted : s.isAssertion with
  | false => rfl
  | true =>
      rw [s.assertion_not_hypothesis asserted] at hypothesis
      cases hypothesis

theorem Statement.proved_asserted (s : Statement) (proved : s.kind = .proved) :
    s.isAssertion = true := by
  simp [Statement.isAssertion, proved, Kind.isAssertion]

theorem Table.theorem_asserted (t : Table) (s : Statement) (proved : s ∈ t.theorems) :
    s ∈ t.statements ∧ s.isAssertion = true := by
  obtain ⟨member, kind⟩ := List.mem_filter.mp proved
  exact ⟨member, s.proved_asserted (by simpa using kind)⟩

theorem Table.theorem_kind (t : Table) (s : Statement) (proved : s ∈ t.theorems) : s.kind = .proved := by
  simpa using (List.mem_filter.mp proved).2

theorem Table.lookup_some (t : Table) (label : String) (s : Statement)
    (found : t.lookup label = some s) : s ∈ t.statements ∧ s.label = label ∧ label ≠ "" := by
  unfold Table.lookup at found
  by_cases empty : label = ""
  · simp [empty] at found
  · rw [if_neg empty] at found
    exact ⟨List.mem_of_find?_eq_some found, by simpa using List.find?_some found, empty⟩

theorem Table.formula_of_statement (t : Table) (id : Int) (s : Statement)
    (found : t.statement id = some s) : t.formulaOf id = s.formula := by
  simp only [Table.formulaOf, found]

theorem Table.mem_typed_variables (t : Table) (ids : List Int) (v : Symbol) :
    v ∈ t.typedVariables ids ↔
      ∃ id ∈ ids, ∃ h, t.statement id = some h ∧ h.typedVariable = some v := by
  simp only [Table.typedVariables, List.mem_filterMap, Option.bind_eq_some_iff]

namespace Table.Coherent

variable {t : Table}

theorem hypothesis_formed (coherent : t.Coherent) (id : Int) (h : Statement)
    (found : t.statement id = some h) (hypothesis : h.isHypothesis = true) : h.formula.Formed t := by
  have formed := coherent.formed h (t.member_of_statement id h found)
  exact formed.formula (formed.labelled.mpr (Or.inl hypothesis))

theorem floating_formula (coherent : t.Coherent) (id : Int) (h : Statement) (v : Symbol)
    (found : t.statement id = some h) (typed : h.typedVariable = some v) :
    t.isVariable v = true ∧ ∃ typecode, h.formula = [typecode, v] ∧ t.isVariable typecode = false := by
  have formed := coherent.formed h (t.member_of_statement id h found)
  have floating : h.kind = .floating := by
    unfold Statement.typedVariable at typed
    split at typed
    · assumption
    · cases typed
  obtain ⟨typecode, w, shape, var⟩ := formed.floating floating
  have hypothesis : h.isHypothesis = true := by
    simp only [Statement.isHypothesis, floating, Kind.isHypothesis]
  have same : w = v := by
    simpa [Statement.typedVariable, floating, shape] using typed
  obtain ⟨head, tail, split, const⟩ := (coherent.hypothesis_formed id h found hypothesis).headed
  rw [shape] at split
  cases split
  exact ⟨same ▸ var, typecode, same ▸ shape, const⟩

variable {assertion : Statement}

theorem framed (coherent : t.Coherent) (member : assertion ∈ t.statements)
    (asserted : assertion.isAssertion = true) : assertion.Framed t :=
  (coherent.formed assertion member).framed asserted

theorem conclusion_formed (coherent : t.Coherent) (member : assertion ∈ t.statements)
    (asserted : assertion.isAssertion = true) : assertion.formula.Formed t := by
  have formed := coherent.formed assertion member
  exact formed.formula (formed.labelled.mpr (Or.inr asserted))

theorem required_formed (coherent : t.Coherent) (member : assertion ∈ t.statements)
    (asserted : assertion.isAssertion = true) (id : Int) (needed : id ∈ assertion.frame.required) :
    (t.formulaOf id).Formed t := by
  obtain ⟨h, found, hypothesis, _⟩ := (coherent.framed member asserted).required id needed
  rw [t.formula_of_statement id h found]
  exact coherent.hypothesis_formed id h found hypothesis

theorem var_typed (coherent : t.Coherent) (member : assertion ∈ t.statements)
    (asserted : assertion.isAssertion = true) (v : Symbol) (used : v ∈ assertion.frame.vars) :
    t.isVariable v = true ∧ ∃ id ∈ assertion.frame.required, ∃ typecode,
      t.formulaOf id = [typecode, v] ∧ t.isVariable typecode = false := by
  rw [(coherent.framed member asserted).vars] at used
  obtain ⟨id, needed, h, found, typed⟩ := (t.mem_typed_variables _ v).mp used
  obtain ⟨var, typecode, shape, const⟩ := coherent.floating_formula id h v found typed
  exact ⟨var, id, needed, typecode, (t.formula_of_statement id h found).trans shape, const⟩

theorem conclusion_vars (coherent : t.Coherent) (member : assertion ∈ t.statements)
    (asserted : assertion.isAssertion = true) (x : Symbol) (present : x ∈ assertion.formula)
    (var : t.isVariable x = true) : x ∈ assertion.frame.vars := by
  apply (coherent.framed member asserted).typed x _ var
  simp only [Table.scopeOf, List.mem_append]
  exact Or.inl present

theorem required_vars (coherent : t.Coherent) (member : assertion ∈ t.statements)
    (asserted : assertion.isAssertion = true) (id : Int) (needed : id ∈ assertion.frame.required)
    (x : Symbol) (present : x ∈ t.formulaOf id) (var : t.isVariable x = true) :
    x ∈ assertion.frame.vars := by
  have framed := coherent.framed member asserted
  obtain ⟨h, found, hypothesis, _⟩ := framed.required id needed
  rw [t.formula_of_statement id h found] at present
  cases kind : h.kind with
  | floating =>
      obtain ⟨typecode, v, shape, _⟩ :=
        (coherent.formed h (t.member_of_statement id h found)).floating kind
      have typed : h.typedVariable = some v := by simp [Statement.typedVariable, kind, shape]
      obtain ⟨_, head, headed, const⟩ := coherent.floating_formula id h v found typed
      have same : x = v := by
        rw [headed] at present
        rcases List.mem_pair.mp present with rfl | equal
        · simp [const] at var
        · exact equal
      rw [framed.vars, same]
      exact (t.mem_typed_variables _ v).mpr ⟨id, needed, h, found, typed⟩
  | essential =>
      apply framed.typed x _ var
      simp only [Table.scopeOf, List.mem_append, List.mem_flatMap]
      exact Or.inr ⟨id, needed, by simpa [found, kind] using present⟩
  | _ => simp [Statement.isHypothesis, kind, Kind.isHypothesis] at hypothesis

end Table.Coherent

end Lemmata
