import Lemmata.Run
import Lemmata.Proofs.OpenOperands

/-!
Unification looks at the symbols of its application only. Tables that tell the same about these
symbols give the same outcome, apart from the texts of an error.
-/

set_option autoImplicit false

namespace Lemmata

def Formula.Shared (t other : Table) (formula : Formula) : Prop :=
  ∀ x ∈ formula, t.symbolInfo x = other.symbolInfo x

section Symbols

variable {t other : Table}

theorem shared_variable (x : Symbol) (same : t.symbolInfo x = other.symbolInfo x) :
    t.isVariable x = other.isVariable x := by
  simp only [Table.isVariable, same]

theorem shared_name (x : Symbol) (same : t.symbolInfo x = other.symbolInfo x) :
    t.symbolName x = other.symbolName x := by
  simp only [Table.symbolName, same]

theorem shared_filter (formula : Formula) (shared : formula.Shared t other) :
    formula.filter t.isVariable = formula.filter other.isVariable :=
  List.filter_congr fun x present => shared_variable x (shared x present)

theorem Matching.join_shared (formulas : List Formula)
    (shared : ∀ formula ∈ formulas, formula.Shared t other) :
    (join formulas).Shared t other := by
  intro x present
  by_cases bar : x = separator
  · subst bar
    rfl
  · obtain ⟨formula, member, inside⟩ := (mem_join x bar formulas).mp present
    exact shared formula member x inside

theorem Matching.extend_shared (limit : Nat) (scheme : Formula) (shared : scheme.Shared t other)
    (bound : Substitution) (start : Nat) (operands : Formula) (search : Search) :
    extend t limit scheme bound start operands search =
      extend other limit scheme bound start operands search := by
  induction scheme generalizing bound start operands search with
  | nil => rfl
  | cons s scheme ih =>
      have var := shared_variable s (shared s List.mem_cons_self)
      have behind := ih fun x present => shared x (List.mem_cons_of_mem s present)
      simp only [extend, var, behind]

theorem Matching.solve_shared (limit : Nat) (patterns instances : List Formula)
    (shared : ∀ pattern ∈ patterns, pattern.Shared t other) :
    solve t limit patterns instances = solve other limit patterns instances :=
  extend_shared limit _ (join_shared patterns shared) [] 0 _ {}

theorem Substitution.apply_shared (subst : Substitution) (formula : Formula)
    (shared : formula.Shared t other) :
    subst.apply t formula = subst.apply other formula := by
  induction formula with
  | nil => rfl
  | cons s rest ih =>
      have var := shared_variable s (shared s List.mem_cons_self)
      simp only [apply, var, ih fun x present => shared x (List.mem_cons_of_mem s present)]

end Symbols

def UnifyError.advice (error : UnifyError) : String × String := (error.rule, error.suggestion)

-- Two outcomes of unification that lead to the same step.
structure Unified.Alike (unified other : Unified) : Prop where
  formula : unified.formula = other.formula
  subst : unified.subst = other.subst
  backtracks : unified.backtracks = other.backtracks
  error : unified.error.map UnifyError.advice = other.error.map UnifyError.advice

namespace Application

variable {t other : Table} {app : Application} {checkDisjoint : Bool}

theorem clash_shared (owner : Statement) (left right : Formula) (leftShared : left.Shared t other)
    (rightShared : right.Shared t other) : clash t owner left right = clash other owner left right := by
  simp only [clash, shared_filter left leftShared, shared_filter right rightShared]

theorem clash_member (owner : Statement) (left right : Formula) (x y : Symbol)
    (found : clash t owner left right = some (x, y)) : x ∈ left ∧ y ∈ right := by
  have member := List.mem_of_find?_eq_some found
  simp only [List.mem_flatMap, List.mem_map, List.mem_filter, Prod.mk.injEq] at member
  obtain ⟨_, inLeft, _, inRight, rfl, rfl⟩ := member
  exact ⟨inLeft.1, inRight.1⟩

theorem solution_shared (operands : ∀ operand ∈ app.instances, operand.Shared t other) (subst : Substitution)
    (found : subst ∈ (Matching.solve t 2 (app.known.map Prod.fst) (app.known.map Prod.snd)).solutions)
    (v : Symbol) (value : Formula) (bound : subst.lookup v = some value) : value.Shared t other := by
  intro x present
  rw [Matching.solve_solutions t 2 (by omega)] at found
  obtain ⟨operand, member, inside⟩ :=
    Matching.solution_window t _ _ subst (List.mem_of_mem_take found) v value bound x present
  obtain ⟨⟨pattern, own⟩, seen, rfl⟩ := List.mem_map.mp member
  exact operands own (List.of_mem_zip (app.mem_known pattern own seen).1).2 x inside

theorem pair_error_shared (subst : Substitution)
    (values : ∀ v value, subst.lookup v = some value → value.Shared t other) (pair : Pair) :
    (app.pairError t subst pair).map UnifyError.advice =
      (app.pairError other subst pair).map UnifyError.advice := by
  unfold pairError
  cases left : subst.lookup pair.a with
  | none => rfl
  | some a =>
      cases right : subst.lookup pair.b with
      | none => rfl
      | some b =>
          have aShared := values pair.a a left
          have bShared := values pair.b b right
          simp only [Option.bind_eq_bind, Option.bind_some, ← clash_shared app.owner a b aShared bShared]
          cases found : clash t app.owner a b with
          | none => rfl
          | some symbols =>
              obtain ⟨x, y⟩ := symbols
              obtain ⟨inLeft, inRight⟩ := clash_member app.owner a b x y found
              simp [UnifyError.advice, UnifyError.rule, UnifyError.suggestion,
                shared_name x (aShared x inLeft), shared_name y (bShared y inRight)]

theorem disjoint_error_shared (subst : Substitution)
    (values : ∀ v value, subst.lookup v = some value → value.Shared t other) :
    (app.disjointError t subst).map UnifyError.advice =
      (app.disjointError other subst).map UnifyError.advice := by
  simp only [disjointError, List.map_findSome?]
  congr 1
  funext pair
  exact pair_error_shared subst values pair

theorem mismatch_advice (app : Application) :
    (app.mismatch t).advice = (Rule.unificationFailure, "") := by
  by_cases axiomatic : app.patterns.isEmpty
  · rw [mismatch, if_pos axiomatic]
    rfl
  · rw [mismatch, if_neg axiomatic]
    rfl

theorem unify_shared (patterns : ∀ pattern ∈ app.patterns, pattern.Shared t other)
    (conclusion : app.assertion.formula.Shared t other)
    (operands : ∀ operand ∈ app.instances, operand.Shared t other) :
    (app.unify t checkDisjoint).Alike (app.unify other checkDisjoint) := by
  have seen : ∀ pattern ∈ app.known.map Prod.fst, pattern.Shared t other := by
    intro pattern member
    obtain ⟨⟨own, operand⟩, present, rfl⟩ := List.mem_map.mp member
    exact patterns own (List.of_mem_zip (app.mem_known own operand present).1).1
  have search := Matching.solve_shared 2 _ (app.known.map Prod.snd) seen
  have mismatched : (some (app.mismatch t)).map UnifyError.advice =
      (some (app.mismatch other)).map UnifyError.advice := by
    simp only [Option.map_some, mismatch_advice]
  have applied := fun subst : Substitution => subst.apply_shared app.assertion.formula conclusion
  simp only [unify, ← search]
  cases found : (Matching.solve t 2 (app.known.map Prod.fst) (app.known.map Prod.snd)).solutions with
  | nil =>
      cases app.unknownOperand with
      | true => exact ⟨rfl, rfl, rfl, rfl⟩
      | false => exact ⟨rfl, rfl, rfl, mismatched⟩
  | cons subst others =>
      cases others with
      | cons second rest =>
          cases app.unknownOperand with
          | true => exact ⟨rfl, rfl, rfl, rfl⟩
          | false => exact ⟨rfl, rfl, rfl, rfl⟩
      | nil =>
          have values := solution_shared operands subst (by simp [found])
          have apart : (if checkDisjoint then app.disjointError t subst else none).map UnifyError.advice =
              (if checkDisjoint then app.disjointError other subst else none).map UnifyError.advice := by
            cases checkDisjoint with
            | true => exact disjoint_error_shared subst values
            | false => rfl
          simp only [applied subst]
          revert apart
          generalize (if checkDisjoint then app.disjointError t subst else none) = own
          generalize (if checkDisjoint then app.disjointError other subst else none) = foreign
          intro apart
          cases own with
          | some error =>
              cases foreign with
              | some second => exact ⟨rfl, rfl, rfl, apart⟩
              | none => cases apart
          | none =>
              cases foreign with
              | some second => cases apart
              | none =>
                  cases subst.apply other app.assertion.formula with
                  | some formula => exact ⟨rfl, rfl, rfl, rfl⟩
                  | none =>
                      cases app.unknownOperand with
                      | true => exact ⟨rfl, rfl, rfl, rfl⟩
                      | false => exact ⟨rfl, rfl, rfl, mismatched⟩

end Application

end Lemmata
