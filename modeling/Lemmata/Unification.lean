import Lemmata.Matching

/-!
Applying an assertion. Unification finds the one substitution that turns the hypotheses of an
assertion into the operands, checks the disjoint variables, and gives the substituted conclusion.
-/

set_option autoImplicit false

namespace Lemmata

open Text

structure Application where
  assertion : Statement
  owner : Statement
  step : Int
  patterns : List Formula
  instances : List Formula
  unknownOperand : Bool
deriving DecidableEq, Repr

inductive UnifyError where
  | mismatch (step : Int) (assertion hypothesis pattern operand : String)
  | ambiguous (step : Int) (assertion first second firstResult secondResult : String)
  | disjoint (step : Int) (assertion owner a b x y : String)
deriving DecidableEq, Repr

namespace UnifyError

def message : UnifyError → String
  | mismatch step assertion hypothesis pattern operand =>
      "step " ++ toString step ++ ": hypothesis " ++ quoted hypothesis ++ " of " ++ quoted assertion
        ++ " does not match: expected pattern " ++ quoted pattern ++ ", got " ++ quoted operand
  | ambiguous step assertion first second firstResult secondResult =>
      "step " ++ toString step ++ ": unification with " ++ quoted assertion ++ " is ambiguous: "
        ++ first ++ " yields " ++ quoted firstResult ++ ", but " ++ second ++ " yields "
        ++ quoted secondResult
  | disjoint step assertion owner a b x y =>
      "step " ++ toString step ++ ": " ++ quoted assertion ++ " requires " ++ a ++ " and " ++ b
        ++ " disjoint, "
        ++ if x = y then "but both substitutions contain " ++ x
          else "so " ++ quoted owner ++ " must declare " ++ x ++ " and " ++ y ++ " disjoint"

def suggestion : UnifyError → String
  | disjoint _ _ owner _ _ x y =>
      if x = y then "" else "declare [" ++ x ++ ", " ++ y ++ "] under disjoint of " ++ owner
  | _ => ""

end UnifyError

structure Unified where
  formula : Formula := []
  subst : Substitution := []
  backtracks : Nat := 0
  error : Option UnifyError := none
deriving DecidableEq, Repr

namespace Application

-- The pairs of pattern and instance that take part in the search: with an unknown operand, only
-- those whose instance is known.
def known (app : Application) : List (Formula × Formula) :=
  let pairs := app.patterns.zip app.instances
  if app.unknownOperand then pairs.filter fun (_, operand) => !operand.isUnknown else pairs

def matchesFirst (t : Table) (app : Application) (count : Nat) : Bool :=
  !(Matching.solve t 1 (app.patterns.take count) (app.instances.take count)).solutions.isEmpty

-- The position of the first hypothesis that cannot be matched together with those before it, or
-- of the last one.
def culprit (t : Table) (app : Application) : Nat :=
  ((List.range app.patterns.length).find? fun index =>
    !app.matchesFirst t (index + 1)).getD (app.patterns.length - 1)

def mismatch (t : Table) (app : Application) : UnifyError :=
  if app.patterns.isEmpty then
    .mismatch app.step app.assertion.label "" (t.render app.assertion.formula) ""
  else
    let index := app.culprit t
    let hypothesis := (app.assertion.frame.required[index]?.map t.labelOf).getD ""
    .mismatch app.step app.assertion.label hypothesis
      (t.render (app.patterns[index]?.getD [])) (t.render (app.instances[index]?.getD []))

def ambiguous (t : Table) (app : Application) (first second : Substitution) : UnifyError :=
  let result (subst : Substitution) : String :=
    t.render ((subst.apply t app.assertion.formula).getD [])
  .ambiguous app.step app.assertion.label (first.render t) (second.render t)
    (result first) (result second)

def clash (t : Table) (owner : Statement) (left right : Formula) : Option (Symbol × Symbol) :=
  ((left.filter t.isVariable).flatMap fun x => (right.filter t.isVariable).map (x, ·)).find?
    fun (x, y) => x == y || !owner.frame.allowsDisjoint x y

def pairError (t : Table) (app : Application) (subst : Substitution) (pair : Pair) :
    Option UnifyError := do
  let left ← subst.lookup pair.a
  let right ← subst.lookup pair.b
  let (x, y) ← clash t app.owner left right
  return .disjoint app.step app.assertion.label app.owner.label
    (t.symbolName pair.a) (t.symbolName pair.b) (t.symbolName x) (t.symbolName y)

def disjointError (t : Table) (app : Application) (subst : Substitution) : Option UnifyError :=
  app.assertion.frame.disjoint.findSome? (app.pairError t subst)

-- Finds the substitution and applies it to the conclusion of the assertion. An unknown operand
-- is given the benefit of the doubt: whatever it leaves open yields the empty formula.
def unify (t : Table) (checkDisjoint : Bool) (app : Application) : Unified :=
  let known := app.known
  let search := Matching.solve t 2 (known.map Prod.fst) (known.map Prod.snd)
  let backtracks := search.backtracks
  match search.solutions with
  | [] =>
      if app.unknownOperand then { backtracks }
      else { backtracks, error := some (app.mismatch t) }
  | subst :: second :: _ =>
      if app.unknownOperand then { backtracks, subst }
      else { backtracks, subst, error := some (app.ambiguous t subst second) }
  | [subst] =>
      match if checkDisjoint then app.disjointError t subst else none with
      | some error => { backtracks, subst, error := some error }
      | none =>
          match subst.apply t app.assertion.formula with
          | some formula => { backtracks, subst, formula }
          | none =>
              if app.unknownOperand then { backtracks, subst }
              else { backtracks, subst, error := some (app.mismatch t) }

end Application

end Lemmata
