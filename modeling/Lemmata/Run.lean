import Lemmata.Issue
import Lemmata.Proof.Decode
import Lemmata.Unification

/-!
Running a proof. Instructions push hypotheses, reuse earlier steps, or take operands from the
stack and push the conclusion of an assertion. Only the first error of a run is reported; the
others are counted. What an unfinished step leaves open is never an error.
-/

set_option autoImplicit false

namespace Lemmata

open Text

structure Inspection where
  step : Nat
  assertion : String := ""
  subst : Substitution := []
  parentStep : Option Nat := none
  parentAssertion : String := ""
  parentHypothesis : String := ""
  parentSubst : Substitution := []
deriving DecidableEq, Repr

structure Run where
  owner : Statement
  proof : Proof
  formulas : List Formula := []
  -- Steps whose formulas are on the stack, the top first.
  stack : List Nat := []
  verdict : Severity := .ok
  issues : List Issue := []
  reported : List Issue := []
  errorCount : Nat := 0
  unifications : Nat := 0
  backtracks : Nat := 0
  inspection : Option Inspection := none
deriving DecidableEq, Repr

-- Instruction sequences that are no proof at all. A proof text never reads as one of them.
inductive RunError where
  | notTheorem (label : String) (kind : Kind)
  | emptyProof (label : String)
  | forwardReuse (label : String) (step : Nat) (reused : Int)
  | unknownStatement (label : String) (step : Nat) (statement : Int)
  | notUsable (label : String) (step : Nat) (kind : Kind) (used : String)
  | invalidKind (label : String) (step : Nat) (kind : Int)
deriving DecidableEq, Repr

def RunError.message : RunError → String
  | notTheorem label kind => label ++ " is a " ++ kind.name ++ ", not a theorem"
  | emptyProof label => label ++ ": empty proof"
  | forwardReuse label step reused =>
      label ++ ": step " ++ toString step ++ " reuses step " ++ toString reused
  | unknownStatement label step statement =>
      label ++ ": step " ++ toString step ++ " references unknown statement " ++ toString statement
  | notUsable label step kind used =>
      label ++ ": step " ++ toString step ++ " references " ++ kind.name ++ " " ++ quoted used
  | invalidKind label step kind =>
      label ++ ": step " ++ toString step ++ " has invalid instruction kind " ++ toString kind

namespace UnifyError

def rule : UnifyError → String
  | mismatch .. => Rule.unificationFailure
  | ambiguous .. => Rule.ambiguousUnification
  | disjoint .. => Rule.disjointViolation

end UnifyError

namespace Run

def suppressed (run : Run) : Nat := run.errorCount - 1

def result (run : Run) : Result where
  label := run.owner.label
  verdict := run.verdict
  steps := run.proof.length
  issues := run.issues
  suppressed := run.suppressed

def formulaAt (run : Run) (step : Nat) : Formula := run.formulas[step]?.getD []

def report (run : Run) (issue : Issue) : Run :=
  { run with issues := run.issues ++ [issue], reported := run.reported ++ [issue] }

def fail (t : Table) (run : Run) (rule : String) (step : Nat) (applied message : String)
    (suggestion : String := "") : Run :=
  let counted :=
    { run with errorCount := run.errorCount + 1, verdict := run.verdict.worse .error }
  if 0 < run.errorCount then counted
  else
    counted.report {
      rule, category := "proof", database := t.name, label := run.owner.label, step, applied
      message, suggestion, severity := .error }

def push (run : Run) (formula : Formula) : Run :=
  { run with formulas := run.formulas ++ [formula], stack := run.formulas.length :: run.stack }

def applicationOf (t : Table) (run : Run) (assertion : Statement) (operands : List Nat) :
    Application :=
  let instances := operands.map run.formulaAt
  { assertion
    owner := run.owner
    step := run.formulas.length
    patterns := assertion.frame.required.map t.formulaOf
    instances
    unknownOperand := instances.any Formula.isUnknown }

def noteOwn (step : Nat) (assertion : Statement) (subst : Substitution) (inspection : Inspection) :
    Inspection :=
  if inspection.step = step then { inspection with assertion := assertion.label, subst }
  else inspection

def noteParent (step : Nat) (assertion : Statement) (subst : Substitution) (inspection : Inspection)
    (operand : Nat × String) : Inspection :=
  if operand.1 = inspection.step then
    { inspection with
      parentStep := some step
      parentAssertion := assertion.label
      parentHypothesis := operand.2
      parentSubst := subst }
  else inspection

def inspect (t : Table) (step : Nat) (assertion : Statement) (operands : List Nat)
    (subst : Substitution) (inspection : Inspection) : Inspection :=
  (operands.zip (assertion.frame.required.map t.labelOf)).foldl (noteParent step assertion subst)
    (noteOwn step assertion subst inspection)

def applyTo (t : Table) (checkDisjoint : Bool) (run : Run) (assertion : Statement)
    (operands : List Nat) : Run :=
  let step := run.formulas.length
  let unified := (run.applicationOf t assertion operands).unify t checkDisjoint
  let counted := { run with
    unifications := run.unifications + 1
    backtracks := run.backtracks + unified.backtracks
    inspection := run.inspection.map (inspect t step assertion operands unified.subst) }
  match unified.error with
  | none => counted.push unified.formula
  | some error =>
      (counted.fail t error.rule step assertion.label error.message error.suggestion).push []

-- Applies an assertion to the formulas on top of the stack. If there are too few, the stack is
-- given up.
def applyAssertion (t : Table) (checkDisjoint : Bool) (run : Run) (assertion : Statement) : Run :=
  let count := assertion.frame.required.length
  if run.stack.length < count then
    let message :=
      quoted assertion.label ++ " needs " ++ toString count ++ " hypotheses but the stack holds "
        ++ toString run.stack.length
    let failed := run.fail t Rule.stackUnderflow run.formulas.length assertion.label message
    { failed with stack := [] }.push []
  else
    let operands := (run.stack.take count).reverse
    { run with stack := run.stack.drop count }.applyTo t checkDisjoint assertion operands

def step (t : Table) (checkDisjoint : Bool) (run : Run) (instruction : Instruction) :
    Except RunError Run :=
  let position := run.formulas.length
  match instruction with
  | .unknown => .ok ({ run with verdict := run.verdict.worse .incomplete }.push [])
  | .reuse target =>
      if 0 ≤ target ∧ target < position then .ok (run.push (run.formulaAt target.toNat))
      else .error (.forwardReuse run.owner.label position target)
  | .reference id =>
      match t.statement id with
      | none => .error (.unknownStatement run.owner.label position id)
      | some s =>
          if s.isHypothesis then .ok (run.push s.formula)
          else if s.isAssertion then .ok (run.applyAssertion t checkDisjoint s)
          else .error (.notUsable run.owner.label position s.kind s.label)
  | .invalid kind => .error (.invalidKind run.owner.label position kind)

def finish (t : Table) (run : Run) : Run :=
  let final := run.formulas.getLast?.getD []
  if final.isUnknown then { run with verdict := run.verdict.worse .incomplete }
  else if final = run.owner.formula then run
  else
    run.fail t Rule.resultMismatch (run.proof.length - 1) ""
      ("proof proves " ++ quoted (t.render final) ++ " instead of "
        ++ quoted (t.render run.owner.formula))

end Run

def inspectionOf (proof : Proof) (inspected : Int) : Option Inspection :=
  if 0 ≤ inspected ∧ inspected < proof.length then some { step := inspected.toNat } else none

def verifyProof (t : Table) (checkDisjoint : Bool) (inspected : Int) (owner : Statement)
    (proof : Proof) : Except RunError Run := do
  if proof.isEmpty then .error (.emptyProof owner.label)
  else
    let start : Run := { owner, proof, inspection := inspectionOf proof inspected }
    let run ← proof.foldlM (Run.step t checkDisjoint) start
    return run.finish t

def unreadable (t : Table) (owner : Statement) (error : DecodeError) : Run :=
  let run : Run := { owner, proof := [], verdict := .severe }
  run.report {
    rule := Rule.decodeError, category := "proof", database := t.name, label := owner.label
    step := -1, message := error.cause.message
    note := "at offset " ++ toString error.offset ++ " of the proof text", severity := .severe }

def verify (t : Table) (checkDisjoint : Bool) (inspected : Int) (owner : Statement) :
    Except RunError Run :=
  if owner.kind ≠ .proved then .error (.notTheorem owner.label owner.kind)
  else
    match Proof.decode t owner owner.proof with
    | .error error => .ok (unreadable t owner error)
    | .ok proof => verifyProof t checkDisjoint inspected owner proof

end Lemmata
