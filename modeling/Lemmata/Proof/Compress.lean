import Lemmata.Proof.Decode

/-!
Writing compressed proofs. Labels are listed in the order of their first use, and a step gets a
save marker exactly when a later step reuses it.
-/

set_option autoImplicit false

namespace Lemmata

open LetterCode

inductive CompressError where
  | unknownStatement (step : Nat) (statement : Int)
  | forwardReuse (step : Nat) (reused : Int)
deriving DecidableEq, Repr

def CompressError.message : CompressError → String
  | unknownStatement step statement =>
      "step " ++ toString step ++ ": unknown statement " ++ toString statement
  | forwardReuse step reused =>
      "step " ++ toString step ++ ": local label refers to step " ++ toString reused

namespace Proof

def checkSteps (t : Table) (owner : Statement) : Nat → Proof → Except CompressError Unit
  | _, [] => .ok ()
  | step, .reference id :: rest =>
      if owner.frame.required.contains id || (t.statement id).isSome then
        checkSteps t owner (step + 1) rest
      else .error (.unknownStatement step id)
  | step, .reuse target :: rest =>
      if 0 ≤ target ∧ target < step then checkSteps t owner (step + 1) rest
      else .error (.forwardReuse step target)
  | step, _ :: rest => checkSteps t owner (step + 1) rest

-- The statements that the label list has to name, in the order of their first use.
def listedStatements (owner : Statement) (proof : Proof) : List Int :=
  (proof.filterMap fun
    | .reference id => if owner.frame.required.contains id then none else some id
    | _ => none).eraseDups

def savedSteps (proof : Proof) : List Nat :=
  (List.range proof.length).filter fun step => proof.contains (.reuse step)

def letterOf (required listed : List Int) (saved : List Nat) : Instruction → List Char
  | .reference id =>
      match required.idxOf? id with
      | some index => encode (index + 1)
      | none => encode (required.length + listed.idxOf id + 1)
  | .reuse step => encode (required.length + listed.length + saved.idxOf step.toNat + 1)
  | .unknown => ['?']
  | .invalid _ => []

def letterRun (required listed : List Int) (saved : List Nat) : Nat → Proof → List Char
  | _, [] => []
  | step, instruction :: rest =>
      letterOf required listed saved instruction
        ++ (if saved.contains step then ['Z'] else [])
        ++ letterRun required listed saved (step + 1) rest

def compress (t : Table) (owner : Statement) (proof : Proof) : Except CompressError String := do
  checkSteps t owner 0 proof
  let listed := listedStatements owner proof
  let labels := String.join (listed.map fun id => " " ++ t.labelOf id)
  let run := letterRun owner.frame.required listed (savedSteps proof) 0 proof
  return "(" ++ labels ++ " ) " ++ String.ofList run

end Proof

end Lemmata
