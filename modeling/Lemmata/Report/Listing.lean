import Lemmata.Run
import Lemmata.Report.Style

/-!
Listing the steps of a run with their formulas, and the substitutions of one inspected step.
-/

set_option autoImplicit false

namespace Lemmata

def stepLabel (t : Table) : Instruction → String
  | .reference id =>
      match t.statement id with
      | some s => s.label
      | none => "<" ++ toString id ++ ">"
  | .reuse step => "@" ++ toString step
  | _ => "?"

def padStart (width : Nat) (text : String) : String :=
  String.ofList (List.replicate (width - text.length) ' ') ++ text

def padEnd (width : Nat) (text : String) : String :=
  text ++ String.ofList (List.replicate (width - text.length) ' ')

def Substitution.listing (t : Table) (subst : Substitution) : Styled :=
  subst.flatMap fun binding => [
    Style.line.piece "  | ",
    Style.plain.piece (t.symbolName binding.var ++ " := " ++ t.render binding.value ++ "\n")]

def Inspection.listing (t : Table) (inspection : Inspection) : Styled :=
  let step := "step " ++ toString inspection.step
  let own : Styled :=
    if inspection.assertion = "" then [Style.file.piece (step ++ " applies no assertion\n")]
    else
      Style.file.piece (step ++ " applies " ++ inspection.assertion ++ "\n")
        :: inspection.subst.listing t
  let parent : Styled :=
    match inspection.parentStep with
    | none => [Style.plain.piece (step ++ " is not used by a later assertion\n")]
    | some later =>
        Style.file.piece
            ("used by step " ++ toString later ++ " (" ++ inspection.parentAssertion ++ ") as "
              ++ inspection.parentHypothesis ++ "\n")
          :: inspection.parentSubst.listing t
  own ++ parent

namespace Run

def stepLine (t : Table) (numberWidth labelWidth : Nat) (number : Nat) (label : String)
    (formula : Formula) : Styled := [
  Style.line.piece (padStart numberWidth (toString number) ++ " "),
  Style.rule.piece (padEnd labelWidth label ++ " "),
  if formula.isUnknown then Style.warning.piece "?\n"
  else Style.plain.piece (t.render formula ++ "\n")]

-- The steps of a run in columns. The label column is as wide as the longest label has bytes.
def listing (t : Table) (run : Run) : Styled :=
  if run.proof.isEmpty then []
  else
    let labels := run.proof.map (stepLabel t)
    let labelWidth := labels.foldl (fun width label => max width label.utf8ByteSize) 0
    let numberWidth := (toString (run.proof.length - 1)).length
    let lines := labels.zipIdx.flatMap fun (label, number) =>
      stepLine t numberWidth labelWidth number label (run.formulaAt number)
    lines ++
      match run.inspection with
      | none => []
      | some inspection => Piece.bare "\n" :: inspection.listing t

end Run

end Lemmata
