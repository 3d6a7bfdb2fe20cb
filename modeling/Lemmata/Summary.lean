import Lemmata.Issue
import Lemmata.Report.Style

/-!
Summaries of a database: how many theorems were checked, and which did not verify cleanly.
-/

set_option autoImplicit false

namespace Lemmata

structure Summary where
  database : String
  checked : Nat := 0
  incomplete : List String := []
  erroneous : List String := []
  issues : Nat := 0
  suppressed : Int := 0
deriving DecidableEq, Repr

namespace Summary

def ofResults (database : String) (results : List Result) : Summary where
  database
  checked := results.length
  incomplete := (results.filter fun r => r.verdict == .incomplete).map Result.label
  erroneous := (results.filter fun r => r.verdict.isFailure).map Result.label
  issues := results.foldr (fun r n => r.issues.length + n) 0
  suppressed := results.foldr (fun r n => r.suppressed + n) 0

def failed (s : Summary) : Bool := !s.erroneous.isEmpty

def names (title : String) (labels : List String) : Styled :=
  if labels.isEmpty then []
  else [Style.line.piece title, Style.plain.piece (" ".intercalate labels ++ "\n")]

def styled (s : Summary) : Styled :=
  if !s.failed && s.incomplete.isEmpty then [
    Style.suggestion.piece "ok: ",
    Style.file.piece s.database,
    Style.plain.piece (" (" ++ toString s.checked ++ " theorems)\n")]
  else [
    if s.failed then Style.error.piece "failed: " else Style.warning.piece "incomplete: ",
    Style.file.piece s.database,
    Style.plain.piece
      (" (" ++ toString s.checked ++ " theorems, " ++ toString s.incomplete.length
        ++ " incomplete, " ++ toString s.erroneous.length ++ " erroneous)\n")]
    ++ names "  incomplete: " s.incomplete ++ names "  erroneous: " s.erroneous

end Summary

end Lemmata
