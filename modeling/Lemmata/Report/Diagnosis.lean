import Lemmata.Issue
import Lemmata.Report.Style

/-!
The text of issues: a headline, where the issue arose, its message, and advice. An unreadable
proof never ran, so its issues say that instead of a suggestion.
-/

set_option autoImplicit false

namespace Lemmata

namespace Issue

def location (issue : Issue) : String :=
  (if issue.database = "" then "" else issue.database ++ ":") ++ issue.label
    ++ (if 0 ≤ issue.step then " step " ++ toString issue.step else "")
    ++ (if issue.applied = "" then "" else " (" ++ issue.applied ++ ")")

def headline (issue : Issue) : Styled :=
  let degree : Styled :=
    match issue.severity with
    | .severe => [Style.error.piece "severe: "]
    | .error => [Style.error.piece "error: "]
    | .incomplete => [Style.warning.piece "incomplete: "]
    | _ => []
  degree ++ [
    Style.rule.piece (issue.rule ++ "\n"),
    Style.line.piece " --> ",
    Style.file.piece (issue.location ++ "\n"),
    Style.line.piece "  |\n"]

def advice (issue : Issue) : Styled :=
  if issue.rule = Rule.decodeError then
    [Style.line.piece "  = ", Style.plain.piece "no step of the proof was executed\n"]
  else if issue.suggestion = "" then []
  else [Style.suggestion.piece "Suggestion: ", Style.plain.piece (issue.suggestion ++ "\n")]

def remark (issue : Issue) : Styled :=
  if issue.note = "" then []
  else [Style.suggestion.piece "Note: ", Style.line.piece (issue.note ++ "\n")]

def diagnosis (issue : Issue) : Styled :=
  issue.headline
    ++ [Style.line.piece "  = ", Style.error.piece (issue.message ++ "\n")]
    ++ issue.advice ++ issue.remark ++ [Piece.bare "\n"]

end Issue

def Result.diagnosis (result : Result) : Styled :=
  result.issues.flatMap Issue.diagnosis
    ++ if result.suppressed ≤ 0 then []
      else [Style.warning.piece
        (toString result.suppressed ++ " more error(s) in " ++ result.label ++ " suppressed\n\n")]

end Lemmata
