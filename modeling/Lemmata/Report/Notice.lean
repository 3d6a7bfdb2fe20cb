import Lemmata.Report.Json

/-!
Notices about a run for whoever watches it, as lines that programs or people can read.
-/

set_option autoImplicit false

namespace Lemmata

inductive NoticeLevel where
  | warn
  | error
  | fatal
deriving DecidableEq, Repr

def NoticeLevel.name : NoticeLevel → String
  | warn => "warn"
  | error => "error"
  | fatal => "fatal"

structure Notice where
  level : NoticeLevel
  message : String
  label : String := ""
  rule : String := ""
  cause : String := ""
  -- Whether the line is for people.
  readable : Bool := false
deriving DecidableEq, Repr

namespace Notice

open Report

def json (n : Notice) : Json :=
  .record (
    [("level", .text n.level.name), ("msg", .text n.message)]
      ++ Json.optionalText "label" n.label
      ++ Json.optionalText "rule" n.rule
      ++ Json.optionalText "error" n.cause)

def line (n : Notice) : String :=
  if n.readable then
    let details := [n.label, n.rule, n.cause].filter (· != "")
    "\t".intercalate (n.level.name.toUpper :: n.message :: details)
  else n.json.render

end Notice

end Lemmata
