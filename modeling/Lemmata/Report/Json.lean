import Lemmata.Issue
import Lemmata.Summary
import Lemmata.Text.Quoted

/-!
Reports for other programs, in JSON. Fields that say nothing are left out.
-/

set_option autoImplicit false

namespace Lemmata.Report

inductive Json where
  | null
  | flag (value : Bool)
  | number (value : Int)
  | text (value : String)
  | list (items : List Json)
  | record (fields : List (String × Json))

namespace Json

-- Characters outside of the printable ranges that every reader of JSON or YAML admits.
def needsEscape (c : Char) : Bool :=
  let n := c.toNat
  n < 0x20 || (0x7F ≤ n && n < 0xA0) || n == 0x2028 || n == 0x2029 || n == 0xFEFF || n == 0xFFFE
    || n == 0xFFFF

def escape (c : Char) : List Char :=
  if c = '"' ∨ c = '\\' then ['\\', c]
  else if c = '\n' then ['\\', 'n']
  else if c = '\r' then ['\\', 'r']
  else if c = '\t' then ['\\', 't']
  else if needsEscape c then '\\' :: 'u' :: Text.hexDigits 4 c.toNat
  else [c]

def quote (text : String) : String := String.ofList ('"' :: text.toList.flatMap escape ++ ['"'])

mutual

def render : Json → String
  | null => "null"
  | flag value => if value then "true" else "false"
  | number value => toString value
  | text value => quote value
  | list items => "[" ++ ",".intercalate (renderItems items) ++ "]"
  | record fields => "\x7b" ++ ",".intercalate (renderFields fields) ++ "\x7d"

def renderItems : List Json → List String
  | [] => []
  | item :: rest => item.render :: renderItems rest

def renderFields : List (String × Json) → List String
  | [] => []
  | (name, value) :: rest => (quote name ++ ":" ++ value.render) :: renderFields rest

end

def optionalText (name value : String) : List (String × Json) :=
  if value = "" then [] else [(name, text value)]

def optionalNumber (name : String) (value : Int) : List (String × Json) :=
  if value = 0 then [] else [(name, number value)]

def optionalList (name : String) (items : List Json) : List (String × Json) :=
  if items.isEmpty then [] else [(name, list items)]

end Json

end Lemmata.Report

namespace Lemmata

open Report

def Severity.json (s : Severity) : Json := .text s.text

def Issue.json (issue : Issue) : Json :=
  .record (
    [("rule", .text issue.rule)]
      ++ Json.optionalText "category" issue.category
      ++ Json.optionalText "database" issue.database
      ++ [("label", .text issue.label), ("step", .number issue.step)]
      ++ Json.optionalText "applied" issue.applied
      ++ [("message", .text issue.message)]
      ++ Json.optionalText "suggestion" issue.suggestion
      ++ Json.optionalText "note" issue.note
      ++ [("severity", issue.severity.json)])

def Result.json (result : Result) : Json :=
  .record (
    [("label", .text result.label), ("verdict", result.verdict.json),
        ("steps", .number result.steps)]
      ++ Json.optionalList "issues" (result.issues.map Issue.json)
      ++ Json.optionalNumber "suppressed" result.suppressed
      ++ if result.cached then [("cached", .flag true)] else [])

def Summary.jsonFields (s : Summary) : List (String × Json) :=
  [("database", .text s.database), ("checked", .number s.checked)]
    ++ Json.optionalList "incomplete" (s.incomplete.map .text)
    ++ Json.optionalList "erroneous" (s.erroneous.map .text)
    ++ [("issues", .number s.issues)]
    ++ Json.optionalNumber "suppressed" s.suppressed

end Lemmata
