import Lemmata.Duration
import Lemmata.Host
import Lemmata.Issue
import Lemmata.Yaml.Fit
import Lemmata.Yaml.Layout

/-!
Configurations: the severities of rules, the theorems to skip, and where results are cached.
-/

set_option autoImplicit false

namespace Lemmata

open Yaml

structure CacheConfig where
  dir : String := ""
  maxAge : Int := 0
deriving DecidableEq, Repr

structure Config where
  name : String := ""
  rules : List (String × Severity) := []
  ignore : List String := []
  workers : Int := 0
  cache : CacheConfig := {}
deriving DecidableEq, Repr

namespace Config

def defaultPath : String := ".tverify.yaml"

def standard : Config where
  name := "tverify"
  cache := { dir := ".tverify-cache" }

/-! ### Fields -/

-- The integer that a fraction becomes in a signed word of 64 bits, if it is not above its range.
-- Whatever the word cannot hold becomes its least value.
def wordOfReal? (d : Text.Decimal) : Option Int :=
  let n := d.truncated
  let limit : Int := Text.Numeral.int64Limit
  if limit < n then none else some (if Text.Numeral.inInt64 n then n else -limit)

def setInteger {α : Type} (update : α → Int → α) (a : α) (node : Node) : Fit α := do
  let found : Option Int ←
    match ← Fit.content node with
    | .scalar .null _ => return a
    | .scalar (.integer n) _ => pure (if Text.Numeral.inInt64 n then some n else none)
    | .scalar (.real (some d)) _ => pure (wordOfReal? d)
    | _ => pure none
  match found with
  | some n => return update a n
  | none => do
      Fit.misfit
      return a

def setDuration {α : Type} (update : α → Int → α) (a : α) (node : Node) : Fit α := do
  let found : Option Int ←
    match ← Fit.content node with
    | .scalar .null _ => return a
    | .scalar .text text => pure (Duration.parse? text)
    | _ => pure none
  match found with
  | some n => return update a n
  | none => do
      Fit.misfit
      return a

def setSeverity (a : Severity) (node : Node) : Fit Severity := do
  match ← Fit.content node with
  | .scalar .null _ => return a
  | .scalar _ text =>
      match Severity.parse text with
      | some severity => return severity
      | none => throw (.refused (Severity.parseError text))
  | _ => do
      Fit.misfit
      return a

def ruleField? : String → Option (Severity → Node → Fit Severity)
  | "severity" => some setSeverity
  | _ => none

def cacheField? : String → Option (CacheConfig → Node → Fit CacheConfig)
  | "dir" => some (Fit.setText fun c s => { c with dir := s })
  | "max_age" => some (setDuration fun c n => { c with maxAge := n })
  | _ => none

def field? : String → Option (Config → Node → Fit Config)
  | "name" => some (Fit.setText fun c s => { c with name := s })
  | "rules" =>
      some (Fit.setTable (Fit.record ruleField? .ok) .ok rules fun c pairs =>
        { c with rules := pairs })
  | "ignore" => some (Fit.setList Fit.text fun c xs => { c with ignore := xs })
  | "workers" => some (setInteger fun c n => { c with workers := n })
  | "cache" => some (Fit.setRecord cacheField? cache fun c d => { c with cache := d })
  | _ => none

-- Reads a configuration; what the text leaves out is as in the standard one. A text without a
-- document leaves out everything.
def ofText (text : String) : Except ReadError Config :=
  match Yaml.read field? standard text with
  | .error .empty => .ok standard
  | outcome => outcome

inductive LoadError where
  | unopened (path : String) (cause : FileError)
  | unread (path : String) (cause : ReadError)
deriving DecidableEq, Repr

def load {m : Type → Type} [Monad m] (host : Host m) (path : String) :
    m (Except LoadError Config) := do
  if path = "" then return .ok standard
  else
    match ← host.read path with
    | .ok text => return (ofText text).mapError (.unread path)
    | .error .isFolder => return .error (.unread path .malformed)
    | .error cause =>
        if cause = .missing ∧ path = defaultPath then return .ok standard
        else return .error (.unopened path cause)

def LoadError.message : LoadError → String
  | unopened path cause => "open " ++ path ++ ": " ++ cause.message
  | unread path cause => "error parsing " ++ path ++ ": " ++ cause.message

/-! ### The written form -/

def standardLayout : Layout :=
  .record [
    ("name", .text standard.name),
    ("rules", .record []),
    ("cache", .record [("dir", .text standard.cache.dir)])]

def standardText : String := standardLayout.render 4

end Config

end Lemmata
