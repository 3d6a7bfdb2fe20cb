import Lemmata.Batch
import Lemmata.Config
import Lemmata.Engine
import Lemmata.Report.Diagnosis
import Lemmata.Report.Json
import Lemmata.SourceText

/-!
Verifying whole databases, one after the other, until they are done or time is up.
-/

set_option autoImplicit false

namespace Lemmata

structure Session (m : Type → Type) where
  host : Host m
  readable : Bool := false

namespace Session

variable {m : Type → Type} [Monad m]

def notify (s : Session m) (notice : Notice) : m Unit :=
  s.host.notify { notice with readable := s.readable }

-- The table of the database at a path. A database without a name is called by its path.
def loadTable (s : Session m) (path : String) : m (Except String Table) := do
  match ← s.host.read path with
  | .error cause => return .error ("opening database: open " ++ path ++ ": " ++ cause.message)
  | .ok text =>
      match Table.ofText text with
      | .error cause => return .error ("loading " ++ path ++ ": " ++ cause.message)
      | .ok table => return .ok (if table.name = "" then { table with name := path } else table)

def openEngine (s : Session m) (config : Config) (path : String) : m (Except String Engine) := do
  match ← s.loadTable path with
  | .error cause => return .error cause
  | .ok table => do
      (Engine.keptRules config.rules).forM fun rule =>
        s.notify { level := .warn, message := "rule cannot be disabled", rule }
      let engine := (Engine.ofTable table).applyRules config.rules
      return .ok (config.ignore.foldl Engine.ignoreLabel engine)

end Session

structure DatabaseReport where
  summary : Summary
  results : Option (List Result) := none
  error : String := ""
deriving DecidableEq, Repr

namespace DatabaseReport

def failed (r : DatabaseReport) : Bool := r.error != "" || r.summary.failed

def ofLoadError (path error : String) : DatabaseReport where
  summary := { database := path }
  error

def ofBatch (path : String) (batch : Batch) : DatabaseReport where
  summary := Summary.ofResults path batch.results
  results := some batch.results
  error := batch.failureText.getD ""

open Report in
def json (r : DatabaseReport) : Json :=
  .record (
    r.summary.jsonFields
      ++ [("results", match r.results with
          | some results => .list (results.map Result.json)
          | none => .null)]
      ++ Json.optionalText "error" r.error)

def text (r : DatabaseReport) : String :=
  Styled.render false ((r.results.getD []).flatMap Result.diagnosis)
    ++ (if r.error = "" then ""
      else "error: " ++ r.summary.database ++ ": " ++ r.error ++ "\n")
    ++ r.summary.styled.render false

end DatabaseReport

def anyFailed (reports : List DatabaseReport) : Bool := reports.any DatabaseReport.failed

def reportText (run : String) (reports : List DatabaseReport) : String :=
  (Report.Json.record [
    ("run_id", .text run),
    ("databases", .list (reports.map DatabaseReport.json))]).render

section Run

variable {m : Type → Type} [Monad m]

structure Verifying (m : Type → Type) where
  interrupted : m (Option String)
  openEngine : String → m (Except String Engine)
  verify : Engine → String → m (Except String Result)
  notify : Notice → m Unit

namespace Verifying

def runDatabase (v : Verifying m) (path : String) : m DatabaseReport := do
  match ← v.openEngine path with
  | .error error => do
      v.notify { level := .error, message := "Failed to load database", cause := error }
      return .ofLoadError path error
  | .ok engine => do
      let batch ← Batch.process v.interrupted (v.verify engine) engine.theorems
      if batch.interruption.isSome then
        v.notify { level := .warn, message := "Verification interrupted" }
      else if !batch.failures.isEmpty then
        v.notify { level := .error, message := "Error verifying database" }
      return .ofBatch path batch

-- The reports of the databases, up to the one at which the run is interrupted.
def runAll (v : Verifying m) : List String → m (List DatabaseReport)
  | [] => return []
  | path :: rest => do
      let report ← v.runDatabase path
      match ← v.interrupted with
      | some _ => return [report]
      | none => do
          let others ← runAll v rest
          return report :: others

end Verifying

end Run

end Lemmata
