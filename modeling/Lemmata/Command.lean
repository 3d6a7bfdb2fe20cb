import Lemmata.CacheText
import Lemmata.Collect
import Lemmata.Options
import Lemmata.Proof.Form
import Lemmata.Report.Listing
import Lemmata.Verification

/-!
The commands of the program. Each of them ends with an exit code: zero, or one if something is
wrong.
-/

set_option autoImplicit false

namespace Lemmata.Command

variable {m : Type → Type} [Monad m]

def fatal (s : Session m) (message cause : String) : m Nat := do
  s.notify { level := .fatal, message, cause }
  return 1

/-! ### Verifying -/

def cacheFile (config : Config) : String × String :=
  let dir := if config.cache.dir = "" then Config.standard.cache.dir else config.cache.dir
  (dir, Path.join dir "verify_cache.db")

def openCache (s : Session m) (config : Config) : m (Except String Cache) := do
  let (dir, file) := cacheFile config
  match ← s.host.makeFolder dir with
  | .error cause => return .error ("failed to create cache directory: " ++ cause.message)
  | .ok () =>
      let text ←
        match ← s.host.read file with
        | .error .missing => pure (.ok "")
        | outcome => pure outcome
      let cache :=
        text.mapError FileError.message >>= fun text =>
          (Cache.ofText text).mapError Yaml.ReadError.message
      match cache with
      | .error cause => return .error ("failed to open cache file: " ++ cause)
      | .ok cache => return .ok { cache with maxAge := config.cache.maxAge }

def listItems (text : String) : List String :=
  if text = "" then []
  else (text.toList.splitOn ',').map fun item => Text.trim (String.ofList item)

def applyOptions (o : Options) (config : Config) : Config :=
  { config with
    rules := (listItems o.ignoreRules).foldl
      (fun rules rule => Yaml.Fit.insertPair rules rule .off) config.rules
    ignore := config.ignore ++ listItems o.ignoreLabels
    workers := if 0 < o.workers then o.workers else config.workers }

def timeIsUp : String := "context deadline exceeded"

def verifyAll (s : Session m) (config : Config) (cache : Option Cache) (timeout : Int)
    (files : List String) : m (List DatabaseReport × Option Cache) := do
  let start ← s.host.now
  let verifying : Verifying (StateT Ledger m) := {
    interrupted := do
      let now ← s.host.now
      return if (start : Int) + timeout ≤ now then some timeIsUp else none
    openEngine := fun path => s.openEngine config path
    verify := fun engine label => do
      let now ← s.host.now
      let (outcome, ledger) := engine.run now label (← get)
      set ledger
      match outcome with
      | .ok result => return .ok result
      | .error error => do
          s.notify {
            level := .error
            message := "Error verifying statement"
            label
            cause := error.message }
          return .error error.message
    notify := fun notice => s.notify notice }
  let (reports, ledger) ← (verifying.runAll files).run { cache }
  return (reports, ledger.cache)

def printReports (s : Session m) (o : Options) (reports : List DatabaseReport) : m Unit := do
  if !o.json then reports.forM fun report => s.host.print report.text
  else
    let text := reportText (← s.host.freshName) reports
    if o.output = "" then s.host.print (text ++ "\n")
    else
      match ← s.host.write o.output text with
      | .ok () => return ()
      | .error cause =>
          s.notify {
            level := .error
            message := "Error writing JSON output file"
            cause := cause.message }

def verify (s : Session m) (w : Words) : m Nat := do
  if w.arguments.isEmpty then
    s.host.print "error: Please provide database files or directories\n"
    return 1
  else
    match ← Config.load s.host w.options.config with
    | .error error => fatal s "Failed to load configuration" error.message
    | .ok config =>
        let config := applyOptions w.options config
        match ← collectDatabases s.host w.arguments with
        | .error error => fatal s "Failed to collect databases" error.message
        | .ok files => do
            let cache ←
              if w.options.noCache then pure none
              else
                match ← openCache s config with
                | .ok cache => pure (some cache)
                | .error cause => do
                    s.notify { level := .warn, message := "Result cache disabled", cause }
                    pure none
            let (reports, cache) ← verifyAll s config cache w.options.timeout files
            if let some cache := cache then
              let _ ← s.host.write (cacheFile config).2 cache.render
            printReports s w.options reports
            return if anyFailed reports && !w.options.watch then 1 else 0

/-! ### The other commands -/

def inspect (s : Session m) (o : Options) (path label : String) : m Nat := do
  match ← Config.load s.host o.config with
  | .error error => fatal s "Failed to load configuration" error.message
  | .ok config =>
      match ← s.openEngine config path with
      | .error error => fatal s "Failed to load database" error
      | .ok engine =>
          match engine.inspect label o.step with
          | .error error => do
              s.notify {
                level := .error
                message := "Error verifying statement"
                label
                cause := error.message }
              return 1
          | .ok run => do
              if (run.proof.length : Int) ≤ o.step then
                s.notify { level := .warn, message := "Step out of range" }
              let result := run.result
              s.host.print ((run.listing engine.table).render false)
              s.host.print "\n"
              s.host.print (result.diagnosis.render false)
              s.host.print (result.label ++ ": " ++ result.verdict.name ++ "\n")
              return if result.verdict.isFailure then 1 else 0

-- Writes a database with restated proofs to the standard output, to a file, or in place. A file is emptied before
-- anything is written to it.
def restate (s : Session m) (o : Options) (form : ProofForm) (path : String)
    (labels : List String) : m Nat := do
  match ← s.loadTable path with
  | .error error => fatal s "Failed to load database" error
  | .ok table =>
      let target := if o.inPlace then path else o.output
      let created ← if target = "" then pure (.ok ()) else s.host.write target ""
      match created with
      | .error cause => fatal s "Error creating output file" cause.message
      | .ok () =>
          match table.badSelection? labels with
          | some label => do
              s.notify {
                level := .error
                message := "Error rewriting database"
                cause := Text.quoted label ++ " is not a theorem" }
              return 1
          | none => do
              (table.keptProofs form labels).forM fun (label, cause) =>
                s.notify { level := .warn, message := "Keeping proof", label, cause }
              let text := (table.restated form labels).render
              if target = "" then s.host.print text
              else
                let _ ← s.host.write target text
              return 0

def init (s : Session m) (o : Options) : m Nat := do
  let path := if o.config = "" then Config.defaultPath else o.config
  match ← s.host.write path Config.standardText with
  | .error cause => do
      s.notify {
        level := .error
        message := "Error initializing config file"
        cause := cause.message }
      return 0
  | .ok () => do
      s.host.print ("Configuration file created/updated: " ++ o.config ++ "\n")
      return 0

def usage : String :=
  "usage: tverify [--config FILE] [--timeout DURATION] [-v] COMMAND\n" ++
  "  init                            write a configuration file\n" ++
  "  verify DATABASES...             verify every theorem of the databases\n" ++
  "  show DATABASE LABEL             list the steps of a proof\n" ++
  "  compress DATABASE [LABELS...]   write proofs in compressed form\n" ++
  "  decompress DATABASE [LABELS...] write proofs in plain form\n"

def run (s : Session m) (i : Invocation) : m Nat :=
  let o := i.words.options
  match i.command, i.words.arguments with
  | .init, _ => init s o
  | .verify, _ => verify s i.words
  | .inspect, [path, label] => inspect s o path label
  | .compress, path :: labels => restate s o .compressed path labels
  | .decompress, path :: labels => restate s o .plain path labels
  | .bare, _ :: _ => verify s i.words
  | .help, _ | .bare, [] => do
      s.host.print usage
      return 0
  | _, _ => return 1

def execute (host : Host m) (words : List String) : m Nat := do
  match Invocation.read words with
  | some i => run { host, readable := i.words.options.verbose } i
  | none => do
      host.notify { level := .error, message := "unknown command line", readable := true }
      return 1

end Lemmata.Command
