import Lemmata.Cache
import Lemmata.Fingerprint
import Lemmata.Run

/-!
The engine verifies theorems of one table by label. It consults a cache, fills it, and counts
what it does. Of all rules only the check of disjoint variables can be switched off.
-/

set_option autoImplicit false

namespace Lemmata

structure Metrics where
  verdicts : List Severity := []
  unifications : Nat := 0
  backtracks : Nat := 0
  cacheHits : Nat := 0
  proofSteps : List Nat := []
deriving DecidableEq, Repr

namespace Metrics

def observeRun (m : Metrics) (run : Run) : Metrics where
  verdicts := run.verdict :: m.verdicts
  unifications := m.unifications + run.unifications
  backtracks := m.backtracks + run.backtracks
  cacheHits := m.cacheHits
  proofSteps := if run.proof.isEmpty then m.proofSteps else run.proof.length :: m.proofSteps

def observeCached (m : Metrics) (result : Result) : Metrics :=
  { m with verdicts := result.verdict :: m.verdicts, cacheHits := m.cacheHits + 1 }

def verdictCounts (m : Metrics) : List (String × Nat) :=
  let names := m.verdicts.map Severity.name
  names.eraseDups.map fun name => (name, names.count name)

def stepBounds : List Nat := [4, 16, 64, 256, 1024, 4096, 16384, 65536]

-- How many proofs have at most as many steps as each bound.
def stepBuckets (m : Metrics) : List (Nat × Nat) :=
  stepBounds.map fun bound => (bound, m.proofSteps.countP (· ≤ bound))

end Metrics

structure Engine where
  table : Table
  digests : List String
  ignoredLabels : List String := []
  checkDisjoint : Bool := true
deriving DecidableEq, Repr

structure Ledger where
  cache : Option Cache := none
  metrics : Metrics := {}
deriving DecidableEq, Repr

inductive EngineError where
  | noStatement (label : String)
  | notTheorem (label : String) (kind : Kind)
  | run (cause : RunError)
deriving DecidableEq, Repr

def EngineError.message : EngineError → String
  | noStatement label => "no statement labeled " ++ Text.quoted label
  | notTheorem label kind => Text.quoted label ++ " is a " ++ kind.name ++ ", not a theorem"
  | run cause => cause.message

namespace Engine

def ofTable (table : Table) : Engine := { table, digests := table.digests }

def ignoreRule (engine : Engine) (rule : String) : Engine :=
  if rule = Rule.disjointViolation then { engine with checkDisjoint := false } else engine

def ignoreLabel (engine : Engine) (label : String) : Engine :=
  { engine with ignoredLabels := label :: engine.ignoredLabels }

def applyRules (engine : Engine) (rules : List (String × Severity)) : Engine :=
  rules.foldl
    (fun engine (rule, severity) => if severity = .off then engine.ignoreRule rule else engine)
    engine

-- The rules that a configuration switches off although they have to stay.
def keptRules (rules : List (String × Severity)) : List String :=
  (rules.filter fun (rule, severity) => severity == .off && rule != Rule.disjointViolation).map
    Prod.fst

def theorems (engine : Engine) : List String :=
  (engine.table.theorems.map Statement.label).filter fun label =>
    !engine.ignoredLabels.contains label

def findTheorem (engine : Engine) (label : String) : Except EngineError Statement :=
  match engine.table.lookup label with
  | none => .error (.noStatement label)
  | some s => if s.kind = .proved then .ok s else .error (.notTheorem label s.kind)

def database (engine : Engine) : String :=
  if engine.table.name = "" then "default" else engine.table.name

def fingerprintOf (engine : Engine) (s : Statement) : String :=
  fingerprint (engine.digests[s.id.toNat]?.getD "") engine.checkDisjoint

def inspect (engine : Engine) (label : String) (step : Int) : Except EngineError Run := do
  let s ← engine.findTheorem label
  match verify engine.table engine.checkDisjoint step s with
  | .error cause => .error (.run cause)
  | .ok run => return run

-- Verifies a theorem, or takes the result from the cache. A result that cannot be stored is
-- still a result.
def run (engine : Engine) (now : Nat) (label : String) (ledger : Ledger) :
    Except EngineError Result × Ledger :=
  match engine.findTheorem label with
  | .error error => (.error error, ledger)
  | .ok s =>
      let wanted := engine.fingerprintOf s
      match ledger.cache.bind fun cache => cache.fetch now engine.database label wanted with
      | some result =>
          (.ok result, { ledger with metrics := ledger.metrics.observeCached result })
      | none =>
          match engine.inspect label (-1) with
          | .error error => (.error error, ledger)
          | .ok run =>
              let cache := ledger.cache.map fun cache =>
                match cache.store now engine.database label wanted run.result with
                | .ok updated => updated
                | .error _ => cache
              (.ok run.result, { cache, metrics := ledger.metrics.observeRun run })

end Engine

end Lemmata
