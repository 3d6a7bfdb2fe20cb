import Lemmata.Cache
import Lemmata.Config
import Lemmata.Report.Json

/-!
The cache as the text of a file. The text of a new cache is empty.
-/

set_option autoImplicit false

namespace Lemmata

open Yaml
open Report (Json)

/-! ### Writing -/

def CacheEntry.json (entry : CacheEntry) : Json :=
  .record [
    ("database", .text entry.database),
    ("label", .text entry.label),
    ("fingerprint", .text entry.fingerprint),
    ("createdAt", .number entry.createdAt),
    ("result", entry.result.json)]

def Cache.render (cache : Cache) : String :=
  (Json.record [("entries", .list (cache.entries.map CacheEntry.json))]).render ++ "\n"

/-! ### Reading -/

def Issue.field? : String → Option (Issue → Node → Fit Issue)
  | "rule" => some (Fit.setText fun i s => { i with rule := s })
  | "category" => some (Fit.setText fun i s => { i with category := s })
  | "database" => some (Fit.setText fun i s => { i with database := s })
  | "label" => some (Fit.setText fun i s => { i with label := s })
  | "step" => some (Config.setInteger fun i n => { i with step := n })
  | "applied" => some (Fit.setText fun i s => { i with applied := s })
  | "message" => some (Fit.setText fun i s => { i with message := s })
  | "suggestion" => some (Fit.setText fun i s => { i with suggestion := s })
  | "note" => some (Fit.setText fun i s => { i with note := s })
  | "severity" => some fun i node => do
      return { i with severity := ← Config.setSeverity i.severity node }
  | _ => none

def Result.field? : String → Option (Result → Node → Fit Result)
  | "label" => some (Fit.setText fun r s => { r with label := s })
  | "verdict" => some fun r node => do
      return { r with verdict := ← Config.setSeverity r.verdict node }
  | "steps" => some (Config.setInteger fun r n => { r with steps := n })
  | "issues" => some (Fit.setList (Fit.record Issue.field? {}) fun r xs => { r with issues := xs })
  | "suppressed" => some (Config.setInteger fun r n => { r with suppressed := n })
  | _ => none

def CacheEntry.empty : CacheEntry where
  database := ""
  label := ""
  fingerprint := ""
  result := {}
  createdAt := 0

def CacheEntry.field? : String → Option (CacheEntry → Node → Fit CacheEntry)
  | "database" => some (Fit.setText fun e s => { e with database := s })
  | "label" => some (Fit.setText fun e s => { e with label := s })
  | "fingerprint" => some (Fit.setText fun e s => { e with fingerprint := s })
  | "createdAt" => some (Config.setInteger fun e n => { e with createdAt := n.toNat })
  | "result" =>
      some (Fit.setRecord Result.field? CacheEntry.result fun e r => { e with result := r })
  | _ => none

def Cache.field? : String → Option (Cache → Node → Fit Cache)
  | "entries" =>
      some (Fit.setList (Fit.record CacheEntry.field? .empty) fun c xs => { c with entries := xs })
  | _ => none

def Cache.ofText (text : String) : Except ReadError Cache :=
  if text = "" then .ok {} else Yaml.read Cache.field? {} text

end Lemmata
