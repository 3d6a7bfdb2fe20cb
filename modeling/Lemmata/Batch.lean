import Lemmata.Summary

/-!
Verifying many theorems. A batch may be interrupted; then the results of the theorems that were
finished still count. Failures are kept in the order of the theorems.
-/

set_option autoImplicit false

namespace Lemmata

abbrev Attempt := Option (Except String Result)

structure Batch where
  results : List Result
  failures : List String
  interruption : Option String
deriving DecidableEq, Repr

namespace Batch

def failedResult (label message : String) : Result where
  label
  verdict := .severe
  issues := [{
    rule := Rule.verifierError, category := "proof", label, step := -1
    message := label ++ ": " ++ message, severity := .severe }]

def resultOf (label : String) : Attempt → Option Result
  | none => none
  | some (.ok result) => some result
  | some (.error message) => some (failedResult label message)

def failureOf (label : String) : Attempt → Option String
  | some (.error message) => some (label ++ ": " ++ message)
  | _ => none

def gather (attempts : List (String × Attempt)) (interruption : Option String) : Batch where
  results := attempts.filterMap fun (label, attempt) => resultOf label attempt
  failures := attempts.filterMap fun (label, attempt) => failureOf label attempt
  interruption

def failureText (batch : Batch) : Option String :=
  let messages := batch.failures ++ batch.interruption.toList
  if messages.isEmpty then none else some ("\n".intercalate messages)

section Process

variable {m : Type → Type} [Monad m] (interrupted : m (Option String))

-- A worker looks for an interruption once more before it takes up its theorem.
def attempt (verify : m (Except String Result)) : m Attempt := do
  match ← interrupted with
  | some _ => return none
  | none => return some (← verify)

-- Attempts the theorems one after the other, until the batch is interrupted, and tells why it is
-- if that is found before a theorem is handed out.
def attempts (verify : String → m (Except String Result)) :
    List String → m (List (String × Attempt) × Option String)
  | [] => return ([], none)
  | label :: rest => do
      match ← interrupted with
      | some reason => return ((label :: rest).map fun label => (label, none), some reason)
      | none =>
          let outcome ← attempt interrupted (verify label)
          let (others, reason) ← attempts verify rest
          return ((label, outcome) :: others, reason)

def process (verify : String → m (Except String Result)) (labels : List String) : m Batch := do
  match ← attempts interrupted verify labels with
  | (found, some reason) => return gather found (some reason)
  | (found, none) => return gather found (← interrupted)

end Process

end Batch

end Lemmata
