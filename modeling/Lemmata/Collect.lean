import Lemmata.Config
import Lemmata.Host

/-!
Finding database files. A folder stands for all database files in it and below it.
-/

set_option autoImplicit false

namespace Lemmata

def isDatabasePath (path : String) : Bool :=
  (Path.extension path == ".yaml" || Path.extension path == ".yml")
    && Path.base path != Config.defaultPath

structure CollectError where
  path : String
  cause : FileError
deriving DecidableEq, Repr

def CollectError.message (e : CollectError) : String :=
  "error accessing " ++ e.path ++ ": stat " ++ e.path ++ ": " ++ e.cause.message

-- Folders are not nested deeper than the names of a path can be.
def folderDepth : Nat := 4096

def databasesBelow {m : Type → Type} [Monad m] (host : Host m) : Nat → String → m (List String)
  | 0, _ => return []
  | depth + 1, folder => do
      let found ← (← host.namesIn folder).mapM fun name => do
        let path := Path.join folder name
        match ← host.kindOf path with
        | .ok .folder => databasesBelow host depth path
        | .ok .file => return if isDatabasePath path then [path] else []
        | .error _ => return []
      return found.flatten

def collectFrom {m : Type → Type} [Monad m] (host : Host m) :
    List String → m (Except CollectError (List String))
  | [] => return .ok []
  | path :: rest => do
      match ← host.kindOf path with
      | .error cause => return .error ⟨path, cause⟩
      | .ok kind =>
          let first ←
            match kind with
            | .file => pure [path]
            | .folder => databasesBelow host folderDepth path
          match ← collectFrom host rest with
          | .error error => return .error error
          | .ok others => return .ok (first ++ others)

-- The database files that the paths stand for, in order. A file that is named stands for itself,
-- whatever its name is.
def collectDatabases {m : Type → Type} [Monad m] (host : Host m) (paths : List String) :
    m (Except CollectError (List String)) := do
  match ← collectFrom host paths with
  | .error error => return .error error
  | .ok found => return .ok (found.mergeSort fun a b => a ≤ b)

end Lemmata
