import Lemmata.Workspace

/-!
Watching files. A file counts as changed when it is written, created, or renamed away or onto; not
when it is removed or only its permissions change.
-/

set_option autoImplicit false

namespace Lemmata

inductive Happening where
  | written (path : String)
  | removed (path : String)
  | renamed (source target : String)
  | permissions (path : String)
deriving DecidableEq, Repr

namespace Workspace

def move (w : Workspace) (source target : Location) : Workspace :=
  let kept := w.entries.filter fun (location, _) => location ≠ target
  { w with
    entries := kept.map fun (location, content) =>
      if source.isPrefixOf location then (target ++ location.drop source.length, content)
      else (location, content) }

-- What happens changes the workspace and touches some locations. What is impossible does
-- neither.
def happen (w : Workspace) : Happening → Workspace × List Location
  | .written path =>
      match w.locateFile path with
      | .ok location => (w.put location (some ""), [location])
      | .error _ => (w, [])
  | .removed path =>
      match w.locate path with
      | .ok location => (w.remove location, [])
      | .error _ => (w, [])
  | .renamed source target =>
      match w.locate source, w.locateFile target with
      | .ok old, .ok new => if old = new then (w, []) else (w.move old new, [old, new])
      | _, _ => (w, [])
  | .permissions _ => (w, [])

def touched (w : Workspace) : List Happening → List Location
  | [] => []
  | h :: rest =>
      let (next, here) := w.happen h
      here ++ next.touched rest

end Workspace

structure Watcher where
  watched : List Location
deriving DecidableEq, Repr

namespace Watcher

def errorMessage (cause : FileError) : String :=
  "error adding directory to watcher: " ++ cause.message

def folderError? (w : Workspace) (location : Location) : Option FileError :=
  if location = [] ∨ location.head? = some ".." then none
  else
    match w.follow [] location.dropLast with
    | .ok _ => none
    | .error cause => some cause

def ofPaths (w : Workspace) (paths : List String) : Except FileError Watcher :=
  let watched := paths.map Path.cleanNames
  match watched.findSome? (folderError? w) with
  | some cause => .error cause
  | none => .ok ⟨watched⟩

def changed (watcher : Watcher) (w : Workspace) (happenings : List Happening) : List String :=
  let touched := w.touched happenings
  let hit := watcher.watched.filter fun location => touched.contains location
  (hit.eraseDups.map ("/".intercalate ·)).mergeSort fun a b => a ≤ b

end Watcher

end Lemmata
