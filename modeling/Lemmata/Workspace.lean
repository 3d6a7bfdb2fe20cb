import Lemmata.Host

/-!
A machine as a value: a folder with all that is in it, a clock and what was printed.
-/

set_option autoImplicit false

namespace Lemmata

abbrev Location := List String

structure Workspace where
  -- What is at each location: a file with its text, or a folder. The folder that holds
  -- everything has no entry.
  entries : List (Location × Option String) := []
  time : Nat := 0
  printed : String := ""
  notices : List Notice := []
deriving DecidableEq, Repr

namespace Workspace

def at? (w : Workspace) (location : Location) : Option (Option String) :=
  if location = [] then some none else w.entries.lookup location

-- Follows names from a folder. A name for the same folder, and one for the folder above, need a
-- folder like every other name.
def follow (w : Workspace) : Location → List String → Except FileError Location
  | here, [] => .ok here
  | here, name :: rest =>
      match w.at? here with
      | none => .error .missing
      | some (some _) => .error .notFolder
      | some none =>
          if name = "" ∨ name = "." then follow w here rest
          else if name = ".." then
            if here = [] then .error .missing else follow w here.dropLast rest
          else
            match w.at? (here ++ [name]) with
            | none => .error .missing
            | some _ => follow w (here ++ [name]) rest

def locate (w : Workspace) (path : String) : Except FileError Location :=
  if path = "" ∨ Path.isRooted path then .error .missing else w.follow [] (Path.names path)

def kindOf (w : Workspace) (path : String) : Except FileError FileKind := do
  let location ← w.locate path
  match w.at? location with
  | none => .error .missing
  | some (some _) => return .file
  | some none => return .folder

def read (w : Workspace) (path : String) : Except FileError String := do
  let location ← w.locate path
  match w.at? location with
  | none => .error .missing
  | some (some text) => return text
  | some none => .error .isFolder

def namesIn (w : Workspace) (path : String) : List String :=
  match w.locate path with
  | .error _ => []
  | .ok location =>
      w.entries.filterMap fun (other, _) =>
        if other.dropLast = location then other.getLast? else none

def put (w : Workspace) (location : Location) (content : Option String) : Workspace :=
  if (w.entries.lookup location).isSome then
    { w with
      entries := w.entries.map fun (other, old) =>
        (other, if other = location then content else old) }
  else { w with entries := w.entries ++ [(location, content)] }

def locateFile (w : Workspace) (path : String) : Except FileError Location :=
  let names := Path.names path
  match w.locate path with
  | .ok location => if w.at? location = some none then .error .isFolder else .ok location
  | .error .missing =>
      if path = "" ∨ Path.isRooted path then .error .missing
      else do
        let folder ← w.follow [] names.dropLast
        match w.at? folder, names.getLast? with
        | some none, some name =>
            if name = "" then .error .isFolder else .ok (folder ++ [name])
        | some (some _), _ => .error .notFolder
        | _, _ => .error .missing
  | .error error => .error error

def write (w : Workspace) (path text : String) : Except FileError Workspace := do
  let location ← w.locateFile path
  return w.put location (some text)

def makeFolders (w : Workspace) : Location → List String → Except FileError Workspace
  | here, [] => if w.at? here = some none then .ok w else .error .notFolder
  | here, name :: rest =>
      if name = "" ∨ name = "." then makeFolders w here rest
      else if name = ".." then
        if here = [] then .error .missing else makeFolders w here.dropLast rest
      else
        match w.at? (here ++ [name]) with
        | some none => makeFolders w (here ++ [name]) rest
        | some (some _) => .error .notFolder
        | none => makeFolders (w.put (here ++ [name]) none) (here ++ [name]) rest

def makeFolder (w : Workspace) (path : String) : Except FileError Workspace :=
  if path = "" ∨ Path.isRooted path then .error .missing else w.makeFolders [] (Path.names path)

def holds (w : Workspace) (location : Location) : Bool :=
  w.entries.any fun (other, _) => location.isPrefixOf other && other != location

def remove (w : Workspace) (location : Location) : Workspace :=
  if w.holds location then w
  else { w with entries := w.entries.filter fun (other, _) => other ≠ location }

def ofPaths (paths : List String) : Workspace :=
  paths.foldl
    (fun w path =>
      let names := (Path.names path).filter (· != "")
      let folders := if path.toList.getLast? = some '/' then names else names.dropLast
      match w.makeFolders [] folders with
      | .error _ => w
      | .ok made => if folders = names then made else made.put names (some ""))
    {}

def ofFiles (files : List (String × String)) : Workspace :=
  files.foldl
    (fun w (path, text) =>
      let names := Path.cleanNames path
      match w.makeFolders [] names.dropLast with
      | .error _ => w
      | .ok made => made.put names (some text))
    {}

def files (w : Workspace) : List (String × String) :=
  w.entries.filterMap fun (location, content) =>
    content.map fun text => ("/".intercalate location, text)

def change (result : Workspace → Except FileError Workspace) :
    StateM Workspace (Except FileError Unit) := fun w =>
  match result w with
  | .ok changed => (.ok (), changed)
  | .error error => (.error error, w)

def tick : Nat := 100000

def host : Host (StateM Workspace) where
  kindOf path := return (← get).kindOf path
  namesIn path := return (← get).namesIn path
  read path := return (← get).read path
  write path text := change fun w => w.write path text
  makeFolder path := change fun w => w.makeFolder path
  now := modifyGet fun w => (w.time, { w with time := w.time + tick })
  freshName := return toString (← get).time
  print text := modify fun w => { w with printed := w.printed ++ text }
  notify notice := modify fun w => { w with notices := w.notices ++ [notice] }

end Workspace

end Lemmata
