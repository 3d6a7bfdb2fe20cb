import Lemmata.Report.Notice

/-!
What a program needs from the machine it runs on, and the paths by which it knows files. Programs are
written for any host, so the same one runs on a real machine and on a description of one.
-/

set_option autoImplicit false

namespace Lemmata.Path

def names (path : String) : List String := (path.toList.splitOn '/').map String.ofList

def isRooted (path : String) : Bool := path.toList.head? == some '/'

-- Adds a name to names that are already in order, the last of them first. A name that means the
-- folder above takes one away, as long as there is one that means a folder of its own.
def addName (rooted : Bool) (reversed : List String) (name : String) : List String :=
  if name = "" ∨ name = "." then reversed
  else if name ≠ ".." then name :: reversed
  else
    match reversed with
    | [] => if rooted then [] else [".."]
    | last :: rest => if last = ".." then ".." :: reversed else rest

def cleanNames (path : String) : List String :=
  ((names path).foldl (addName (isRooted path)) []).reverse

def clean (path : String) : String :=
  let joined := "/".intercalate (cleanNames path)
  if isRooted path then "/" ++ joined else if joined = "" then "." else joined

def join (folder name : String) : String :=
  if folder = "" then clean name else clean (folder ++ "/" ++ name)

def extension (path : String) : String :=
  let name := ((names path).getLast?.getD "").toList
  let behind := (name.reverse.takeWhile (· != '.')).reverse
  if behind.length < name.length then String.ofList ('.' :: behind) else ""

def base (path : String) : String :=
  match ((names path).filter (· != "")).getLast? with
  | some name => name
  | none => if isRooted path then "/" else "."

end Lemmata.Path

namespace Lemmata

inductive FileError where
  | missing
  | notFolder
  | isFolder
  | other (message : String)
deriving DecidableEq, Repr

def FileError.message : FileError → String
  | missing => "no such file or directory"
  | notFolder => "not a directory"
  | isFolder => "is a directory"
  | other text => text

inductive FileKind where
  | file
  | folder
deriving DecidableEq, Repr

structure Host (m : Type → Type) where
  kindOf : String → m (Except FileError FileKind)
  namesIn : String → m (List String)
  read : String → m (Except FileError String)
  -- Writes a file, which is created if it does not exist.
  write : String → String → m (Except FileError Unit)
  makeFolder : String → m (Except FileError Unit)
  now : m Nat
  freshName : m String
  print : String → m Unit
  notify : Notice → m Unit

end Lemmata
