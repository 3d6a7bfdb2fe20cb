import Lemmata.Command
import Std.Time.DateTime.Timestamp

/-!
The program on a real machine.
-/

set_option autoImplicit false

namespace Lemmata.Machine

def fileError : IO.Error → FileError
  | .noFileOrDirectory _ _ _ => .missing
  | .inappropriateType _ 21 _ => .isFolder
  | .inappropriateType _ _ _ => .notFolder
  | error => .other (toString error)

def attempt {α : Type} (action : IO α) : IO (Except FileError α) :=
  try return .ok (← action)
  catch error => return .error (fileError error)

def kindOf (path : String) : IO FileKind := do
  let info ← (← IO.FS.realPath path).metadata
  return match info.type with
    | .dir => .folder
    | _ => .file

def readText (path : String) : IO (Except FileError String) := do
  match ← attempt (kindOf path) with
  | .ok .folder => return .error .isFolder
  | .ok .file => attempt (IO.FS.readFile path)
  | .error error => return .error error

def namesIn (path : String) : IO (List String) := do
  let entries ← (← IO.FS.realPath path).readDir
  return entries.toList.map fun entry => entry.fileName

def now : IO Nat := do
  let time ← Std.Time.Timestamp.now
  return time.toNanosecondsSinceUnixEpoch.val.toNat

def freshName : IO String := do
  let bytes ← IO.getRandomBytes 16
  return String.ofList (bytes.toList.flatMap fun b => Text.hexDigits 2 b.toNat)

def printError (line : String) : IO Unit := do
  (← IO.getStderr).putStr (line ++ "\n")

def host : Host IO where
  kindOf path := attempt (kindOf path)
  namesIn := namesIn
  read := readText
  write path text := attempt (IO.FS.writeFile path text)
  makeFolder path := attempt (IO.FS.createDirAll path)
  now := now
  freshName := freshName
  print text := do (← IO.getStdout).putStr text
  notify notice := printError notice.line

end Lemmata.Machine

def main (words : List String) : IO UInt32 := do
  return (← Lemmata.Command.execute Lemmata.Machine.host words).toUInt32
