import Lemmata.Yaml.BlockScalar

/-!
The tokens of a YAML text, and the readers of those that are not scalars or single characters:
anchors, aliases, tags and directives.
-/

set_option autoImplicit false

namespace Lemmata.Yaml

structure WrittenTag where
  handle : String
  suffix : String
deriving DecidableEq, Repr

inductive Directive where
  | version (major minor : Nat)
  | handle (handle start : String)
deriving DecidableEq, Repr

inductive Token where
  | directive (d : Directive)
  | documentStart
  | documentEnd
  | blockSequenceStart
  | blockMappingStart
  | blockEnd
  | flowSequenceStart
  | flowSequenceEnd
  | flowMappingStart
  | flowMappingEnd
  | blockEntry
  | flowEntry
  | key
  | value
  | aliasOf (name : String)
  | anchor (name : String)
  | tag (written : WrittenTag)
  | scalar (isPlain : Bool) (text : String)
deriving DecidableEq, Repr

def anchorName (glyphs : Glyphs) : Option Reading :=
  let name := Glyphs.takeChars isNameChar glyphs
  let behind := Glyphs.dropChars isNameChar glyphs
  let ended := Glyphs.atGap behind
    || Glyphs.nextIs (['?', ':', ',', ']', '}', '%', '@', '\x60'].contains ·) behind
  if !name.isEmpty && ended then some ⟨name, behind⟩ else none

def isTagSign (c : Char) : Bool :=
  [';', '/', '?', ':', '@', '&', '=', '+', '$', '.', ',', '!', '~', '*', '\'', '(', ')',
    '[', ']'].contains c

def continuationBytes? (byte : Nat) : Option Nat :=
  if byte < 0x80 then some 0
  else if byte / 0x20 = 6 then some 1
  else if byte / 0x10 = 14 then some 2
  else if byte / 0x08 = 30 then some 3
  else none

inductive TagState where
  | text (missing : Nat)
  | percent (missing : Nat)
  | nibble (missing high : Nat)
deriving DecidableEq, Repr

-- The text of a tag. A percent sign and two hexadecimal digits stand for a byte, and the bytes of
-- one character follow each other; a byte is kept as the character with its number.
def tagTextFrom : TagState → Glyphs → Option Reading
  | .text missing, [] => if missing = 0 then some ⟨[], []⟩ else none
  | _, [] => none
  | .text missing, g :: rest =>
      if g.char == '%' then tagTextFrom (.percent missing) rest
      else if missing ≠ 0 then none
      else if isNameChar g.char || isTagSign g.char then
        (tagTextFrom (.text 0) rest).map (·.cons [g.char])
      else some ⟨[], g :: rest⟩
  | .percent missing, g :: rest =>
      match hexValue? g.char with
      | none => none
      | some high => tagTextFrom (.nibble missing high) rest
  | .nibble missing high, g :: rest =>
      match hexValue? g.char with
      | none => none
      | some low =>
          let byte := 16 * high + low
          if missing = 0 then
            match continuationBytes? byte with
            | none => none
            | some more => (tagTextFrom (.text more) rest).map (·.cons [Char.ofNat byte])
          else if byte / 0x40 = 2 then
            (tagTextFrom (.text (missing - 1)) rest).map (·.cons [Char.ofNat byte])
          else none

def tagText (glyphs : Glyphs) : Option Reading :=
  (tagTextFrom (.text 0) glyphs).filter fun r => !r.chars.isEmpty

def tagHandle (glyphs : Glyphs) : Reading × Bool :=
  let name := Glyphs.takeChars isNameChar glyphs
  match Glyphs.dropChars isNameChar glyphs with
  | g :: rest =>
      if g.char == '!' then (⟨'!' :: name ++ ['!'], rest⟩, true)
      else (⟨'!' :: name, g :: rest⟩, false)
  | [] => (⟨'!' :: name, []⟩, false)

def bracketedTag (glyphs : Glyphs) : Option (WrittenTag × Glyphs) := do
  let text ← tagText glyphs
  match text.behind with
  | g :: rest => if g.char == '>' then some (⟨"", String.ofList text.chars⟩, rest) else none
  | [] => none

def shortTag (glyphs : Glyphs) : Option (WrittenTag × Glyphs) :=
  let (handle, closed) := tagHandle glyphs
  if closed then
    (tagText handle.behind).map fun r =>
      (⟨String.ofList handle.chars, String.ofList r.chars⟩, r.behind)
  else
    (tagTextFrom (.text 0) handle.behind).map fun r =>
      let suffix := handle.chars.drop 1 ++ r.chars
      (if suffix.isEmpty then ⟨"", "!"⟩ else ⟨"!", String.ofList suffix⟩, r.behind)

def writtenTag (glyphs : Glyphs) : Option (WrittenTag × Glyphs) :=
  (if Glyphs.nextIs (· == '<') glyphs then bracketedTag (glyphs.drop 1) else shortTag glyphs).filter
    fun (_, behind) => Glyphs.atGap behind

def versionNumber (glyphs : Glyphs) : Option (Nat × Glyphs) :=
  let digits := Glyphs.takeChars Char.isDigit glyphs
  if digits.isEmpty || 9 < digits.length then none
  else
    some (digits.foldl (fun n c => 10 * n + (c.toNat - '0'.toNat)) 0,
      Glyphs.dropChars Char.isDigit glyphs)

def versionDirective (glyphs : Glyphs) : Option (Directive × Glyphs) := do
  let (major, behind) ← versionNumber (Glyphs.skipBlanks glyphs)
  match behind with
  | g :: rest =>
      if g.char == '.' then
        let (minor, behind) ← versionNumber rest
        return (.version major minor, behind)
      else none
  | [] => none

def handleDirective (glyphs : Glyphs) : Option (Directive × Glyphs) :=
  match Glyphs.skipBlanks glyphs with
  | g :: rest => do
      let (handle, closed) := tagHandle rest
      if g.char != '!' || !(closed || handle.chars == ['!']) then none
      else if !Glyphs.nextIs isBlank handle.behind then none
      else
        let start ← tagText (Glyphs.skipBlanks handle.behind)
        if Glyphs.atGap start.behind then
          return (.handle (String.ofList handle.chars) (String.ofList start.chars), start.behind)
        else none
  | [] => none

def directive (glyphs : Glyphs) : Option (Directive × Glyphs) := do
  let name := String.ofList (Glyphs.takeChars isNameChar glyphs)
  let behind := Glyphs.dropChars isNameChar glyphs
  let (d, behind) ←
    if !Glyphs.atGap behind then none
    else if name = "YAML" then versionDirective behind
    else if name = "TAG" then handleDirective behind
    else none
  let behind ← Glyphs.endLine? behind
  return (d, behind)

end Lemmata.Yaml
