/-!
The characters of a YAML text, each with its place. Line breaks are normalised before anything
else is read, and a text with a character that YAML does not admit has no glyphs.
-/

set_option autoImplicit false

namespace Lemmata.Yaml

structure Glyph where
  char : Char
  index : Nat
  line : Nat
  column : Nat
deriving DecidableEq, Repr

def isLineSeparator (c : Char) : Bool := c.toNat == 0x2028 || c.toNat == 0x2029

def isBreak (c : Char) : Bool := c == '\n' || isLineSeparator c

def isBlank (c : Char) : Bool := c == ' ' || c == '\t'

def isSpace (c : Char) : Bool := isBlank c || isBreak c

def isNameChar (c : Char) : Bool := c.isAlphanum || c == '_' || c == '-'

def isAllowed (c : Char) : Bool :=
  let n := c.toNat
  n == 0x09 || n == 0x0A || n == 0x0D || (0x20 ≤ n && n ≤ 0x7E) || n == 0x85
    || (0xA0 ≤ n && n ≤ 0xD7FF) || (0xE000 ≤ n && n ≤ 0xFFFD) || 0x10000 ≤ n

-- Carriage returns and next-line characters become line feeds; a carriage return and the line
-- feed after it become one.
def normalise : List Char → List Char
  | '\r' :: '\n' :: rest => '\n' :: normalise rest
  | c :: rest =>
      (if c == '\r' || c.toNat == 0x85 then '\n' else c) :: normalise rest
  | [] => []

def Glyph.place : Nat → Nat → Nat → List Char → List Glyph
  | _, _, _, [] => []
  | index, line, column, c :: rest =>
      ⟨c, index, line, column⟩ ::
        if isBreak c then place (index + 1) (line + 1) 0 rest
        else place (index + 1) line (column + 1) rest

def byteOrderMark : Char := Char.ofNat 0xFEFF

def Glyph.ofText? (text : String) : Option (List Glyph) :=
  let chars :=
    match text.toList with
    | c :: rest => if c = byteOrderMark then rest else c :: rest
    | [] => []
  if chars.all isAllowed then some (Glyph.place 0 0 0 (normalise chars)) else none

abbrev Glyphs := List Glyph

namespace Glyphs

def nextIs (test : Char → Bool) (glyphs : Glyphs) : Bool :=
  (glyphs.head?.map (test ·.char)).getD false

def atGap (glyphs : Glyphs) : Bool := (glyphs.head?.map (isSpace ·.char)).getD true

def chars (glyphs : Glyphs) : List Char := glyphs.map Glyph.char

def takeChars (test : Char → Bool) (glyphs : Glyphs) : List Char :=
  chars (glyphs.takeWhile (test ·.char))

def dropChars (test : Char → Bool) (glyphs : Glyphs) : Glyphs := glyphs.dropWhile (test ·.char)

def text (glyphs : Glyphs) : String := String.ofList glyphs.chars

def atMark (mark : Char) : Glyphs → Bool
  | a :: b :: c :: rest =>
      a.column == 0 && a.char == mark && b.char == mark && c.char == mark && atGap rest
  | _ => false

def atDocumentMark (glyphs : Glyphs) : Bool := atMark '-' glyphs || atMark '.' glyphs

def skipBlanks (glyphs : Glyphs) : Glyphs := dropChars isBlank glyphs

def endLine? (glyphs : Glyphs) : Option Glyphs :=
  let behind := skipBlanks glyphs
  let behind := if nextIs (· == '#') behind then dropChars (fun c => !isBreak c) behind else behind
  match behind with
  | [] => some []
  | g :: rest => if isBreak g.char then some rest else none

end Glyphs

end Lemmata.Yaml
