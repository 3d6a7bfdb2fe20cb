import Lemmata.Yaml.Glyph

/-!
Flow scalars: plain text and text in quotes. Both may run over several lines; the white space
between two words is a gap, and a gap with a line break in it is folded.
-/

set_option autoImplicit false

namespace Lemmata.Yaml

inductive Gap where
  | none
  | blanks (chars : List Char)
  | lines (first : Option Char) (more : List Char)
deriving DecidableEq, Repr

namespace Gap

def extend : Gap → Char → Gap
  | lines first more, c => if isBreak c then lines first (more ++ [c]) else lines first more
  | none, c => if isBreak c then lines (some c) [] else blanks [c]
  | blanks chars, c => if isBreak c then lines (some c) [] else blanks (chars ++ [c])

-- The text that a gap between two words stands for: one line feed is a space, and of several
-- the first is dropped.
def folded : Gap → List Char
  | none => []
  | blanks chars => chars
  | lines (some '\n') [] => [' ']
  | lines (some '\n') more => more
  | lines first more => first.toList ++ more

def isLines : Gap → Bool
  | lines _ _ => true
  | _ => false

end Gap

structure Reading where
  chars : List Char
  behind : Glyphs
deriving DecidableEq, Repr

def Reading.cons (chars : List Char) (r : Reading) : Reading := { r with chars := chars ++ r.chars }

/-! ### Plain scalars -/

structure Surroundings where
  inFlow : Bool
  indent : Nat
deriving DecidableEq, Repr

def Surroundings.endsBefore (s : Surroundings) (gap : Gap) (g : Glyph) (rest : Glyphs) : Bool :=
  (gap != .none
    && ((!s.inFlow && g.column < s.indent) || g.char == '#' || Glyphs.atDocumentMark (g :: rest)))
  || (g.char == ':' && Glyphs.atGap rest)
  || (s.inFlow && [',', '?', '[', ']', '{', '}'].contains g.char)

-- Reads a plain scalar. The answer also tells whether a line break was passed after its last
-- word. A tab in the indentation of a further line is refused.
def plainFrom (s : Surroundings) : Gap → Glyphs → Option (Reading × Bool)
  | gap, [] => some (⟨[], []⟩, gap.isLines)
  | gap, g :: rest =>
      if isSpace g.char then
        if gap.isLines && g.char == '\t' && g.column < s.indent then none
        else plainFrom s (gap.extend g.char) rest
      else if s.endsBefore gap g rest then some (⟨[], g :: rest⟩, gap.isLines)
      else
        (plainFrom s .none rest).map fun (r, crossed) => (r.cons (gap.folded ++ [g.char]), crossed)

def plain (s : Surroundings) (glyphs : Glyphs) : Option (Reading × Bool) := plainFrom s .none glyphs

/-! ### Quoted scalars -/

def singleQuotedFrom : Gap → Glyphs → Option Reading
  | _, [] => none
  | gap, g :: rest =>
      if isSpace g.char then singleQuotedFrom (gap.extend g.char) rest
      else if Glyphs.atDocumentMark (g :: rest) then none
      else if g.char == '\'' then
        match rest with
        | h :: after =>
            if h.char == '\'' then
              (singleQuotedFrom .none after).map (·.cons (gap.folded ++ ['\'']))
            else some ⟨gap.folded, rest⟩
        | [] => some ⟨gap.folded, []⟩
      else (singleQuotedFrom .none rest).map (·.cons (gap.folded ++ [g.char]))

def singleQuoted (glyphs : Glyphs) : Option Reading := singleQuotedFrom .none glyphs

def escaped? : Char → Option Char
  | '0' => some (Char.ofNat 0x00)
  | 'a' => some (Char.ofNat 0x07)
  | 'b' => some (Char.ofNat 0x08)
  | 't' => some '\t'
  | '\t' => some '\t'
  | 'n' => some '\n'
  | 'v' => some (Char.ofNat 0x0B)
  | 'f' => some (Char.ofNat 0x0C)
  | 'r' => some '\r'
  | 'e' => some (Char.ofNat 0x1B)
  | ' ' => some ' '
  | '"' => some '"'
  | '\'' => some '\''
  | '\\' => some '\\'
  | 'N' => some (Char.ofNat 0x85)
  | '_' => some (Char.ofNat 0xA0)
  | 'L' => some (Char.ofNat 0x2028)
  | 'P' => some (Char.ofNat 0x2029)
  | _ => none

def escapeWidth? : Char → Option Nat
  | 'x' => some 2
  | 'u' => some 4
  | 'U' => some 8
  | _ => none

def hexValue? (c : Char) : Option Nat :=
  if c.isDigit then some (c.toNat - '0'.toNat)
  else if 'a' ≤ c && c ≤ 'f' then some (c.toNat - 'a'.toNat + 10)
  else if 'A' ≤ c && c ≤ 'F' then some (c.toNat - 'A'.toNat + 10)
  else none

def charOfCode? (n : Nat) : Option Char := if n.isValidChar then some (Char.ofNat n) else none

inductive QuotedState where
  | text (gap : Gap)
  | escape
  | code (missing value : Nat)
deriving DecidableEq, Repr

def doubleQuotedFrom : QuotedState → Glyphs → Option Reading
  | _, [] => none
  | .text gap, g :: rest =>
      if isSpace g.char then doubleQuotedFrom (.text (gap.extend g.char)) rest
      else if Glyphs.atDocumentMark (g :: rest) then none
      else if g.char == '"' then some ⟨gap.folded, rest⟩
      else if g.char == '\\' then (doubleQuotedFrom .escape rest).map (·.cons gap.folded)
      else (doubleQuotedFrom (.text .none) rest).map (·.cons (gap.folded ++ [g.char]))
  | .escape, g :: rest =>
      if isBreak g.char then doubleQuotedFrom (.text (.lines none [])) rest
      else
        match escapeWidth? g.char, escaped? g.char with
        | some width, _ => doubleQuotedFrom (.code width 0) rest
        | none, some c => (doubleQuotedFrom (.text .none) rest).map (·.cons [c])
        | none, none => none
  | .code missing value, g :: rest =>
      match hexValue? g.char with
      | none => none
      | some digit =>
          let value := 16 * value + digit
          if 1 < missing then doubleQuotedFrom (.code (missing - 1) value) rest
          else
            match charOfCode? value with
            | none => none
            | some c => (doubleQuotedFrom (.text .none) rest).map (·.cons [c])

def doubleQuoted (glyphs : Glyphs) : Option Reading := doubleQuotedFrom (.text .none) glyphs

end Lemmata.Yaml
