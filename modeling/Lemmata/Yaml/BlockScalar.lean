import Lemmata.Yaml.FlowScalar

/-!
Block scalars: literal and folded text below its header. The header may fix the indentation and
says what becomes of the line breaks at the end.
-/

set_option autoImplicit false

namespace Lemmata.Yaml

inductive Chomping where
  | strip
  | clip
  | keep
deriving DecidableEq, Repr

structure BlockHeader where
  folded : Bool
  chomping : Chomping := .clip
  increment : Option Nat := none
deriving DecidableEq, Repr

def chomping? (c : Char) : Option Chomping :=
  if c = '+' then some .keep else if c = '-' then some .strip else none

def headerItem {α : Type} (meaning : Char → Option α) : Glyphs → Option α × Glyphs
  | [] => (none, [])
  | g :: rest =>
      match meaning g.char with
      | some a => (some a, rest)
      | none => (none, g :: rest)

def digit? (c : Char) : Option Nat := if c.isDigit then some (c.toNat - '0'.toNat) else none

-- Reads the header behind its first character. The two items of a header may come in either
-- order, and no text stands zero columns deeper.
def blockHeader (folded : Bool) (glyphs : Glyphs) : Option (BlockHeader × Glyphs) := do
  let (first, behind) := headerItem chomping? glyphs
  let (increment, behind) := headerItem digit? behind
  let (last, behind) :=
    if first.isNone && increment.isSome then headerItem chomping? behind else (none, behind)
  if increment = some 0 then none
  else
    let behind ← Glyphs.endLine? behind
    return (⟨folded, (first.or last).getD .clip, increment⟩, behind)

-- The deepest column that the blank lines at the start and the first other line reach. A tab in
-- the indentation is refused.
def deepestColumn : Nat → Glyphs → Option Nat
  | deepest, [] => some deepest
  | deepest, g :: rest =>
      if g.char == ' ' then deepestColumn deepest rest
      else if g.char == '\t' then none
      else if isBreak g.char then deepestColumn (max deepest g.column) rest
      else some (max deepest g.column)

def BlockHeader.column (header : BlockHeader) (parent : Option Nat) (glyphs : Glyphs) :
    Option Nat :=
  match header.increment with
  | some n => some (parent.getD 0 + n)
  | none =>
      (deepestColumn 0 glyphs).map fun deepest =>
        max deepest (max ((parent.map (· + 1)).getD 0) 1)

structure BlockState where
  inLine : Bool := false
  ending : List Char := []
  blankLines : List Char := []
  afterBlank : Bool := false
deriving DecidableEq, Repr

def BlockState.between (s : BlockState) (folded : Bool) (c : Char) : List Char :=
  if folded && !s.afterBlank && !isBlank c && s.ending == ['\n'] then
    if s.blankLines.isEmpty then [' '] else s.blankLines
  else s.ending ++ s.blankLines

def BlockState.tail (s : BlockState) : Chomping → List Char
  | .strip => []
  | .clip => s.ending
  | .keep => s.ending ++ s.blankLines

def blockLines (header : BlockHeader) (column : Nat) : BlockState → Glyphs → Option Reading
  | s, [] => some ⟨s.tail header.chomping, []⟩
  | s, g :: rest =>
      if s.inLine then
        if isBreak g.char then
          blockLines header column { s with inLine := false, ending := [g.char] } rest
        else (blockLines header column s rest).map (·.cons [g.char])
      else if g.column < column && g.char == ' ' then blockLines header column s rest
      else if g.column < column && g.char == '\t' then none
      else if isBreak g.char then
        blockLines header column { s with blankLines := s.blankLines ++ [g.char] } rest
      else if g.column == column then
        let next : BlockState := { inLine := true, afterBlank := isBlank g.char }
        (blockLines header column next rest).map
          (·.cons (s.between header.folded g.char ++ [g.char]))
      else some ⟨s.tail header.chomping, g :: rest⟩

def blockScalar (folded : Bool) (parent : Option Nat) (glyphs : Glyphs) : Option Reading := do
  let (header, behind) ← blockHeader folded glyphs
  let column ← header.column parent behind
  blockLines header column {} behind

end Lemmata.Yaml
