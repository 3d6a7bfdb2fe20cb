import Lemmata.Yaml.Token

/-!
From glyphs to tokens. Blocks are marked by their indentation, so tokens for their starts and ends
are added. A key is recognised by the colon behind it, so each token that may be a key stays a
candidate until its colon comes or its line ends.
-/

set_option autoImplicit false

namespace Lemmata.Yaml

-- A token that turns out to be a key if a colon follows on its line.
structure KeyCandidate where
  position : Nat
  start : Glyph
  required : Bool
deriving DecidableEq, Repr

def keyReach : Nat := 1024

def KeyCandidate.reaches (c : KeyCandidate) (g : Glyph) : Bool :=
  c.start.line == g.line && g.index ≤ c.start.index + keyReach

structure Scanner where
  tokens : Array Token := #[]
  indents : List Nat := []
  candidate : Option KeyCandidate := none
  outer : List (Option KeyCandidate) := []
  keyAllowed : Bool := true
deriving DecidableEq, Repr

namespace Scanner

def inFlow (s : Scanner) : Bool := !s.outer.isEmpty

def emit (s : Scanner) (token : Token) : Scanner := { s with tokens := s.tokens.push token }

def insert (s : Scanner) (position : Nat) (token : Token) : Scanner :=
  { s with tokens := s.tokens.insertIdxIfInBounds position token }

def covers (s : Scanner) (column : Nat) : Bool :=
  match s.indents with
  | indent :: _ => column ≤ indent
  | [] => false

def openBlock (s : Scanner) (column position : Nat) (token : Token) : Scanner :=
  if s.inFlow || s.covers column then s
  else { s.insert position token with indents := column :: s.indents }

def isDeeper (column : Option Nat) (indent : Nat) : Bool :=
  match column with
  | some c => c < indent
  | none => true

def closeBlocks (s : Scanner) (column : Option Nat) : Scanner :=
  if s.inFlow then s
  else
    { s with
      indents := s.indents.dropWhile (isDeeper column)
      tokens :=
        (s.indents.takeWhile (isDeeper column)).foldl (fun ts _ => ts.push .blockEnd) s.tokens }

def dropCandidate (s : Scanner) : Option Scanner :=
  if (s.candidate.map KeyCandidate.required).getD false then none
  else some { s with candidate := none }

def noteCandidate (s : Scanner) (g : Glyph) : Option Scanner :=
  if s.keyAllowed then
    (s.dropCandidate).map fun dropped =>
      { dropped with
        candidate := some {
          position := s.tokens.size
          start := g
          required := !s.inFlow && s.indents.head? == some g.column } }
  else some s

def beforeContent (s : Scanner) (g : Glyph) : Option Scanner :=
  (s.noteCandidate g).map fun noted => { noted with keyAllowed := false }

def openFlow (s : Scanner) (g : Glyph) (token : Token) : Option Scanner :=
  (s.noteCandidate g).map fun noted =>
    { noted with
      candidate := none
      outer := noted.candidate :: noted.outer
      keyAllowed := true }.emit token

def closeFlow (s : Scanner) (token : Token) : Option Scanner :=
  (s.dropCandidate).map fun dropped =>
    let around :=
      match dropped.outer with
      | candidate :: outer => { dropped with candidate, outer }
      | [] => dropped
    { around with keyAllowed := false }.emit token

def flowEntry (s : Scanner) : Option Scanner :=
  (s.dropCandidate).map fun dropped => { dropped with keyAllowed := true }.emit .flowEntry

def blockEntry (s : Scanner) (g : Glyph) : Option Scanner :=
  if !s.inFlow && !s.keyAllowed then none
  else
    ((s.openBlock g.column s.tokens.size .blockSequenceStart).dropCandidate).map fun opened =>
      { opened with keyAllowed := true }.emit .blockEntry

def explicitKey (s : Scanner) (g : Glyph) : Option Scanner :=
  if !s.inFlow && !s.keyAllowed then none
  else
    ((s.openBlock g.column s.tokens.size .blockMappingStart).dropCandidate).map fun opened =>
      { opened with keyAllowed := !s.inFlow }.emit .key

def valueAlone (s : Scanner) (g : Glyph) : Option Scanner :=
  if !s.inFlow && !s.keyAllowed then none
  else
    let opened := s.openBlock g.column s.tokens.size .blockMappingStart
    some ({ opened with keyAllowed := !s.inFlow }.emit .value)

def mappingValue (s : Scanner) (g : Glyph) : Option Scanner :=
  match s.candidate with
  | none => s.valueAlone g
  | some c =>
      if c.reaches g then
        let keyed :=
          (s.insert c.position .key).openBlock c.start.column c.position .blockMappingStart
        some ({ keyed with candidate := none, keyAllowed := false }.emit .value)
      else if c.required then none
      else { s with candidate := none }.valueAlone g

def documentMark (s : Scanner) : Option Scanner :=
  ((s.closeBlocks none).dropCandidate).map fun dropped => { dropped with keyAllowed := false }

/-! ### Steps -/

def startsPlain (s : Scanner) (g : Glyph) (rest : Glyphs) : Bool :=
  let isIndicator :=
    ['-', '?', ':', ',', '[', ']', '{', '}', '#', '&', '*', '!', '|', '>', '\'', '"', '%', '@',
      '\x60'].contains g.char
  (!isSpace g.char && !isIndicator)
    || (g.char == '-' && !Glyphs.nextIs isBlank rest)
    || (!s.inFlow && (g.char == '?' || g.char == ':') && !Glyphs.atGap rest)

abbrev Step := Option (Scanner × Glyphs)

def emitReading (s : Scanner) (make : String → Token) (r : Reading) : Scanner × Glyphs :=
  (s.emit (make (String.ofList r.chars)), r.behind)

def plainStep (s : Scanner) (glyphs : Glyphs) : Step := do
  let (r, crossed) ← plain ⟨s.inFlow, (s.indents.head?.map (· + 1)).getD 0⟩ glyphs
  return { s with keyAllowed := s.keyAllowed || crossed }.emitReading (.scalar true) r

def blockScalarStep (s : Scanner) (folded : Bool) (rest : Glyphs) : Step := do
  let dropped ← s.dropCandidate
  let r ← blockScalar folded s.indents.head? rest
  return { dropped with keyAllowed := true }.emitReading (.scalar false) r

def contentStep (s : Scanner) (g : Glyph) (rest : Glyphs) : Step := do
  let s ← s.beforeContent g
  match g.char with
  | '*' => (anchorName rest).map (s.emitReading .aliasOf)
  | '&' => (anchorName rest).map (s.emitReading .anchor)
  | '!' => (writtenTag rest).map fun (t, behind) => (s.emit (.tag t), behind)
  | '\'' => (singleQuoted rest).map (s.emitReading (.scalar false))
  | '"' => (doubleQuoted rest).map (s.emitReading (.scalar false))
  | _ => s.plainStep (g :: rest)

def step (s : Scanner) (g : Glyph) (rest : Glyphs) : Step :=
  let single (next : Option Scanner) : Step := next.map fun s => (s, rest)
  let mark (token : Token) : Step := s.documentMark.map fun s => (s.emit token, rest.drop 2)
  let beforeGap := s.inFlow || Glyphs.atGap rest
  if g.column == 0 && g.char == '%' then do
    let s ← s.documentMark
    let (d, behind) ← directive rest
    return (s.emit (.directive d), behind)
  else if Glyphs.atMark '-' (g :: rest) then mark .documentStart
  else if Glyphs.atMark '.' (g :: rest) then mark .documentEnd
  else if g.char == '[' then single (s.openFlow g .flowSequenceStart)
  else if g.char == '{' then single (s.openFlow g .flowMappingStart)
  else if g.char == ']' then single (s.closeFlow .flowSequenceEnd)
  else if g.char == '}' then single (s.closeFlow .flowMappingEnd)
  else if g.char == ',' then single s.flowEntry
  else if g.char == '-' && Glyphs.atGap rest then single (s.blockEntry g)
  else if g.char == '?' && beforeGap then single (s.explicitKey g)
  else if g.char == ':' && beforeGap then single (s.mappingValue g)
  else if !s.inFlow && (g.char == '|' || g.char == '>') then s.blockScalarStep (g.char == '>') rest
  else if ['*', '&', '!', '\'', '"'].contains g.char || s.startsPlain g rest then
    s.contentStep g rest
  else none

/-! ### White space and comments -/

inductive Between where
  | space
  | comment
  | afterComment
deriving DecidableEq, Repr

def commentFollows (glyphs : Glyphs) : Bool :=
  Glyphs.nextIs (· == '#') (Glyphs.dropChars isSpace glyphs)

-- Passes white space and comments. A line break allows a key outside of brackets; a tab is white
-- space only where it cannot be taken for indentation.
def skipFrom (inFlow : Bool) : Between → Bool → Glyphs → Bool × Glyphs
  | _, keyAllowed, [] => (keyAllowed, [])
  | .comment, keyAllowed, g :: rest =>
      if isBreak g.char then skipFrom inFlow .afterComment (keyAllowed || !inFlow) rest
      else skipFrom inFlow .comment keyAllowed rest
  | between, keyAllowed, g :: rest =>
      if isBreak g.char then skipFrom inFlow between (keyAllowed || !inFlow) rest
      else if g.char == '#' then skipFrom inFlow .comment keyAllowed rest
      else if g.char == ' ' || (g.column == 0 && g.char == byteOrderMark) then
        skipFrom inFlow between keyAllowed rest
      else if g.char == '\t'
          && (inFlow || !keyAllowed || (between == .afterComment && commentFollows rest)) then
        skipFrom inFlow between keyAllowed rest
      else (keyAllowed, g :: rest)

def skip (s : Scanner) (glyphs : Glyphs) : Scanner × Glyphs :=
  let (keyAllowed, behind) := skipFrom s.inFlow .space s.keyAllowed glyphs
  ({ s with keyAllowed }, behind)

/-! ### The whole text -/

def openPositions (s : Scanner) (glyphs : Glyphs) : List Nat :=
  (s.candidate :: s.outer).filterMap fun candidate =>
    match candidate, glyphs.head? with
    | some c, some g => if c.reaches g then some c.position else none
    | _, _ => none

end Scanner

structure Tokens where
  list : List Token
  complete : Bool
deriving DecidableEq, Repr

def lookahead : Nat := 3

-- The tokens that can be read although something behind them is no token: those with enough
-- others after them, up to the first that might have become a key there.
def Tokens.cut (tokens : Array Token) (openPositions : List Nat) : Tokens :=
  let readable := openPositions.foldl min (tokens.size + 1 - lookahead)
  ⟨tokens.toList.take readable, false⟩

def Tokens.read : Nat → Scanner → Glyphs → Tokens
  | 0, s, glyphs => Tokens.cut s.tokens (s.openPositions glyphs)
  | fuel + 1, s, glyphs =>
      let (skipped, behind) := s.skip glyphs
      match behind with
      | [] =>
          match (skipped.closeBlocks none).dropCandidate with
          | some done => ⟨done.tokens.toList, true⟩
          | none => Tokens.cut skipped.tokens (s.openPositions glyphs)
      | g :: rest =>
          let closed := skipped.closeBlocks (some g.column)
          match closed.step g rest with
          | some (next, behind) => Tokens.read fuel next behind
          | none => Tokens.cut closed.tokens (s.openPositions glyphs)

def Tokens.ofGlyphs (glyphs : Glyphs) : Tokens := Tokens.read (glyphs.length + 1) {} glyphs

end Lemmata.Yaml
