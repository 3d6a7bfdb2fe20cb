import Lemmata.Text.Decimal

/-!
Lengths of time in nanoseconds, written as numbers with units such as `1h30m` or `1.5s`.
-/

set_option autoImplicit false

namespace Lemmata.Duration

open Lemmata.Rounding

def units : List (String × Nat) := [
  ("ns", 1),
  ("us", 1000),
  ("\u00B5s", 1000),
  ("\u03BCs", 1000),
  ("ms", 1000000),
  ("s", 1000000000),
  ("m", 60000000000),
  ("h", 3600000000000)]

def limit : Nat := 0x8000000000000000

def digitsValue (digits : List Char) : Nat :=
  digits.foldl (fun n c => 10 * n + (c.toNat - '0'.toNat)) 0

-- Digits behind the point: their value, and the power of ten that they are parts of. Digits that
-- would make the value too large are left out.
def fraction : Nat → Nat → List Char → Nat × Nat
  | value, scale, [] => (value, scale)
  | value, scale, c :: rest =>
      let next := 10 * value + (c.toNat - '0'.toNat)
      if (limit - 1) / 10 < value || limit < next then (value, scale)
      else fraction next (10 * scale) rest

def fractionLength (value scale unit : Nat) : Nat :=
  ((Ratio.mk value 1).nearest.mul (Ratio.mk unit scale).nearest).nearest.floor

structure Part where
  whole : List Char
  fraction : List Char
  unit : String
deriving DecidableEq, Repr

def Part.length? (p : Part) : Option Nat := do
  let unit ← units.lookup p.unit
  let whole := digitsValue p.whole
  let (value, scale) := Duration.fraction 0 1 p.fraction
  let length := whole * unit + if 0 < value then fractionLength value scale unit else 0
  if p.whole.isEmpty && p.fraction.isEmpty then none
  else if limit < whole || limit / unit < whole || limit < length then none
  else return length

def isNumeral (c : Char) : Bool := c.isDigit || c == '.'

def takePart (chars : List Char) : Part × List Char :=
  let whole := chars.takeWhile Char.isDigit
  let behind := chars.dropWhile Char.isDigit
  let (fraction, behind) :=
    match behind with
    | '.' :: rest => (rest.takeWhile Char.isDigit, rest.dropWhile Char.isDigit)
    | _ => ([], behind)
  let unit := behind.takeWhile fun c => !isNumeral c
  (⟨whole, fraction, String.ofList unit⟩, behind.dropWhile fun c => !isNumeral c)

-- The sum of the parts. Each part takes a character, so `fuel` need not exceed their number.
def sumParts : Nat → Nat → List Char → Option Nat
  | _, total, [] => some total
  | 0, _, _ => none
  | fuel + 1, total, chars => do
      let (part, rest) := takePart chars
      let length ← part.length?
      if limit < total + length then none else sumParts fuel (total + length) rest

def unsigned? (chars : List Char) : Option Nat :=
  if chars = ['0'] then some 0
  else if chars.isEmpty then none
  else sumParts chars.length 0 chars

def parse? (text : String) : Option Int :=
  match text.toList with
  | '-' :: rest => (unsigned? rest).map fun n => -(n : Int)
  | '+' :: rest => ((unsigned? rest).filter (· < limit)).map fun n => (n : Int)
  | chars => ((unsigned? chars).filter (· < limit)).map fun n => (n : Int)

end Lemmata.Duration
