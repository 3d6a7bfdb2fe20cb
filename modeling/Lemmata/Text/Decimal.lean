/-!
Decimal fractions and their nearest binary neighbours with a significand of 53 bits.
-/

set_option autoImplicit false

namespace Lemmata.Rounding

def roundDiv (n k : Nat) : Nat :=
  let q := n / k
  let r := n % k
  if 2 * r < k || (2 * r == k && q % 2 == 0) then q else q + 1

structure Ratio where
  num : Nat
  den : Nat := 1
deriving DecidableEq, Repr

namespace Ratio

def floor (r : Ratio) : Nat := r.num / r.den

def mul (r s : Ratio) : Ratio := ⟨r.num * s.num, r.den * s.den⟩

def scale (r : Ratio) (exponent : Int) : Ratio :=
  if 0 ≤ exponent then ⟨r.num * Nat.pow 2 exponent.toNat, r.den⟩
  else ⟨r.num, r.den * Nat.pow 2 (-exponent).toNat⟩

-- The power of two that brings the number between `2 ^ 52` and `2 ^ 53`.
def shift (r : Ratio) : Int :=
  let guess := (52 : Int) - ((r.num.log2 : Int) - r.den.log2)
  if (r.scale guess).floor < Nat.pow 2 52 then guess + 1 else guess

def nearest (r : Ratio) : Ratio :=
  if r.num = 0 then ⟨0, 1⟩
  else
    let scaled := r.scale r.shift
    Ratio.scale ⟨roundDiv scaled.num scaled.den, 1⟩ (-r.shift)

end Ratio

end Lemmata.Rounding

namespace Lemmata.Text

open Lemmata.Rounding

structure Decimal where
  negative : Bool
  digits : Nat
  exponent : Int
deriving DecidableEq, Repr

namespace Decimal

def natOf (digits : List Char) : Nat :=
  digits.foldl (fun n c => 10 * n + (c.toNat - '0'.toNat)) 0

def exponent? (chars : List Char) : Option Int :=
  let (negative, digits) :=
    match chars with
    | '-' :: rest => (true, rest)
    | '+' :: rest => (false, rest)
    | _ => (false, chars)
  if digits.isEmpty || !digits.all Char.isDigit then none
  else if negative then some (-(natOf digits : Int))
  else some (natOf digits)

def unsigned? (negative : Bool) (chars : List Char) : Option Decimal :=
  let whole := chars.takeWhile Char.isDigit
  let (fraction, behind) :=
    match chars.dropWhile Char.isDigit with
    | '.' :: rest => (rest.takeWhile Char.isDigit, rest.dropWhile Char.isDigit)
    | rest => ([], rest)
  if whole.isEmpty && fraction.isEmpty then none
  else
    let scaled (exponent : Int) : Decimal :=
      ⟨negative, natOf (whole ++ fraction), exponent - fraction.length⟩
    match behind with
    | [] => some (scaled 0)
    | mark :: rest => if mark == 'e' || mark == 'E' then (exponent? rest).map scaled else none

def parse? : List Char → Option Decimal
  | '-' :: rest => unsigned? true rest
  | '+' :: rest => unsigned? false rest
  | chars => unsigned? false chars

def magnitude (d : Decimal) : Int := (Nat.toDigits 10 d.digits).length + d.exponent

-- The number without its sign. One far outside the range of words and of binary fractions is cut
-- off.
def ratio (d : Decimal) : Ratio :=
  if d.digits = 0 || d.magnitude < -400 then ⟨0, 1⟩
  else if 400 < d.magnitude then ⟨Nat.pow 10 400, 1⟩
  else if 0 ≤ d.exponent then ⟨d.digits * Nat.pow 10 d.exponent.toNat, 1⟩
  else ⟨d.digits, Nat.pow 10 (-d.exponent).toNat⟩

-- Whether the number is too large for any neighbour with an exponent of eleven bits: the largest
-- one is `(2 ^ 53 - 1) * 2 ^ 971`, and what lies half a unit or more above it has none.
def isHuge (d : Decimal) : Bool :=
  (Nat.pow 2 54 - 1) * Nat.pow 2 970 * d.ratio.den ≤ d.ratio.num

def truncated (d : Decimal) : Int :=
  if d.negative then -(d.ratio.nearest.floor : Int) else d.ratio.nearest.floor

end Decimal

end Lemmata.Text
