/-!
Integer numerals: a sign, a mark for the base and digits. Single underscores may stand between
the digits.
-/

set_option autoImplicit false

namespace Lemmata.Text

structure Numeral where
  sign : Option Char
  magnitude : Nat
deriving DecidableEq, Repr

namespace Numeral

def value (n : Numeral) : Int := if n.sign = some '-' then -(n.magnitude : Int) else n.magnitude

def digitValue? (c : Char) : Option Nat :=
  if c.isDigit then some (c.toNat - '0'.toNat)
  else if c.isLower then some (c.toNat - 'a'.toNat + 10)
  else if c.isUpper then some (c.toNat - 'A'.toNat + 10)
  else none

def digits? (base : Nat) : Nat → List Char → Option Nat
  | known, [] => some known
  | known, c :: rest =>
      match digitValue? c with
      | none => none
      | some d => if d < base then digits? base (base * known + d) rest else none

def withoutUnderscores? : List Char → Option (List Char)
  | [] => some []
  | '_' :: '_' :: _ => none
  | ['_'] => none
  | '_' :: c :: rest => (withoutUnderscores? rest).map (c :: ·)
  | c :: rest => (withoutUnderscores? rest).map (c :: ·)

-- The base, and the characters behind the mark for it. A zero at the start, before other
-- digits, makes the numeral octal.
def baseOf : List Char → Nat × List Char
  | '0' :: mark :: c :: rest =>
      match mark.toLower with
      | 'b' => (2, c :: rest)
      | 'o' => (8, c :: rest)
      | 'x' => (16, c :: rest)
      | _ => (8, '0' :: mark :: c :: rest)
  | '0' :: rest => (8, '0' :: rest)
  | chars => (10, chars)

def magnitude? (chars : List Char) : Option Nat :=
  let (base, digits) := baseOf chars
  if chars.isEmpty || (base == 10 && digits.head? == some '_') then none
  else (withoutUnderscores? digits).bind (digits? base 0)

def parse? : List Char → Option Numeral
  | '+' :: rest => (magnitude? rest).map (⟨some '+', ·⟩)
  | '-' :: rest => (magnitude? rest).map (⟨some '-', ·⟩)
  | chars => (magnitude? chars).map (⟨none, ·⟩)

def int64Limit : Nat := 0x8000000000000000

def inInt64 (n : Int) : Bool := -(int64Limit : Int) ≤ n && n < int64Limit

def toInt64? (n : Numeral) : Option Int := if inInt64 n.value then some n.value else none

-- The value, if a signed or, for a numeral without a sign, an unsigned word of 64 bits can hold
-- it.
def toWord? (n : Numeral) : Option Int :=
  if inInt64 n.value || (n.sign.isNone && n.magnitude < 2 * int64Limit) then some n.value else none

end Numeral

def int64? (text : String) : Option Int := (Numeral.parse? text.toList).bind Numeral.toInt64?

end Lemmata.Text
