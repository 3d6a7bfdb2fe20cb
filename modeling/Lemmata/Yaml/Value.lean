import Lemmata.Text.Decimal
import Lemmata.Text.Numeral
import Lemmata.Yaml.Timestamp

/-!
What a scalar means. A scalar in quotes is text; of a plain one the first character tells what it
may be, and if it is nothing else it is text too.
-/

set_option autoImplicit false

namespace Lemmata.Text.Base64

def sextet? (c : Char) : Option Nat :=
  if c.isUpper then some (c.toNat - 'A'.toNat)
  else if c.isLower then some (c.toNat - 'a'.toNat + 26)
  else if c.isDigit then some (c.toNat - '0'.toNat + 52)
  else if c = '+' then some 62
  else if c = '/' then some 63
  else none

-- The bytes of groups of four characters; only the last group may be padded.
def bytes? : List Char → Option (List UInt8)
  | [] => some []
  | [a, b, '=', '='] => do
      let n := 64 * (← sextet? a) + (← sextet? b)
      return [(n / 16).toUInt8]
  | [a, b, c, '='] => do
      let n := 64 * (64 * (← sextet? a) + (← sextet? b)) + (← sextet? c)
      return [(n / 1024).toUInt8, (n / 4).toUInt8]
  | a :: b :: c :: d :: rest => do
      let n := 64 * (64 * (64 * (← sextet? a) + (← sextet? b)) + (← sextet? c)) + (← sextet? d)
      let others ← bytes? rest
      return (n / 65536).toUInt8 :: (n / 256).toUInt8 :: n.toUInt8 :: others
  | _ => none

def decode? (text : String) : Option String := do
  let bytes ← bytes? (text.toList.filter fun c => c != '\n' && c != '\r')
  String.fromUTF8? ⟨bytes.toArray⟩

end Lemmata.Text.Base64

namespace Lemmata.Yaml

open Lemmata.Text

inductive Value where
  | null
  | boolean
  | integer (n : Int)
  | real (d : Option Decimal)
  | timestamp
  | text
deriving DecidableEq, Repr

namespace Value

def reserved? : String → Option Value
  | "" | "~" | "null" | "Null" | "NULL" => some null
  | "true" | "True" | "TRUE" | "false" | "False" | "FALSE" => some boolean
  | ".nan" | ".NaN" | ".NAN" => some (real none)
  | ".inf" | ".Inf" | ".INF" | "+.inf" | "+.Inf" | "+.INF" => some (real (some ⟨false, 1, 400⟩))
  | "-.inf" | "-.Inf" | "-.INF" => some (real (some ⟨true, 1, 400⟩))
  | _ => none

def decimal? (chars : List Char) : Option Value :=
  ((Decimal.parse? chars).filter fun d => !d.isHuge).map fun d => real (some d)

def hasStrayUnderscore : Bool → List Char → Bool
  | _, [] => false
  | afterDigit, c :: rest =>
      (c == '_' && !(afterDigit && (rest.head?.map Char.isDigit).getD false))
        || hasStrayUnderscore c.isDigit rest

def fraction? (chars : List Char) : Option Value :=
  if hasStrayUnderscore false chars then none else decimal? (chars.filter (· != '_'))

-- A numeral whose sign stands behind the mark of its base.
def signedDigits? : List Char → Option Int
  | '0' :: mark :: sign :: rest =>
      let base := if mark == 'b' then 2 else 8
      if (mark == 'b' || mark == 'o') && (sign == '+' || sign == '-') && !rest.isEmpty then
        ((Numeral.digits? base 0 rest).map (Numeral.mk (some sign))).bind Numeral.toInt64?
      else none
  | _ => none

def number? (chars : List Char) : Option Value :=
  let bare := chars.filter (· != '_')
  match (Numeral.parse? bare).bind Numeral.toWord? with
  | some n => some (integer n)
  | none => (decimal? bare).or ((signedDigits? bare).map integer)

def ofPlain (text : String) : Value :=
  match reserved? text, text.toList with
  | some v, _ => v
  | none, c :: rest =>
      if c == '.' then (fraction? (c :: rest)).getD .text
      else if c.isDigit || c == '+' || c == '-' then
        if Timestamp.recognise (c :: rest) then .timestamp else (number? (c :: rest)).getD .text
      else .text
  | none, [] => .text

def tag : Value → String
  | null => "!!null"
  | boolean => "!!bool"
  | integer _ => "!!int"
  | real _ => "!!float"
  | timestamp => "!!timestamp"
  | text => "!!str"

def tags : List String := ["!!null", "!!bool", "!!int", "!!float", "!!timestamp", "!!str"]

end Value

end Lemmata.Yaml
