/-!
The forms of dates and times that a YAML text may hold without quotes.
-/

set_option autoImplicit false

namespace Lemmata.Yaml.Timestamp

abbrev Part := Nat × List Char

def shortNumber? : List Char → Option Part
  | c :: d :: rest =>
      if !c.isDigit then none
      else if d.isDigit then some (10 * (c.toNat - '0'.toNat) + (d.toNat - '0'.toNat), rest)
      else some (c.toNat - '0'.toNat, d :: rest)
  | [c] => if c.isDigit then some (c.toNat - '0'.toNat, []) else none
  | [] => none

def isLeap (year : Nat) : Bool := year % 4 == 0 && (year % 100 != 0 || year % 400 == 0)

def daysIn (year month : Nat) : Nat :=
  match month with
  | 2 => if isLeap year then 29 else 28
  | 4 | 6 | 9 | 11 => 30
  | _ => 31

def behindDate? (chars : List Char) : Option (List Char) := do
  let digits := chars.takeWhile Char.isDigit
  if digits.length ≠ 4 then none
  else
    let year := digits.foldl (fun n c => 10 * n + (c.toNat - '0'.toNat)) 0
    let '-' :: rest := chars.dropWhile Char.isDigit | none
    let (month, rest) ← shortNumber? rest
    let '-' :: rest := rest | none
    let (day, rest) ← shortNumber? rest
    if 1 ≤ month && month ≤ 12 && 1 ≤ day && day ≤ daysIn year month then some rest else none

def behindFraction : List Char → List Char
  | mark :: c :: rest =>
      if (mark == '.' || mark == ',') && c.isDigit then rest.dropWhile Char.isDigit
      else mark :: c :: rest
  | chars => chars

def behindTime? (chars : List Char) : Option (List Char) := do
  let (hour, rest) ← shortNumber? chars
  let ':' :: rest := rest | none
  let (minute, rest) ← shortNumber? rest
  let ':' :: rest := rest | none
  let (second, rest) ← shortNumber? rest
  if hour < 24 && minute < 60 && second < 60 then some (behindFraction rest) else none

def isZone : List Char → Bool
  | ['Z'] => true
  | [sign, a, b, ':', c, d] =>
      (sign == '+' || sign == '-') && [a, b, c, d].all Char.isDigit
        && 10 * (a.toNat - '0'.toNat) + (b.toNat - '0'.toNat) ≤ 24
        && 10 * (c.toNat - '0'.toNat) + (d.toNat - '0'.toNat) ≤ 60
  | _ => false

-- Whether the characters are a date, or a date and a time. A time behind the letter has a zone,
-- and a time behind spaces has none.
def recognise (chars : List Char) : Bool :=
  match behindDate? chars with
  | none => false
  | some [] => true
  | some (mark :: rest) =>
      if mark == 'T' || mark == 't' then ((behindTime? rest).map isZone).getD false
      else if mark == ' ' then behindTime? (rest.dropWhile (· == ' ')) == some []
      else false

end Lemmata.Yaml.Timestamp
