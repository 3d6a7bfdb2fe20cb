import Lemmata.Text.Quoted
import Lemmata.Yaml.Glyph
import Lemmata.Yaml.Value

/-!
Writing scalars. Text is written plain where it reads back as the same text, and otherwise in the
lightest style that can hold it.
-/

set_option autoImplicit false

namespace Lemmata.Yaml

inductive ScalarStyle where
  | plain
  | singleQuoted
  | doubleQuoted
  | literal
deriving DecidableEq, Repr

namespace ScalarStyle

def oldBooleans : List String :=
  ["y", "Y", "yes", "Yes", "YES", "on", "On", "ON", "n", "N", "no", "No", "NO", "off", "Off", "OFF"]

def isSixtieth : List Char → Bool
  | [c] => c.isDigit
  | [c, d] => '0' ≤ c && c ≤ '5' && d.isDigit
  | _ => false

def isDigitOrUnderscore (c : Char) : Bool := c.isDigit || c == '_'

def isLastSixtieth (chars : List Char) : Bool :=
  let fraction := chars.dropWhile (· != '.')
  isSixtieth (chars.takeWhile (· != '.')) && (fraction.drop 1).all isDigitOrUnderscore

def areSixtieths : List (List Char) → Bool
  | [] => false
  | [last] => isLastSixtieth last
  | part :: rest => isSixtieth part && areSixtieths rest

def isSexagesimal (chars : List Char) : Bool :=
  let unsigned :=
    match chars with
    | '+' :: rest => rest
    | '-' :: rest => rest
    | _ => chars
  match unsigned.splitOn ':' with
  | (c :: whole) :: parts => c.isDigit && whole.all isDigitOrUnderscore && areSixtieths parts
  | _ => false

def readsAsText (text : String) : Bool :=
  Value.ofPlain text == .text && !oldBooleans.contains text && !isSexagesimal text.toList

def isShown (c : Char) : Bool :=
  let n := c.toNat
  n == 0x0A || (0x20 ≤ n && n ≤ 0x7E) || (0xA0 ≤ n && n ≤ 0xD7FF)
    || (0xE000 ≤ n && n ≤ 0xFFFD && n != 0xFEFF)

def hasHidden (chars : List Char) : Bool := chars.any fun c => c != '\t' && !isShown c

def hasPair (first second : Char → Bool) : List Char → Bool
  | c :: d :: rest => (first c && second d) || hasPair first second (d :: rest)
  | _ => false

def atEitherEnd (test : Char → Bool) (chars : List Char) : Bool :=
  (chars.head?.map test).getD false || (chars.getLast?.map test).getD false

def beforeBlank : List Char → Bool
  | [] => true
  | c :: _ => isBlank c

-- Whether a colon before a blank or a comment stands in the text behind its first character,
-- before which `last` stands.
def hasInnerIndicator : Char → List Char → Bool
  | _, [] => false
  | last, c :: rest =>
      (c == ':' && beforeBlank rest) || (c == '#' && isSpace last) || hasInnerIndicator c rest

def hasIndicator (chars : List Char) : Bool :=
  chars.take 3 == ['-', '-', '-'] || chars.take 3 == ['.', '.', '.']
    || (match chars with
      | [] => false
      | c :: rest =>
          ['#', ',', '[', ']', '{', '}', '&', '*', '!', '|', '>', '\'', '"', '%', '@',
              '\x60'].contains c
            || (['?', ':', '-'].contains c && beforeBlank rest)
            || hasInnerIndicator c rest)

def allowsSingleQuotes (chars : List Char) : Bool :=
  !chars.contains '\t' && !hasHidden chars && !hasPair isBreak (· == ' ') chars
    && !hasPair (· == ' ') isBreak chars

def allowsPlain (chars : List Char) : Bool :=
  allowsSingleQuotes chars && !atEitherEnd (· == ' ') chars && !chars.any isBreak
    && !hasIndicator chars

def allowsLiteral (chars : List Char) : Bool :=
  chars.getLast? != some ' ' && !hasHidden chars && !hasPair (· == ' ') isBreak chars

def of (text : String) : ScalarStyle :=
  let chars := text.toList
  if chars.contains '\n' then if allowsLiteral chars then literal else doubleQuoted
  else if !readsAsText text then doubleQuoted
  else if allowsPlain chars then plain
  else if allowsSingleQuotes chars then singleQuoted
  else doubleQuoted

end ScalarStyle

/-! ### The written form -/

def indentLines (indent : Nat) : Bool → List Char → List Char
  | _, [] => []
  | afterBreak, c :: rest =>
      if isBreak c then c :: indentLines indent true rest
      else
        (if afterBreak then List.replicate indent ' ' else []) ++ c :: indentLines indent false rest

def singleQuotedForm (indent : Nat) (chars : List Char) : List Char :=
  let doubled := chars.flatMap fun c => if c = '\'' then ['\'', '\''] else [c]
  '\'' :: indentLines indent false doubled ++ ['\'']

def escapeLetter? (c : Char) : Option Char :=
  match c.toNat with
  | 0x00 => some '0'
  | 0x07 => some 'a'
  | 0x08 => some 'b'
  | 0x09 => some 't'
  | 0x0A => some 'n'
  | 0x0B => some 'v'
  | 0x0C => some 'f'
  | 0x0D => some 'r'
  | 0x1B => some 'e'
  | 0x22 => some '"'
  | 0x5C => some '\\'
  | 0x85 => some 'N'
  | 0x2028 => some 'L'
  | 0x2029 => some 'P'
  | _ => none

def escapedForm (c : Char) : List Char :=
  let hex (mark : Char) (width : Nat) : List Char :=
    '\\' :: mark :: (Text.hexDigits width c.toNat).map Char.toUpper
  match escapeLetter? c with
  | some letter => ['\\', letter]
  | none =>
      if ScalarStyle.isShown c then [c]
      else if c.toNat ≤ 0xFF then hex 'x' 2
      else if c.toNat ≤ 0xFFFF then hex 'u' 4
      else hex 'U' 8

def doubleQuotedForm (chars : List Char) : List Char := '"' :: chars.flatMap escapedForm ++ ['"']

-- Whether the reader of a literal block would take the start of the text for indentation.
def hidesIndentation : List Char → Bool
  | c :: _ => c == ' ' || isBreak c
  | [] => false

def chompingMark (chars : List Char) : List Char :=
  match chars.reverse with
  | last :: before :: _ => if !isBreak last then ['-'] else if isBreak before then ['+'] else []
  | [last] => if isBreak last then ['+'] else ['-']
  | [] => ['-']

def literalForm (step indent : Nat) (chars : List Char) : List Char :=
  let hint := if hidesIndentation chars then (toString step).toList else []
  let lineEnd := if (chars.head?.map isBreak).getD false then [] else ['\n']
  '|' :: hint ++ chompingMark chars ++ lineEnd ++ indentLines indent true chars

def writtenScalar (step indent : Nat) (text : String) : String :=
  match ScalarStyle.of text with
  | .plain => text
  | .singleQuoted => String.ofList (singleQuotedForm indent text.toList)
  | .doubleQuoted => String.ofList (doubleQuotedForm text.toList)
  | .literal => String.ofList (literalForm step indent text.toList)

end Lemmata.Yaml
