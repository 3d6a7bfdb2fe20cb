/-!
White space and the words between it. Words of formulas, plain proofs and label lists are separated
by Unicode white space; the letters of a compressed proof, and the checks on names, know four blanks
only. A word remembers the byte at which it starts, counted in UTF-8 from the start of the whole text.
-/

set_option autoImplicit false

namespace Lemmata.Text

def isBlank (c : Char) : Bool :=
  (0x09 ≤ c.toNat && c.toNat ≤ 0x0D) || c.toNat == 0x20 || c.toNat == 0x85 || c.toNat == 0xA0
    || c.toNat == 0x1680 || (0x2000 ≤ c.toNat && c.toNat ≤ 0x200A)
    || c.toNat == 0x2028 || c.toNat == 0x2029 || c.toNat == 0x202F || c.toNat == 0x205F
    || c.toNat == 0x3000

-- Space, tab, line feed and carriage return.
def isSpacing (c : Char) : Bool :=
  c == ' ' || c == '\t' || c == '\n' || c == '\r'

def trimStart (chars : List Char) : List Char := chars.dropWhile isBlank

def trimEnd (chars : List Char) : List Char := (chars.reverse.dropWhile isBlank).reverse

def trim (text : String) : String := String.ofList (trimEnd (trimStart text.toList))

structure Word where
  chars : List Char
  offset : Nat
deriving DecidableEq, Repr

def Word.name (word : Word) : String := String.ofList word.chars

def byteLength (chars : List Char) : Nat := chars.foldr (fun c n => c.utf8Size + n) 0

-- The words of `chars`, whose first character stands at byte `offset`. A character joins the
-- word that starts right behind it.
def words : Nat → List Char → List Word
  | _, [] => []
  | offset, c :: rest =>
      let behind := words (offset + c.utf8Size) rest
      if isBlank c then behind
      else
        match behind with
        | [] => [⟨[c], offset⟩]
        | word :: tail =>
            if word.offset = offset + c.utf8Size then ⟨c :: word.chars, offset⟩ :: tail
            else ⟨[c], offset⟩ :: behind

def wordNames (text : String) : List String := (words 0 text.toList).map Word.name

end Lemmata.Text
