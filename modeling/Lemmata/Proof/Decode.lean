import Lemmata.Proof.Instruction

/-!
Reading proof texts. A text that starts with a parenthesis is a compressed proof: a label list,
then a run of letters that number the required hypotheses, the listed labels and the saved steps.
Any other text is a plain proof, a sequence of labels. Every error carries its byte offset.

A number is written with letters `U` to `Y` for its high digits, in radix 5, and one letter `A` to `T`
for the last digit, in radix 20. All digits start at one, so every number from one on has one code.
-/

set_option autoImplicit false

namespace Lemmata.LetterCode

inductive Letter where
  | high (digit : Nat)
  | last (digit : Nat)
  | save
  | unknown
deriving DecidableEq, Repr

def Letter.ofChar (c : Char) : Option Letter :=
  if 'U' ≤ c ∧ c ≤ 'Y' then some (.high (c.toNat - 'U'.toNat + 1))
  else if 'A' ≤ c ∧ c ≤ 'T' then some (.last (c.toNat - 'A'.toNat + 1))
  else if c = 'Z' then some .save
  else if c = '?' then some .unknown
  else none

def highLetter (digit : Nat) : Char := Char.ofNat ('U'.toNat + digit - 1)

def lastLetter (digit : Nat) : Char := Char.ofNat ('A'.toNat + digit - 1)

def pushHigh (number digit : Nat) : Nat := number * 5 + digit

def pushLast (number digit : Nat) : Nat := number * 20 + digit

def highLetters : Nat → List Char
  | 0 => []
  | n + 1 => highLetters (n / 5) ++ [highLetter (n % 5 + 1)]
termination_by n => n
decreasing_by omega

def encode (number : Nat) : List Char :=
  highLetters ((number - 1) / 20) ++ [lastLetter ((number - 1) % 20 + 1)]

end Lemmata.LetterCode

namespace Lemmata

open Text LetterCode

inductive DecodeCause where
  | undeclared (label : String)
  | declaredAfter (label owner : String)
  | outsideFrame (label owner : String)
  | notUsable (label : String)
  | emptyProof
  | parenthesis
  | requiredListed (label : String)
  | unclosedList
  | highRange (limit : Nat)
  | numberRange (number limit : Nat)
  | saveInNumber
  | saveFirst
  | savedTwice (step : Nat)
  | unknownInNumber
  | illegal (character : Char)
  | unfinishedNumber
  | notCompressed
deriving DecidableEq, Repr

def DecodeCause.message : DecodeCause → String
  | undeclared label => "label " ++ quoted label ++ " is not declared"
  | declaredAfter label owner =>
      "label " ++ quoted label ++ " is declared after " ++ quoted owner
  | outsideFrame label owner =>
      "hypothesis " ++ quoted label ++ " is not in the frame of " ++ quoted owner
  | notUsable label => "label " ++ quoted label ++ " does not name a hypothesis or assertion"
  | emptyProof => "empty proof"
  | parenthesis => "unexpected parenthesis in label list"
  | requiredListed label =>
      "required hypothesis " ++ quoted label ++ " must not appear in the label list"
  | unclosedList => "label list is not closed"
  | highRange limit => "proof step number is out of range (max " ++ toString limit ++ ")"
  | numberRange number limit =>
      "proof step number " ++ toString number ++ " is out of range (max " ++ toString limit ++ ")"
  | saveInNumber => "save marker inside a step number"
  | saveFirst => "save marker has no preceding step"
  | savedTwice step => "step " ++ toString step ++ " is saved twice"
  | unknownInNumber => "unknown step inside a step number"
  | illegal character => "illegal character " ++ quotedChar character ++ " in compressed proof"
  | unfinishedNumber => "compressed proof ends in the middle of a step number"
  | notCompressed => "not a compressed proof"

structure DecodeError where
  label : String
  offset : Nat
  cause : DecodeCause
deriving DecidableEq, Repr

def DecodeError.message (e : DecodeError) : String :=
  e.label ++ ": proof offset " ++ toString e.offset ++ ": " ++ e.cause.message

namespace Proof

abbrev Decoded := Except DecodeError

def failAt {α : Type} (owner : Statement) (offset : Nat) (cause : DecodeCause) : Decoded α :=
  .error ⟨owner.label, offset, cause⟩

def resolve (t : Table) (owner : Statement) (word : Word) : Decoded Int :=
  match t.lookup word.name with
  | none => failAt owner word.offset (.undeclared word.name)
  | some s =>
      if owner.id ≤ s.id then failAt owner word.offset (.declaredAfter word.name owner.label)
      else if s.isHypothesis then
        if owner.frame.contains s.id then .ok s.id
        else failAt owner word.offset (.outsideFrame word.name owner.label)
      else if s.isAssertion then .ok s.id
      else failAt owner word.offset (.notUsable word.name)

def decodeWord (t : Table) (owner : Statement) (word : Word) : Decoded Instruction :=
  if word.chars = ['?'] then .ok .unknown
  else do
    let id ← resolve t owner word
    return .reference id

def decodePlain (t : Table) (owner : Statement) (chars : List Char) : Decoded Proof :=
  match words 0 chars with
  | [] => failAt owner 0 .emptyProof
  | found => found.mapM (decodeWord t owner)

def listedLabel (t : Table) (owner : Statement) (word : Word) : Decoded Int :=
  if word.chars.contains '(' then failAt owner word.offset .parenthesis
  else do
    let id ← resolve t owner word
    if owner.frame.required.contains id then
      failAt owner word.offset (.requiredListed word.name)
    else return id

def numbered (required listed : List Int) (saved : List Nat) : List Instruction :=
  (required ++ listed).map .reference ++ saved.map fun step => .reuse step

structure LetterState where
  -- The high digits of a number that is not complete yet; zero between numbers.
  pending : Nat := 0
  count : Nat := 0
  saved : List Nat := []
  justSaved : Bool := false
deriving DecidableEq, Repr

-- The character whose code point is the first byte of `c` in UTF-8.
def leadByte (c : Char) : Char := Char.ofNat ((String.utf8EncodeChar c).headD 0).toNat

def letters (required listed : List Int) :
    LetterState → Nat → List Char → Except (Nat × DecodeCause) (List Instruction)
  | state, offset, [] =>
      if state.pending = 0 then .ok [] else .error (offset - 1, .unfinishedNumber)
  | state, offset, c :: rest =>
      if isSpacing c then letters required listed state (offset + 1) rest
      else
        let targets := numbered required listed state.saved
        match Letter.ofChar c with
        | some (.high digit) =>
            let pending := pushHigh state.pending digit
            if targets.length < pending then .error (offset, .highRange targets.length)
            else letters required listed { state with pending } (offset + 1) rest
        | some (.last digit) =>
            let number := pushLast state.pending digit
            match targets[number - 1]? with
            | none => .error (offset, .numberRange number targets.length)
            | some instruction => do
                let others ← letters required listed
                  { state with pending := 0, count := state.count + 1, justSaved := false }
                  (offset + 1) rest
                return instruction :: others
        | some .save =>
            if state.pending ≠ 0 then .error (offset, .saveInNumber)
            else if state.count = 0 then .error (offset, .saveFirst)
            else if state.justSaved then .error (offset, .savedTwice (state.count - 1))
            else
              letters required listed
                { state with saved := state.saved ++ [state.count - 1], justSaved := true }
                (offset + 1) rest
        | some .unknown =>
            if state.pending ≠ 0 then .error (offset, .unknownInNumber)
            else do
              let others ← letters required listed
                { state with count := state.count + 1, justSaved := false } (offset + 1) rest
              return .unknown :: others
        | none => .error (offset, .illegal (leadByte c))

-- Reads a compressed proof whose opening parenthesis stands at `opening`, from the text behind
-- that parenthesis. The label list reaches up to the first closing parenthesis.
def decodeCompressed (t : Table) (owner : Statement) (opening : Nat) (chars : List Char) :
    Decoded Proof := do
  let list := chars.takeWhile (· != ')')
  let listed ← (words (opening + 1) list).mapM (listedLabel t owner)
  match chars.dropWhile (· != ')') with
  | [] => failAt owner opening .unclosedList
  | _ :: run =>
      let start := opening + 1 + byteLength list + 1
      match letters owner.frame.required listed {} start run with
      | .error (offset, cause) => failAt owner offset cause
      | .ok [] => failAt owner start .emptyProof
      | .ok proof => return proof

def decode (t : Table) (owner : Statement) (text : String) : Decoded Proof :=
  let chars := text.toList
  match trimStart chars with
  | '(' :: rest => decodeCompressed t owner (byteLength (chars.takeWhile isBlank)) rest
  | _ => decodePlain t owner chars

def isCompressed (text : String) : Bool :=
  match trimStart text.toList with
  | '(' :: _ => true
  | _ => false

def decompress (t : Table) (owner : Statement) (text : String) : Decoded Proof :=
  if isCompressed text then decode t owner text else failAt owner 0 .notCompressed

end Proof

end Lemmata
