import Lemmata.Table

/-!
Fingerprints of statements. The digest of a statement covers its own content and the digest of
the statement before it, and so everything that was declared up to it. The digest is MD5: a message is
padded to blocks of sixteen words, and every block is mixed into four registers in 64 rounds.
-/

set_option autoImplicit false

namespace Lemmata.Digest

abbrev Bytes := List UInt8

structure Registers where
  a : UInt32
  b : UInt32
  c : UInt32
  d : UInt32
deriving DecidableEq, Repr

def initial : Registers := ⟨0x67452301, 0xefcdab89, 0x98badcfe, 0x10325476⟩

-- The constants of the rounds: the sines of 1 to 64 as binary fractions.
def sines : Array UInt32 := #[
  0xd76aa478, 0xe8c7b756, 0x242070db, 0xc1bdceee, 0xf57c0faf, 0x4787c62a,
  0xa8304613, 0xfd469501, 0x698098d8, 0x8b44f7af, 0xffff5bb1, 0x895cd7be,
  0x6b901122, 0xfd987193, 0xa679438e, 0x49b40821, 0xf61e2562, 0xc040b340,
  0x265e5a51, 0xe9b6c7aa, 0xd62f105d, 0x02441453, 0xd8a1e681, 0xe7d3fbc8,
  0x21e1cde6, 0xc33707d6, 0xf4d50d87, 0x455a14ed, 0xa9e3e905, 0xfcefa3f8,
  0x676f02d9, 0x8d2a4c8a, 0xfffa3942, 0x8771f681, 0x6d9d6122, 0xfde5380c,
  0xa4beea44, 0x4bdecfa9, 0xf6bb4b60, 0xbebfbc70, 0x289b7ec6, 0xeaa127fa,
  0xd4ef3085, 0x04881d05, 0xd9d4d039, 0xe6db99e5, 0x1fa27cf8, 0xc4ac5665,
  0xf4292244, 0x432aff97, 0xab9423a7, 0xfc93a039, 0x655b59c3, 0x8f0ccc92,
  0xffeff47d, 0x85845dd1, 0x6fa87e4f, 0xfe2ce6e0, 0xa3014314, 0x4e0811a1,
  0xf7537e82, 0xbd3af235, 0x2ad7d2bb, 0xeb86d391]

def rotation (round : Nat) : UInt32 :=
  let shifts : List UInt32 :=
    if round < 16 then [7, 12, 17, 22]
    else if round < 32 then [5, 9, 14, 20]
    else if round < 48 then [4, 11, 16, 23]
    else [6, 10, 15, 21]
  shifts.getD (round % 4) 0

def rotateLeft (x amount : UInt32) : UInt32 := (x <<< amount) ||| (x >>> (32 - amount))

def wordIndex (round : Nat) : Nat :=
  if round < 16 then round
  else if round < 32 then (5 * round + 1) % 16
  else if round < 48 then (3 * round + 5) % 16
  else (7 * round) % 16

def mix (round : Nat) (r : Registers) : UInt32 :=
  if round < 16 then (r.b &&& r.c) ||| (~~~r.b &&& r.d)
  else if round < 32 then (r.d &&& r.b) ||| (~~~r.d &&& r.c)
  else if round < 48 then r.b ^^^ r.c ^^^ r.d
  else r.c ^^^ (r.b ||| ~~~r.d)

def round (block : Array UInt32) (r : Registers) (number : Nat) : Registers :=
  let sum := r.a + mix number r + sines.getD number 0 + block.getD (wordIndex number) 0
  ⟨r.d, r.b + rotateLeft sum (rotation number), r.b, r.c⟩

def addBlock (r : Registers) (block : Array UInt32) : Registers :=
  let mixed := (List.range 64).foldl (round block) r
  ⟨r.a + mixed.a, r.b + mixed.b, r.c + mixed.c, r.d + mixed.d⟩

def littleEndian : Nat → Nat → Bytes
  | 0, _ => []
  | count + 1, n => UInt8.ofNat (n % 256) :: littleEndian count (n / 256)

-- One set bit, zeros up to the last eight bytes of a block, and the length in bits.
def pad (message : Bytes) : Bytes :=
  message ++ 0x80 :: List.replicate ((119 - message.length % 64) % 64) 0
    ++ littleEndian 8 (message.length * 8)

def wordsOf : Bytes → List UInt32
  | b0 :: b1 :: b2 :: b3 :: rest =>
      (b0.toUInt32 ||| (b1.toUInt32 <<< 8) ||| (b2.toUInt32 <<< 16) ||| (b3.toUInt32 <<< 24))
        :: wordsOf rest
  | _ => []

def addWords (r : Registers) (message : List UInt32) : Registers :=
  match message with
  | [] => r
  | first :: rest => addWords (addBlock r ((first :: rest).take 16).toArray) (rest.drop 15)
termination_by message.length
decreasing_by simp only [List.length_drop, List.length_cons]; omega

def md5 (message : Bytes) : Bytes :=
  let r := addWords initial (wordsOf (pad message))
  [r.a, r.b, r.c, r.d].flatMap fun word => littleEndian 4 word.toNat

def hex (bytes : Bytes) : String :=
  String.ofList (bytes.flatMap fun byte =>
    [Nat.digitChar (byte.toNat / 16), Nat.digitChar (byte.toNat % 16)])

end Lemmata.Digest

namespace Lemmata

open Digest

def textBytes (text : String) : Bytes := text.toUTF8.toList

def idBytes (ids : List Int) : Bytes := ids.flatMap fun id => littleEndian 8 id.toNat

def Statement.content (t : Table) (s : Statement) : Bytes :=
  textBytes s.label ++ [0] ++ textBytes s.kind.name ++ [0] ++ textBytes (t.render s.formula) ++ [0]
    ++ idBytes s.frame.required ++ [0] ++ idBytes s.frame.optional ++ [0]
    ++ (s.frame.pairs.flatMap fun p =>
        textBytes (t.symbolName p.a) ++ textBytes " " ++ textBytes (t.symbolName p.b) ++ [0])
    ++ textBytes s.proof

-- The digests of consecutive statements, each chained to the one before.
def chainDigests (t : Table) : Bytes → List Statement → List Bytes
  | _, [] => []
  | before, s :: rest =>
      let digest := md5 (before ++ s.content t)
      digest :: chainDigests t digest rest

def Table.digests (t : Table) : List String :=
  (chainDigests t (List.replicate 16 0) t.statements).map hex

def fingerprint (digest : String) (checkDisjoint : Bool) : String :=
  digest ++ "/dv=" ++ if checkDisjoint then "true" else "false"

end Lemmata
