/-!
# The SHA-1 digest

Element ids are cut from the SHA-1 digest of a text that names the element. The digest is written
as the standard states it: the padded message is cut into blocks of sixteen words, and each block
turns a state of five words through eighty rounds.
-/

namespace CodeGraph.Digest

/-- The five words that the digest carries from block to block. -/
structure Sha1State where
  /-- First word. -/
  a : UInt32
  /-- Second word. -/
  b : UInt32
  /-- Third word. -/
  c : UInt32
  /-- Fourth word. -/
  d : UInt32
  /-- Fifth word. -/
  e : UInt32
deriving DecidableEq, Repr

namespace Sha1State

/-- The state before the first block. -/
def initial : Sha1State :=
  ⟨0x67452301, 0xEFCDAB89, 0x98BADCFE, 0x10325476, 0xC3D2E1F0⟩

/-- Wordwise sum. -/
def add (left right : Sha1State) : Sha1State :=
  ⟨left.a + right.a, left.b + right.b, left.c + right.c, left.d + right.d, left.e + right.e⟩

/-- The words in order. -/
def toWords (state : Sha1State) : List UInt32 :=
  [state.a, state.b, state.c, state.d, state.e]

end Sha1State

/-- Rotation to the left by `count` bits, where `0 < count < 32`. -/
def rotateLeft (word : UInt32) (count : UInt32) : UInt32 :=
  (word <<< count) ||| (word >>> (32 - count))

/-- The big-endian bytes of the low 64 bits of a number. -/
def lengthBytes (value : Nat) : List UInt8 :=
  (List.range 8).map fun index => UInt8.ofNat (value / Nat.pow 256 (7 - index))

/-- The message with a one bit, zeros up to eight bytes short of a block end, and its length in
bits. -/
def pad (message : List UInt8) : List UInt8 :=
  let zeros := (119 - message.length % 64) % 64
  message ++ 0x80 :: List.replicate zeros 0 ++ lengthBytes (message.length * 8)

/-- Big-endian words of a byte sequence; fewer than four bytes at the end are dropped. -/
def toWords : List UInt8 → List UInt32
  | first :: second :: third :: fourth :: rest =>
      (first.toUInt32 <<< 24 ||| second.toUInt32 <<< 16 ||| third.toUInt32 <<< 8
        ||| fourth.toUInt32) :: toWords rest
  | _ => []

/-- The next word of the schedule, from the last sixteen in reverse order. -/
def nextWord (recent : List UInt32) : UInt32 :=
  match recent.drop 2 with
  | third :: rest =>
      match rest.drop 4 with
      | eighth :: rest =>
          match rest.drop 5 with
          | fourteenth :: rest =>
              match rest.drop 1 with
              | sixteenth :: _ => rotateLeft (third ^^^ eighth ^^^ fourteenth ^^^ sixteenth) 1
              | [] => 0
          | [] => 0
      | [] => 0
  | [] => 0

/-- Extends the schedule by `count` words; the words so far are in reverse order. -/
def extend : Nat → List UInt32 → List UInt32
  | 0, words => words
  | count + 1, words => extend count (nextWord words :: words)

/-- The eighty words of a block's schedule. -/
def schedule (block : List UInt32) : List UInt32 :=
  (extend 64 block.reverse).reverse

/-- The mixing function and the constant of round `index`. -/
def roundTerms (index : Nat) (state : Sha1State) : UInt32 × UInt32 :=
  let { b, c, d, .. } := state
  if index < 20 then ((b &&& c) ||| (~~~b &&& d), 0x5A827999)
  else if index < 40 then (b ^^^ c ^^^ d, 0x6ED9EBA1)
  else if index < 60 then ((b &&& c) ||| (b &&& d) ||| (c &&& d), 0x8F1BBCDC)
  else (b ^^^ c ^^^ d, 0xCA62C1D6)

/-- One round. -/
def round (index : Nat) (word : UInt32) (state : Sha1State) : Sha1State :=
  let (mixed, constant) := roundTerms index state
  { a := rotateLeft state.a 5 + mixed + state.e + constant + word
    b := state.a
    c := rotateLeft state.b 30
    d := state.c
    e := state.d }

/-- The rounds from `index` on, one for each word. -/
def rounds (index : Nat) (state : Sha1State) : List UInt32 → Sha1State
  | [] => state
  | word :: words => rounds (index + 1) (round index word state) words

/-- The state after one block. -/
def absorb (state : Sha1State) (block : List UInt32) : Sha1State :=
  state.add (rounds 0 state (schedule block))

/-- The state after `count` blocks of sixteen words. -/
def absorbBlocks : Nat → Sha1State → List UInt32 → Sha1State
  | 0, state, _ => state
  | count + 1, state, words => absorbBlocks count (absorb state (words.take 16)) (words.drop 16)

/-- The SHA-1 digest of a message as five words. -/
def sha1 (message : List UInt8) : List UInt32 :=
  let words := toWords (pad message)
  (absorbBlocks (words.length / 16) .initial words).toWords

/-- One hexadecimal digit. -/
def hexDigit (value : Nat) : Char :=
  if value < 10 then Char.ofNat (0x30 + value) else Char.ofNat (0x57 + value)

/-- The eight hexadecimal digits of a word. -/
def hexWord (word : UInt32) : List Char :=
  (List.range 8).map fun index => hexDigit (word.toNat / Nat.pow 16 (7 - index) % 16)

/-- The SHA-1 digest of a text's UTF-8 bytes, in hexadecimal. -/
def sha1Hex (text : String) : String :=
  String.ofList ((sha1 text.toUTF8.toList).flatMap hexWord)

end CodeGraph.Digest
