/-!
# Reading UTF-8

Source files are bytes, and a byte sequence need not be UTF-8. The lenient reader replaces each
maximal ill-formed stretch by U+FFFD: the longest start of a well-formed character that stands
there, or else a single byte. The strict reader refuses such input.
-/

namespace CodeGraph.Text

/-- What a reader stands in front of. -/
inductive Utf8Step where
  /-- A well-formed character of `width` bytes. -/
  | char (value : Char) (width : Nat)
  /-- An ill-formed stretch of `width` bytes. -/
  | illFormed (width : Nat)
deriving DecidableEq, Repr

/-- The character that stands for an ill-formed stretch. -/
def replacementChar : Char := '\uFFFD'

/-- The byte continues a character. -/
def isContinuation (byte : UInt8) : Bool :=
  0x80 ≤ byte && byte ≤ 0xBF

/-- The low six bits of a continuation byte. -/
def payload (byte : UInt8) : Nat :=
  byte.toNat % 64

/-- The second byte of a character may be `byte` after the lead byte `lead`: this rules out
overlong forms, surrogates and code points above U+10FFFF. -/
def admitsSecond (lead byte : UInt8) : Bool :=
  if lead == 0xE0 then 0xA0 ≤ byte && byte ≤ 0xBF
  else if lead == 0xED then 0x80 ≤ byte && byte ≤ 0x9F
  else if lead == 0xF0 then 0x90 ≤ byte && byte ≤ 0xBF
  else if lead == 0xF4 then 0x80 ≤ byte && byte ≤ 0x8F
  else isContinuation byte

/-- Looks at the front of a non-empty byte sequence. -/
def utf8Step (lead : UInt8) (rest : List UInt8) : Utf8Step :=
  if lead < 0x80 then
    .char (Char.ofNat lead.toNat) 1
  else if lead < 0xC2 || 0xF4 < lead then
    .illFormed 1
  else
    match rest with
    | [] => .illFormed 1
    | second :: rest =>
        if !admitsSecond lead second then
          .illFormed 1
        else if lead < 0xE0 then
          .char (Char.ofNat (lead.toNat % 32 * 64 + payload second)) 2
        else
          match rest with
          | [] => .illFormed 2
          | third :: rest =>
              if !isContinuation third then
                .illFormed 2
              else if lead < 0xF0 then
                .char (Char.ofNat
                  (lead.toNat % 16 * 4096 + payload second * 64 + payload third)) 3
              else
                match rest with
                | [] => .illFormed 3
                | fourth :: _ =>
                    if !isContinuation fourth then
                      .illFormed 3
                    else
                      .char (Char.ofNat (lead.toNat % 8 * 262144 + payload second * 4096
                        + payload third * 64 + payload fourth)) 4

/-- Reads bytes with replacement; the first `skip` bytes belong to a stretch already read. -/
def decodeFrom : Nat → List UInt8 → List Char
  | _, [] => []
  | skip + 1, _ :: rest => decodeFrom skip rest
  | 0, lead :: rest =>
      match utf8Step lead rest with
      | .char value width => value :: decodeFrom (width - 1) rest
      | .illFormed width => replacementChar :: decodeFrom (width - 1) rest

/-- Reads bytes strictly; the first `skip` bytes belong to a character already read. -/
def decodeStrictFrom : Nat → List UInt8 → Option (List Char)
  | _, [] => some []
  | skip + 1, _ :: rest => decodeStrictFrom skip rest
  | 0, lead :: rest =>
      match utf8Step lead rest with
      | .char value width => (decodeStrictFrom (width - 1) rest).map (value :: ·)
      | .illFormed _ => none

/-- The text of a byte sequence, ill-formed stretches replaced. -/
def decodeLenient (bytes : List UInt8) : String :=
  String.ofList (decodeFrom 0 bytes)

end CodeGraph.Text
