import CodeGraph.Text.Surrogate
import CodeGraph.Json.Value

/-!
# Reading JSON

The reader follows the grammar: blanks may stand around every token, a repeated member name takes
its last value, control characters may not stand in a string, and nothing may follow the value.
The names of the numbers that are not finite are read too. A reader step returns what is left of
the text; `fuel` bounds the number of steps, and the text's length is always enough. A reader may
have limits, and the first fault in the text is the one that counts.
-/

namespace CodeGraph.Json

/-- Why a text cannot be read. -/
inductive ReadFault where
  /-- It does not follow the grammar. -/
  | malformed
  /-- An integer has more digits than the reader takes. -/
  | longNumber
  /-- Arrays and objects stand inside of each other more deeply than the reader goes. -/
  | tooDeep
deriving DecidableEq, Repr

/-- What a reader takes. -/
structure Limits where
  /-- The most digits of an integer. -/
  digits : Option Nat := none
  /-- The most arrays and objects inside of each other. -/
  depth : Option Nat := none
deriving DecidableEq, Repr

namespace Limits

/-- The limits for files that come with a project. -/
def standard : Limits := { digits := some 4300, depth := some 990 }

/-- An integer has too many digits. -/
def excludesDigits (limits : Limits) (count : Nat) : Bool :=
  limits.digits.any (· < count)

/-- Too many arrays and objects stand inside of each other. -/
def excludesDepth (limits : Limits) (depth : Nat) : Bool :=
  limits.depth.any (· < depth)

end Limits

/-- The characters that may stand between tokens. -/
def isSpace (char : Char) : Bool :=
  char == ' ' || char == '\t' || char == '\n' || char == '\r'

/-- Drops the blanks in front. -/
def skipSpace (chars : List Char) : List Char :=
  chars.dropWhile isSpace

/-- The value of a hexadecimal digit. -/
def hexValue? (char : Char) : Option Nat :=
  if char.isDigit then some (char.toNat - 0x30)
  else if 'a' ≤ char && char ≤ 'f' then some (char.toNat - 0x57)
  else if 'A' ≤ char && char ≤ 'F' then some (char.toNat - 0x37)
  else none

/-- The code unit that four hexadecimal digits spell. -/
def unit? (first second third fourth : Char) : Option Nat := do
  let first ← hexValue? first
  let second ← hexValue? second
  let third ← hexValue? third
  let fourth ← hexValue? fourth
  return ((first * 16 + second) * 16 + third) * 16 + fourth

/-- The character of a high surrogate that no low one follows, by its offset among them. -/
def loneHigh (offset : Nat) : Char :=
  Text.charOfUnit (0xD800 + offset)

/-- The character behind a one-letter escape. -/
def escaped? (letter : Char) : Option Char :=
  if letter == '\x22' || letter == '\\' || letter == '/' then some letter
  else if letter == 'b' then some '\x08'
  else if letter == 'f' then some '\x0c'
  else if letter == 'n' then some '\n'
  else if letter == 'r' then some '\r'
  else if letter == 't' then some '\t'
  else none

/-- Reads the inside of a string literal up to its closing quote. Of the last code unit, `high` is
the offset that it gives a surrogate pair, if it may begin one. -/
def readString : (high : Option Nat) → List Char → Option (List Char × List Char)
  | _, [] => none
  | high, '\\' :: 'u' :: first :: second :: third :: fourth :: rest =>
      match unit? first second third fourth with
      | none => none
      | some unit =>
          match high with
          | some offset =>
              if 0xDC00 ≤ unit && unit ≤ 0xDFFF then
                (readString none rest).map fun (chars, left) =>
                  (Char.ofNat (0x10000 + offset * 0x400 + (unit - 0xDC00)) :: chars, left)
              else if 0xD800 ≤ unit && unit ≤ 0xDBFF then
                (readString (some (unit - 0xD800)) rest).map fun (chars, left) =>
                  (loneHigh offset :: chars, left)
              else
                (readString none rest).map fun (chars, left) =>
                  (loneHigh offset :: Text.charOfUnit unit :: chars, left)
          | none =>
              if 0xD800 ≤ unit && unit ≤ 0xDBFF then
                readString (some (unit - 0xD800)) rest
              else
                (readString none rest).map fun (chars, left) =>
                  (Text.charOfUnit unit :: chars, left)
  | high, '\\' :: letter :: rest =>
      match escaped? letter with
      | none => none
      | some char =>
          (readString none rest).map fun (chars, left) =>
            ((high.map loneHigh).toList ++ char :: chars, left)
  | high, char :: rest =>
      if char == '\x22' then
        some ((high.map loneHigh).toList, rest)
      else if char.toNat < 0x20 || char == '\\' then
        none
      else
        (readString none rest).map fun (chars, left) =>
          ((high.map loneHigh).toList ++ char :: chars, left)

/-- The number that a run of digits spells. -/
def digitsValue (digits : List Char) : Nat :=
  digits.foldl (fun value digit => value * 10 + (digit.toNat - 0x30)) 0

/-- The digits in front, and what follows them. -/
def spanDigits (chars : List Char) : List Char × List Char :=
  (chars.takeWhile Char.isDigit, chars.dropWhile Char.isDigit)

/-- The digits after a point, if a point and at least one digit stand here. -/
def readFraction (chars : List Char) : Option (List Char) × List Char :=
  match chars with
  | '.' :: rest =>
      match spanDigits rest with
      | ([], _) => (none, chars)
      | (digits, left) => (some digits, left)
  | _ => (none, chars)

/-- The exponent, if a mark and at least one digit stand here. -/
def readExponent (chars : List Char) : Option Int × List Char :=
  match chars with
  | mark :: rest =>
      if mark == 'e' || mark == 'E' then
        let (negative, digitsFrom) :=
          match rest with
          | '-' :: more => (true, more)
          | '+' :: more => (false, more)
          | _ => (false, rest)
        match spanDigits digitsFrom with
        | ([], _) => (none, chars)
        | (digits, left) =>
            let value : Int := digitsValue digits
            (some (if negative then -value else value), left)
      else
        (none, chars)
  | [] => (none, chars)

/-- What a reader step gives: a value and what is left of the text. -/
abbrev ReadResult (α : Type) := Except ReadFault (α × List Char)

/-- Reads a number: no zero stands in front of another digit. -/
def readNumber (limits : Limits) (negative : Bool) (chars : List Char) : ReadResult Json :=
  let whole :=
    match chars with
    | '0' :: rest => (['0'], rest)
    | _ => spanDigits chars
  match whole with
  | ([], _) => .error .malformed
  | (digits, rest) =>
      let (fraction, rest) := readFraction rest
      let (exponent, rest) := readExponent rest
      match fraction, exponent with
      | none, none =>
          if limits.excludesDigits digits.length then
            .error .longNumber
          else
            let value : Int := digitsValue digits
            .ok (.int (if negative then -value else value), rest)
      | _, _ =>
          let decimals := fraction.getD []
          .ok (.real (.finite negative (digitsValue (digits ++ decimals))
            (exponent.getD 0 - decimals.length)), rest)

/-- The words that stand for a value. -/
def literals : List (String × Json) :=
  [("null", .null), ("true", .bool true), ("false", .bool false), ("NaN", .real .undefined),
    ("Infinity", .real (.infinite false)), ("-Infinity", .real (.infinite true))]

/-- Reads a word or a number. -/
def readScalar (limits : Limits) (chars : List Char) : ReadResult Json :=
  match literals.find? fun (word, _) => word.toList.isPrefixOf chars with
  | some (word, value) => .ok (value, chars.drop word.length)
  | none =>
      match chars with
      | '-' :: rest => readNumber limits true rest
      | _ => readNumber limits false chars

mutual

/-- Reads a value whose first character comes next, `depth` arrays and objects being open. -/
def readValue (limits : Limits) : (fuel depth : Nat) → List Char → ReadResult Json
  | 0, _, _ => .error .malformed
  | fuel + 1, depth, chars =>
      match chars with
      | '\x22' :: rest =>
          match readString none rest with
          | some (value, left) => .ok (.text (String.ofList value), left)
          | none => .error .malformed
      | '[' :: rest =>
          if limits.excludesDepth (depth + 1) then
            .error .tooDeep
          else
            match skipSpace rest with
            | ']' :: left => .ok (.list [], left)
            | inside =>
                (readItems limits fuel (depth + 1) inside).map fun (items, left) =>
                  (.list items, left)
      | '\x7b' :: rest =>
          if limits.excludesDepth (depth + 1) then
            .error .tooDeep
          else
            match skipSpace rest with
            | '\x7d' :: left => .ok (.object [], left)
            | inside =>
                (readMembers limits fuel (depth + 1) inside).map fun (members, left) =>
                  (ofMembers members, left)
      | _ => readScalar limits chars

/-- Reads one or more items and the closing bracket. -/
def readItems (limits : Limits) : (fuel depth : Nat) → List Char → ReadResult (List Json)
  | 0, _, _ => .error .malformed
  | fuel + 1, depth, chars =>
      match readValue limits fuel depth chars with
      | .error fault => .error fault
      | .ok (item, rest) =>
          match skipSpace rest with
          | ']' :: left => .ok ([item], left)
          | ',' :: more =>
              (readItems limits fuel depth (skipSpace more)).map fun (items, left) =>
                (item :: items, left)
          | _ => .error .malformed

/-- Reads one or more members and the closing brace. -/
def readMembers (limits : Limits) :
    (fuel depth : Nat) → List Char → ReadResult (List (String × Json))
  | 0, _, _ => .error .malformed
  | fuel + 1, depth, chars =>
      match chars with
      | '\x22' :: rest =>
          match readString none rest with
          | none => .error .malformed
          | some (name, rest) =>
              match skipSpace rest with
              | ':' :: rest =>
                  match readValue limits fuel depth (skipSpace rest) with
                  | .error fault => .error fault
                  | .ok (value, rest) =>
                      match skipSpace rest with
                      | '\x7d' :: left => .ok ([(String.ofList name, value)], left)
                      | ',' :: more =>
                          (readMembers limits fuel depth (skipSpace more)).map
                            fun (members, left) => ((String.ofList name, value) :: members, left)
                      | _ => .error .malformed
              | _ => .error .malformed
      | _ => .error .malformed

end

/-- Reads a text that is one value, blanks around it allowed. -/
def parseChars (limits : Limits) (chars : List Char) : Except ReadFault Json :=
  match readValue limits (chars.length + 1) 0 (skipSpace chars) with
  | .ok (value, rest) => if (skipSpace rest).isEmpty then .ok value else .error .malformed
  | .error fault => .error fault

/-- Reads a JSON text within limits. -/
def parse (limits : Limits) (text : String) : Except ReadFault Json :=
  parseChars limits text.toList

/-- Reads a JSON text. -/
def parse? (text : String) : Option Json :=
  (parse {} text).toOption

end CodeGraph.Json
