import CodeGraph.Text.Blank

/-!
# Reading integers

A numeral is an optional sign and a run of decimal digits of any script, where single underscores
may stand between two digits; blanks around it do not count. It has a bounded number of digits.
-/

namespace CodeGraph.Text

/-- The zero of every decimal digit block above U+007F; nine further digits follow each. -/
def digitZeros : List Nat := [
  0x660, 0x6F0, 0x7C0, 0x966, 0x9E6, 0xA66, 0xAE6, 0xB66, 0xBE6, 0xC66, 0xCE6, 0xD66, 0xDE6,
  0xE50, 0xED0, 0xF20, 0x1040, 0x1090, 0x17E0, 0x1810, 0x1946, 0x19D0, 0x1A80, 0x1A90, 0x1B50,
  0x1BB0, 0x1C40, 0x1C50, 0xA620, 0xA8D0, 0xA900, 0xA9D0, 0xA9F0, 0xAA50, 0xABF0, 0xFF10, 0x104A0,
  0x10D30, 0x11066, 0x110F0, 0x11136, 0x111D0, 0x112F0, 0x11450, 0x114D0, 0x11650, 0x116C0,
  0x11730, 0x118E0, 0x11950, 0x11C50, 0x11D50, 0x11DA0, 0x16A60, 0x16AC0, 0x16B50, 0x1D7CE,
  0x1D7D8, 0x1D7E2, 0x1D7EC, 0x1D7F6, 0x1E140, 0x1E2F0, 0x1E950, 0x1FBF0]

/-- The value of a decimal digit of any script. -/
def digitValue? (char : Char) : Option Nat :=
  if char.toNat < 0x80 then
    if char.isDigit then some (char.toNat - 0x30) else none
  else
    (digitZeros.find? fun base => base ≤ char.toNat && char.toNat ≤ base + 9).map (char.toNat - ·)

/-- Reads the digits after `value`; `bare` says that an underscore may not come next. -/
def readDigits (value : Nat) (bare : Bool) : List Char → Option Nat
  | [] => if bare then none else some value
  | char :: rest =>
      if char == '_' then
        if bare then none else readDigits value true rest
      else
        match digitValue? char with
        | some digit => readDigits (value * 10 + digit) false rest
        | none => none

/-- The most digits of a numeral. -/
def maxDigits : Nat := 4300

/-- Reads an unsigned numeral. -/
def readNumeral? (chars : List Char) : Option Nat :=
  if maxDigits < chars.countP (· != '_') then none else readDigits 0 true chars

/-- The integer that a text spells, if it spells one. -/
def readInteger? (text : String) : Option Int :=
  match trimBlank text.toList with
  | '-' :: digits => (readNumeral? digits).map fun value => -(value : Int)
  | '+' :: digits => (readNumeral? digits).map fun value => (value : Int)
  | digits => (readNumeral? digits).map fun value => (value : Int)

end CodeGraph.Text
