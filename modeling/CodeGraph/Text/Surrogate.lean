/-!
# Lone surrogates

A text format with sixteen-bit escapes can spell half of a surrogate pair that stands alone. No
character stands for such a unit, so a private one does, which lies a fixed distance above it.
-/

namespace CodeGraph.Text

/-- The distance between a lone surrogate and the private character that stands for it. -/
def surrogateDistance : Nat := 0x100000

/-- The unit is half of a surrogate pair. -/
def isSurrogateUnit (unit : Nat) : Bool :=
  0xD800 ≤ unit && unit ≤ 0xDFFF

/-- The character that stands for a code unit on its own. -/
def charOfUnit (unit : Nat) : Char :=
  Char.ofNat (if isSurrogateUnit unit then surrogateDistance + unit else unit)

/-- The lone surrogate that a character stands for. -/
def loneSurrogate? (char : Char) : Option Nat :=
  if surrogateDistance ≤ char.toNat && isSurrogateUnit (char.toNat - surrogateDistance) then
    some (char.toNat - surrogateDistance)
  else
    none

/-- The text has an encoding in bytes: no character of it stands for a lone surrogate. -/
def isEncodable (text : String) : Bool :=
  text.toList.all fun char => (loneSurrogate? char).isNone

/-- No bytes stand for the character in the name of a file. The low surrogates from 0xDC80 to 0xDCFF
do have one byte each. -/
def isUnencodable (char : Char) : Bool :=
  (loneSurrogate? char).any fun unit => unit < 0xDC80 || 0xDCFF < unit

end CodeGraph.Text
