/-!
# Bytes as letters

Three bytes are written as four characters of an alphabet of sixty-four, and padding fills the
last group. Characters outside of the alphabet do not count.
-/

namespace CodeGraph.Text

/-- The six bits that a character stands for. -/
def sextet? (char : Char) : Option Nat :=
  if 'A' ≤ char ∧ char ≤ 'Z' then some (char.toNat - 65)
  else if 'a' ≤ char ∧ char ≤ 'z' then some (char.toNat - 97 + 26)
  else if '0' ≤ char ∧ char ≤ '9' then some (char.toNat - 48 + 52)
  else if char = '+' then some 62
  else if char = '/' then some 63
  else none

/-- The bytes of a list of sextets; what a last group of one lacks is dropped. -/
def bytesOfSextets : List Nat → List UInt8
  | first :: second :: third :: fourth :: rest =>
      .ofNat (first * 4 + second / 16) :: .ofNat (second % 16 * 16 + third / 4)
        :: .ofNat (third % 4 * 64 + fourth) :: bytesOfSextets rest
  | [first, second, third] =>
      [.ofNat (first * 4 + second / 16), .ofNat (second % 16 * 16 + third / 4)]
  | [first, second] => [.ofNat (first * 4 + second / 16)]
  | _ => []

/-- The bytes that a text of letters stands for. -/
def bytesOfLetters (text : String) : ByteArray :=
  ⟨(bytesOfSextets (text.toList.filterMap sextet?)).toArray⟩

end CodeGraph.Text
