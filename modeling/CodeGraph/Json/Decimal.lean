/-!
# Decimal numbers and the doubles they stand for

A JSON number with a point or an exponent stands for the double nearest to it. Such a number is
written with the fewest digits that read back as the same double: for one, two, and up to
seventeen digits the two neighbours of the value on that decimal grid are tried, and the first
grid with a hit wins. All arithmetic is on natural numbers.
-/

namespace CodeGraph

/-- A number written with a point or an exponent. -/
inductive Decimal where
  /-- The value `digits * 10 ^ exponent`, with a sign. -/
  | finite (negative : Bool) (digits : Nat) (exponent : Int)
  /-- Too large to be finite. -/
  | infinite (negative : Bool)
  /-- No number. -/
  | undefined
deriving DecidableEq, Repr

namespace Decimal

/-- A positive fraction of two natural numbers. -/
structure Ratio where
  /-- Numerator. -/
  num : Nat
  /-- Denominator, positive. -/
  den : Nat

/-- `digits * 10 ^ exponent` as a fraction. -/
def ratio (digits : Nat) (exponent : Int) : Ratio :=
  if 0 ≤ exponent then ⟨digits * Nat.pow 10 exponent.toNat, 1⟩
  else ⟨digits, Nat.pow 10 (-exponent).toNat⟩

/-- `mantissa * 2 ^ scale` as a fraction. -/
def binaryRatio (mantissa : Nat) (scale : Int) : Ratio :=
  if 0 ≤ scale then ⟨mantissa * Nat.pow 2 scale.toNat, 1⟩
  else ⟨mantissa, Nat.pow 2 (-scale).toNat⟩

/-- The quotient rounded to the nearest integer, a half to the even neighbour. -/
def roundDiv (num den : Nat) : Nat :=
  let quotient := num / den
  let rest := 2 * (num % den)
  if rest < den then quotient
  else if den < rest then quotient + 1
  else if quotient % 2 == 0 then quotient else quotient + 1

/-- The significand of a double is smaller than this: it has 53 bits. -/
def significandLimit : Nat := 9007199254740992

/-- The binary exponent of the grid that a fraction is rounded to: the significand has 53 bits
unless the value is below the normal range. -/
def gridScale (value : Ratio) : Int :=
  let estimate : Int := (value.num.log2 : Int) - (value.den.log2 : Int)
  let fits (scale : Int) : Bool :=
    let grid := binaryRatio 1 scale
    value.num * grid.den < significandLimit * grid.num * value.den
  let scale := if fits (estimate - 53) then estimate - 53
    else if fits (estimate - 52) then estimate - 52 else estimate - 51
  max scale (-1074)

/-- The double nearest to a positive fraction, as significand and binary exponent; nothing when
it is too large. -/
def nearest? (value : Ratio) : Option (Nat × Int) :=
  let scale := gridScale value
  let grid := binaryRatio 1 scale
  let significand := roundDiv (value.num * grid.den) (value.den * grid.num)
  if significandLimit ≤ significand then
    if 971 ≤ scale then none else some (significand / 2, scale + 1)
  else if 971 < scale then none
  else some (significand, scale)

/-- The double zero. -/
def zeroDouble : Nat × Int := (0, -1074)

/-- The double nearest to `digits * 10 ^ exponent`; nothing when it is too large. Where the
number of digits and the exponent alone decide, the power is not computed: doubles are smaller
than `10 ^ 309`, and what is smaller than `10 ^ (-324)` rounds to zero. -/
def double? (digits : Nat) (exponent : Int) : Option (Nat × Int) :=
  let magnitude : Int := (toString digits).length + exponent
  if digits == 0 || magnitude < -324 then some zeroDouble
  else if 310 < magnitude then none
  else nearest? (ratio digits exponent)

/-- The number of decimal digits before the point, or the negated number of zeros after it. -/
def decimalPoint (value : Ratio) : Int :=
  let digits (number : Nat) : Int := (toString number).length
  let estimate := digits value.num - digits value.den
  let power := ratio 1 estimate
  if power.num * value.den ≤ value.num * power.den then estimate + 1 else estimate

/-- The first decimal on the grid of `count` digits that reads back as the double. -/
def onGrid? (double : Nat × Int) (count : Nat) : Option (Nat × Int) :=
  let value := binaryRatio double.1 double.2
  let exponent := decimalPoint value - count
  let grid := ratio 1 exponent
  let num := value.num * grid.den
  let den := value.den * grid.num
  let below := num / den
  let nearer := roundDiv num den
  let other := if nearer == below then below + 1 else below
  [nearer, other].findSome? fun digits =>
    if digits != 0 && nearest? (ratio digits exponent) == some double then
      some (digits, exponent)
    else
      none

/-- Drops the zeros at the end of the digits; the first argument bounds their number. -/
def dropZeros : Nat → Nat × Int → Nat × Int
  | 0, number => number
  | bound + 1, (digits, exponent) =>
      if digits != 0 && digits % 10 == 0 then dropZeros bound (digits / 10, exponent + 1)
      else (digits, exponent)

/-- The fewest digits that read back as the double. -/
def shortest (double : Nat × Int) : Nat × Int :=
  let found := ((List.range 17).findSome? fun index => onGrid? double (index + 1)).getD double
  dropZeros 20 found

/-- Digits and the place of the point as text: positional from 0.0001 up to sixteen digits before
the point, with an exponent of at least two digits otherwise. -/
def layout (digits : Nat) (exponent : Int) : String :=
  let text := toString digits
  let point : Int := text.length + exponent
  if -4 < point && point ≤ 16 then
    if point ≤ 0 then
      "0." ++ String.ofList (List.replicate (-point).toNat '0') ++ text
    else if (text.length : Int) ≤ point then
      text ++ String.ofList (List.replicate (point - text.length).toNat '0') ++ ".0"
    else
      String.ofList (text.toList.take point.toNat) ++ "."
        ++ String.ofList (text.toList.drop point.toNat)
  else
    let power := point - 1
    let digitsOfPower := toString power.natAbs
    let padded := if digitsOfPower.length < 2 then "0" ++ digitsOfPower else digitsOfPower
    let fraction := String.ofList (text.toList.drop 1)
    String.ofList (text.toList.take 1) ++ (if fraction.isEmpty then "" else "." ++ fraction)
      ++ "e" ++ (if power < 0 then "-" else "+") ++ padded

/-- The number as text, with the fewest digits that read back. The three arguments spell what is
not finite: infinity, its negative, and no number. -/
def render (infinity minusInfinity noNumber : String) : Decimal → String
  | .undefined => noNumber
  | .infinite negative => if negative then minusInfinity else infinity
  | .finite negative digits exponent =>
      let sign := if negative then "-" else ""
      if digits == 0 then
        sign ++ "0.0"
      else
        match double? digits exponent with
        | none => if negative then minusInfinity else infinity
        | some (0, _) => sign ++ "0.0"
        | some double =>
            let (shown, place) := shortest double
            sign ++ layout shown place

/-- The number rounds to zero. -/
def isZero : Decimal → Bool
  | .finite _ digits exponent =>
      (double? digits exponent).any fun double => double.1 == 0
  | _ => false

end Decimal

end CodeGraph
