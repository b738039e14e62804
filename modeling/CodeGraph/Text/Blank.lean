/-!
# Blanks

A blank is a character that separates words: spaces of every width, tabs, line ends, and the four
information separators. Trimming and the collapsing of runs of blanks rest on this one class.
-/

namespace CodeGraph.Text

/-- Closed intervals of the code points that are blank, in increasing order. -/
def blankIntervals : List (Nat × Nat) :=
  [(0x09, 0x0D), (0x1C, 0x20), (0x85, 0x85), (0xA0, 0xA0), (0x1680, 0x1680), (0x2000, 0x200A),
    (0x2028, 0x2029), (0x202F, 0x202F), (0x205F, 0x205F), (0x3000, 0x3000)]

/-- The character separates words. -/
def isBlank (char : Char) : Bool :=
  blankIntervals.any fun (low, high) => low ≤ char.toNat && char.toNat ≤ high

/-- Drops the characters at both ends that satisfy a test. -/
def trimWhile (test : Char → Bool) (chars : List Char) : List Char :=
  ((chars.dropWhile test).reverse.dropWhile test).reverse

/-- Drops the blanks at both ends. -/
def trimBlank (chars : List Char) : List Char :=
  trimWhile isBlank chars

/-- The text without the blanks at its ends. -/
def trim (text : String) : String :=
  String.ofList (trimBlank text.toList)

/-- The text without the characters at its ends that are among `unwanted`. -/
def trimAll (unwanted : List Char) (text : String) : String :=
  String.ofList (trimWhile (unwanted.contains ·) text.toList)

/-- The text holds nothing but blanks. -/
def isAllBlank (text : String) : Bool :=
  text.toList.all isBlank

end CodeGraph.Text
