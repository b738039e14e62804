import CodeGraph.Text.Blank

/-!
# Pieces of a text

Cutting a text at separators, joining pieces, searching and replacing. Everything is defined on
lists of characters by recursion on the list, with a form on strings beside it.
-/

namespace CodeGraph.Text

/-- The stretches between the characters that satisfy `stop`; there is always at least one. -/
def cut (stop : Char → Bool) : List Char → List (List Char)
  | [] => [[]]
  | char :: rest =>
      if stop char then
        [] :: cut stop rest
      else
        match cut stop rest with
        | [] => [[char]]
        | piece :: pieces => (char :: piece) :: pieces

@[simp]
theorem cut_nil (stop : Char → Bool) : cut stop [] = [[]] := rfl

theorem cut_ne_nil (stop : Char → Bool) (chars : List Char) : cut stop chars ≠ [] := by
  cases chars with
  | nil => simp
  | cons char rest =>
      rw [cut]
      split
      · simp
      · split <;> simp

/-- The stretches of a text between the occurrences of a separator. -/
def split (separator : Char) (text : String) : List String :=
  (cut (· == separator) text.toList).map String.ofList

/-- The text before the first separator, or all of it. -/
def firstPiece (separator : Char) (text : String) : String :=
  (split separator text).headD text

/-- The text after the last separator, or all of it. -/
def lastPiece (separator : Char) (text : String) : String :=
  (split separator text).getLastD text

/-- The text before the last separator; nothing when there is none. -/
def beforeLast (separator : Char) (text : String) : String :=
  String.intercalate (String.singleton separator) (split separator text).dropLast

/-- The words of a text: its stretches without blanks. -/
def words (text : String) : List String :=
  ((cut isBlank text.toList).filter fun piece => !piece.isEmpty).map String.ofList

/-- The words of a text with one space between two of them. -/
def collapse (text : String) : String :=
  String.intercalate " " (words text)

/-- The list begins with `start`. -/
def startsWith (text start : String) : Bool :=
  start.toList.isPrefixOf text.toList

/-- The text ends in `tail`. -/
def endsWith (text tail : String) : Bool :=
  tail.toList.isSuffixOf text.toList

/-- All suffixes of a list, the longest first. -/
def suffixes {α : Type} : List α → List (List α)
  | [] => [[]]
  | item :: rest => (item :: rest) :: suffixes rest

/-- `part` occurs somewhere in the text. -/
def contains (text part : String) : Bool :=
  (suffixes text.toList).any fun suffix => part.toList.isPrefixOf suffix

/-- Replaces from left to right each occurrence of a non-empty `pattern` that does not overlap an
earlier one; the first `skip` characters belong to an occurrence already replaced. -/
def replaceFrom (pattern replacement : List Char) : Nat → List Char → List Char
  | _, [] => []
  | skip + 1, _ :: rest => replaceFrom pattern replacement skip rest
  | 0, char :: rest =>
      if pattern.isPrefixOf (char :: rest) then
        replacement ++ replaceFrom pattern replacement (pattern.length - 1) rest
      else
        char :: replaceFrom pattern replacement 0 rest

/-- Replaces each occurrence of a non-empty pattern. -/
def replace (pattern replacement text : String) : String :=
  String.ofList (replaceFrom pattern.toList replacement.toList 0 text.toList)

/-- Lines end in a line feed alone: a carriage return, with a line feed after it or without, is
read as one. -/
def unifyLineEnds : List Char → List Char
  | [] => []
  | '\r' :: '\n' :: rest => '\n' :: unifyLineEnds rest
  | '\r' :: rest => '\n' :: unifyLineEnds rest
  | char :: rest => char :: unifyLineEnds rest

end CodeGraph.Text
