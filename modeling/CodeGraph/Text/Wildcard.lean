import CodeGraph.Text.Pieces

/-!
# Wildcard patterns

A pattern is a list of parts: a star stands for any stretch of characters, a question mark for
one, brackets for one out of a set, and every other character for itself. A pattern has to match
a whole text, and a star also crosses slashes.
-/

namespace CodeGraph.Text

/-- The characters that a bracket part admits. -/
structure CharSet where
  /-- The set is what the members and ranges leave out. -/
  negated : Bool
  /-- Characters listed one by one. -/
  members : List Char
  /-- Closed ranges of characters. -/
  ranges : List (Char × Char)
deriving DecidableEq, Repr

/-- One part of a wildcard pattern. -/
inductive WildcardPart where
  /-- Any stretch of characters, also the empty one. -/
  | star
  /-- Any one character. -/
  | one
  /-- One character out of a set. -/
  | set (chars : CharSet)
  /-- This character itself. -/
  | char (value : Char)
deriving DecidableEq, Repr

namespace CharSet

/-- The set admits this character. -/
def admits (set : CharSet) (char : Char) : Bool :=
  let listed :=
    set.members.contains char || set.ranges.any fun (low, high) => low ≤ char && char ≤ high
  listed != set.negated

/-- Cuts the inside of a bracket at the hyphens that form ranges: a range takes the last character
of the stretch before the hyphen and the first of the one after it, so each inner stretch has
at least two characters. `gap` counts the characters that cannot be such a hyphen. -/
def stretches : Nat → List Char → List (List Char)
  | _, [] => [[]]
  | gap + 1, char :: rest =>
      match stretches gap rest with
      | [] => [[char]]
      | stretch :: more => (char :: stretch) :: more
  | 0, char :: rest =>
      if char == '-' then
        [] :: stretches 2 rest
      else
        match stretches 0 rest with
        | [] => [[char]]
        | stretch :: more => (char :: stretch) :: more

/-- Hyphens at the end of a bracket stand for themselves. -/
def closeStretches (stretches : List (List Char)) : List (List Char) :=
  match stretches.reverse with
  | [] :: last :: earlier => ((last ++ ['-']) :: earlier).reverse
  | _ => stretches

/-- Joins neighbouring stretches whose range would be empty, dropping both of its ends. -/
def joinEmptyRanges : List (List Char) → List (List Char)
  | [] => []
  | stretch :: rest =>
      match joinEmptyRanges rest with
      | [] => [stretch]
      | next :: more =>
          match stretch.getLast?, next with
          | some low, high :: tail =>
              if high < low then (stretch.dropLast ++ tail) :: more else stretch :: next :: more
          | _, _ => stretch :: next :: more

/-- The ranges between neighbouring stretches. -/
def rangesBetween : List (List Char) → List (Char × Char)
  | stretch :: next :: more =>
      match stretch.getLast?, next.head? with
      | some low, some high => (low, high) :: rangesBetween (next :: more)
      | _, _ => rangesBetween (next :: more)
  | _ => []

/-- A hyphen in front of all stretches stands for itself. -/
def openStretches : List (List Char) → List (List Char)
  | [] :: next :: more => ('-' :: next) :: more
  | stretches => stretches

/-- Reads the inside of a bracket; an exclamation mark in front negates the set. Whether one is
in front is asked once the empty ranges are gone. -/
def ofInside (inside : List Char) : CharSet :=
  let gap := if inside.head? == some '!' then 2 else 1
  let (negated, stretches) :=
    match joinEmptyRanges (closeStretches (stretches gap inside)) with
    | ('!' :: first) :: more => (true, openStretches (first :: more))
    | joined => (false, joined)
  { negated, members := stretches.flatten, ranges := rangesBetween stretches }

end CharSet

/-- The inside of a bracket and what follows its closing bracket; `first` says that a closing
bracket here stands for itself. -/
def closeBracket? : (first : Bool) → List Char → Option (List Char × List Char)
  | _, [] => none
  | first, char :: rest =>
      if char == ']' && !first then
        some ([], rest)
      else
        (closeBracket? false rest).map fun (inside, after) => (char :: inside, after)

/-- The inside of a bracket whose opening bracket has been read. -/
def bracket? (chars : List Char) : Option (List Char × List Char) :=
  match chars with
  | '!' :: rest => (closeBracket? true rest).map fun (inside, after) => ('!' :: inside, after)
  | _ => closeBracket? true chars

/-- Reads a pattern; the first `skip` characters belong to a bracket already read. -/
def wildcardFrom : Nat → List Char → List WildcardPart
  | _, [] => []
  | skip + 1, _ :: rest => wildcardFrom skip rest
  | 0, '*' :: rest => .star :: wildcardFrom 0 rest
  | 0, '?' :: rest => .one :: wildcardFrom 0 rest
  | 0, '[' :: rest =>
      match bracket? rest with
      | some (inside, _) => .set (CharSet.ofInside inside) :: wildcardFrom (inside.length + 1) rest
      | none => .char '[' :: wildcardFrom 0 rest
  | 0, char :: rest => .char char :: wildcardFrom 0 rest

/-- The parts of a written wildcard pattern. -/
def wildcard (pattern : String) : List WildcardPart :=
  wildcardFrom 0 pattern.toList

namespace WildcardPart

/-- A part other than a star stands for this character. -/
def admits : WildcardPart → Char → Bool
  | .star, _ => false
  | .one, _ => true
  | .set chars, letter => chars.admits letter
  | .char value, letter => letter == value

/-- For each end of a text, from the whole text to the empty one, whether a star and what follows
it match it; `row` tells the same of what follows. A star matches wherever what follows does, or
the end with one character less is matched. -/
def starRow : List Bool → List Bool
  | [] => []
  | here :: row =>
      let rest := starRow row
      (here || rest.headD false) :: rest

/-- The same for a part that stands for one character. -/
def stepRow (part : WildcardPart) : List Char → List Bool → List Bool
  | letter :: letters, _ :: row =>
      (part.admits letter && row.headD false) :: stepRow part letters row
  | _, _ => [false]

end WildcardPart

/-- For each end of a text, from the whole text to the empty one, whether the parts match it. -/
def wildcardRow (chars : List Char) : List WildcardPart → List Bool
  | [] => chars.map (fun _ => false) ++ [true]
  | .star :: parts => WildcardPart.starRow (wildcardRow chars parts)
  | part :: parts => part.stepRow chars (wildcardRow chars parts)

/-- The parts match the whole list of characters. -/
def wildcardMatches (parts : List WildcardPart) (chars : List Char) : Bool :=
  (wildcardRow chars parts).headD false

/-- The written pattern matches the whole text. -/
def matchesWildcard (pattern text : String) : Bool :=
  wildcardMatches (wildcard pattern) text.toList

end CodeGraph.Text
