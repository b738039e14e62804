import CodeGraph.Digest.Sha1
import CodeGraph.Json.Value

/-!
# Writing JSON

Two layouts. The stable one sorts the members of every object by name, indents by two spaces and
ends in a line feed, so equal values have equal texts. The compact one keeps the written order on
one line. Both leave characters outside the control range as they are.
-/

namespace CodeGraph.Json

/-- How one character stands inside a string literal. -/
def escapeChar (char : Char) : List Char :=
  if char == '\x22' then ['\\', '\x22']
  else if char == '\\' then ['\\', '\\']
  else if char == '\n' then ['\\', 'n']
  else if char == '\r' then ['\\', 'r']
  else if char == '\t' then ['\\', 't']
  else if char == '\x0c' then ['\\', 'f']
  else if char == '\x08' then ['\\', 'b']
  else if char.toNat < 0x20 then
    ['\\', 'u', '0', '0', Digest.hexDigit (char.toNat / 16), Digest.hexDigit (char.toNat % 16)]
  else [char]

/-- A string literal. -/
def quote (text : String) : List Char :=
  '\x22' :: text.toList.flatMap escapeChar ++ ['\x22']

/-- The text of a number with point or exponent. -/
def realText (value : Decimal) : String :=
  value.render "Infinity" "-Infinity" "NaN"

/-- Writes items between brackets, each on a line of its own at the given depth. -/
def block (opening closing : Char) (depth : Nat) (items : List (List Char)) : List Char :=
  if items.isEmpty then
    [opening, closing]
  else
    let newline (level : Nat) : List Char := '\n' :: List.replicate (2 * level) ' '
    opening :: newline (depth + 1)
      ++ List.intercalate (',' :: newline (depth + 1)) items
      ++ newline depth ++ [closing]

/-- Order by member name. -/
def nameOrder {α : Type} (left right : String × α) : Bool :=
  decide (left.1 ≤ right.1)

mutual

/-- The stable layout of a value at a depth. -/
def renderAt (depth : Nat) : Json → List Char
  | .null => "null".toList
  | .bool value => (if value then "true" else "false").toList
  | .int value => (toString value).toList
  | .real value => (realText value).toList
  | .text value => quote value
  | .list items => block '[' ']' depth (renderItems (depth + 1) items)
  | .object members =>
      block '\x7b' '\x7d' depth
        (((renderMembers (depth + 1) members).mergeSort nameOrder).map fun (name, value) =>
          quote name ++ ':' :: ' ' :: value)

/-- The stable layouts of items. -/
def renderItems (depth : Nat) : List Json → List (List Char)
  | [] => []
  | item :: items => renderAt depth item :: renderItems depth items

/-- The stable layouts of member values, with their names. -/
def renderMembers (depth : Nat) : List (String × Json) → List (String × List Char)
  | [] => []
  | (name, value) :: members => (name, renderAt depth value) :: renderMembers depth members

end

/-- The stable layout of a value, with a line feed at the end. -/
def render (value : Json) : String :=
  String.ofList (renderAt 0 value ++ ['\n'])

mutual

/-- The compact layout of a value. -/
def renderLine : Json → List Char
  | .null => "null".toList
  | .bool value => (if value then "true" else "false").toList
  | .int value => (toString value).toList
  | .real value => (realText value).toList
  | .text value => quote value
  | .list items => '[' :: lineItems items ++ [']']
  | .object members => '\x7b' :: lineMembers members ++ ['\x7d']

/-- The compact layouts of items, commas between them. -/
def lineItems : List Json → List Char
  | [] => []
  | [item] => renderLine item
  | item :: items => renderLine item ++ ',' :: lineItems items

/-- The compact layouts of members, commas between them. -/
def lineMembers : List (String × Json) → List Char
  | [] => []
  | [(name, value)] => quote name ++ ':' :: renderLine value
  | (name, value) :: members =>
      quote name ++ ':' :: renderLine value ++ ',' :: lineMembers members

end

/-- The compact layout of a value, on one line. -/
def compact (value : Json) : String :=
  String.ofList (renderLine value)

end CodeGraph.Json
