import CodeGraph.Json.Decimal
import CodeGraph.Ordered

/-!
# JSON values

Objects keep their members in the order in which they were written, and a member that is written
again takes the new value in the old place.
-/

namespace CodeGraph

/-- A JSON value. -/
inductive Json where
  /-- The null value. -/
  | null
  /-- A truth value. -/
  | bool (value : Bool)
  /-- A number without point and exponent, of any size. -/
  | int (value : Int)
  /-- A number with a point or an exponent. -/
  | real (value : Decimal)
  /-- A string. -/
  | text (value : String)
  /-- An array. -/
  | list (items : List Json)
  /-- An object, members in written order. -/
  | object (members : List (String × Json))
deriving Inhabited, Repr

namespace Json

/-- An object of members in written order, where a repeated name takes its last value. -/
def ofMembers (members : List (String × Json)) : Json :=
  .object (Ordered.setAll [] members)

/-- The value of a member; absent members and values that are no objects give nothing. -/
def member? (value : Json) (name : String) : Option Json :=
  match value with
  | .object members => members.lookup name
  | _ => none

/-- The value is something other than null, false, zero or empty. -/
def isTruthy : Json → Bool
  | .null => false
  | .bool value => value
  | .int value => value != 0
  | .real value => !value.isZero
  | .text value => !value.isEmpty
  | .list items => !items.isEmpty
  | .object members => !members.isEmpty

/-- The text of a string value. -/
def text? : Json → Option String
  | .text value => some value
  | _ => none

/-- The value of an integer. -/
def int? : Json → Option Int
  | .int value => some value
  | _ => none

/-- The value of a truth value. -/
def bool? : Json → Option Bool
  | .bool value => some value
  | _ => none

/-- The items of an array; none for any other value. -/
def items : Json → List Json
  | .list items => items
  | _ => []

/-- The members of an object; none for any other value. -/
def members : Json → List (String × Json)
  | .object members => members
  | _ => []

/-- An array of strings. -/
def texts (values : List String) : Json :=
  .list (values.map .text)

/-- The value, or null. -/
def orNull : Option Json → Json
  | some value => value
  | none => .null

end Json

end CodeGraph
