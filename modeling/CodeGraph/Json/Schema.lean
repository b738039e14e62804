import CodeGraph.Json.Value

/-!
# Schemas of JSON values

A schema says which values it accepts. An object has no other members than those that its schema
lists, and some of them have to be there. A schema may refer to another one by the name that it is
defined under.
-/

namespace CodeGraph

/-- Which values are accepted. -/
inductive JsonSchema where
  /-- A string of at least some length. -/
  | text (minLength : Nat)
  /-- One of several strings. -/
  | choice (words : List String)
  /-- A truth value. -/
  | bool
  /-- An integer that is not below a bound. -/
  | integer (minimum : Int)
  /-- A list of accepted items. -/
  | list (items : JsonSchema)
  /-- An object with these members, some of which are required. -/
  | object (required : List String) (properties : List (String × JsonSchema))
  /-- What the schema of this name accepts. -/
  | ref (name : String)
deriving Inhabited

namespace JsonSchema

/-- Schemas by name. -/
abbrev Definitions := List (String × JsonSchema)

/-- The schema itself, or the one that it refers to. -/
def resolve? (definitions : Definitions) : JsonSchema → Option JsonSchema
  | .ref name => definitions.lookup name
  | schema => some schema

/-- The schema accepts a string. -/
def acceptsText : JsonSchema → String → Bool
  | .text minLength, value => decide (minLength ≤ value.length)
  | .choice words, value => words.contains value
  | _, _ => false

/-- The schema accepts an integer. -/
def acceptsInt : JsonSchema → Int → Bool
  | .integer minimum, value => decide (minimum ≤ value)
  | _, _ => false

/-- The schema accepts truth values. -/
def acceptsBool : JsonSchema → Bool
  | .bool => true
  | _ => false

mutual

/-- The schema accepts a value. -/
def accepts (definitions : Definitions) (schema : JsonSchema) : Json → Bool
  | .text value => (schema.resolve? definitions).any (·.acceptsText value)
  | .int value => (schema.resolve? definitions).any (·.acceptsInt value)
  | .bool _ => (schema.resolve? definitions).any (·.acceptsBool)
  | .list items =>
      match schema.resolve? definitions with
      | some (.list item) => acceptsItems definitions item items
      | _ => false
  | .object members =>
      match schema.resolve? definitions with
      | some (.object required properties) =>
          (required.all fun name => (members.lookup name).isSome)
            && acceptsMembers definitions properties members
      | _ => false
  | .null | .real _ => false

/-- The schema accepts all items. -/
def acceptsItems (definitions : Definitions) (schema : JsonSchema) : List Json → Bool
  | [] => true
  | item :: items => accepts definitions schema item && acceptsItems definitions schema items

/-- All members are listed and accepted. -/
def acceptsMembers (definitions : Definitions) (properties : List (String × JsonSchema)) :
    List (String × Json) → Bool
  | [] => true
  | (name, value) :: members =>
      (match properties.lookup name with
        | some schema => accepts definitions schema value
        | none => false)
        && acceptsMembers definitions properties members

end

end JsonSchema

end CodeGraph
