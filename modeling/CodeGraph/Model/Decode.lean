import CodeGraph.Model.Encode

/-!
# Models from JSON

Reads what writing a model makes. A field that is missing or null has no value, a list that is
missing or null is empty, and a model without a schema version has the current one.
-/

namespace CodeGraph

namespace Json

/-- The value of a member that is there and not null. -/
def field? (value : Json) (name : String) : Option Json :=
  match value.member? name with
  | some .null => none
  | other => other

/-- The text of a member. -/
def fieldText? (value : Json) (name : String) : Option String :=
  (value.field? name).bind text?

/-- The integer of a member. -/
def fieldInt? (value : Json) (name : String) : Option Int :=
  (value.field? name).bind int?

/-- The truth value of a member. -/
def fieldBool? (value : Json) (name : String) : Option Bool :=
  (value.field? name).bind bool?

/-- The items of a member. -/
def fieldItems (value : Json) (name : String) : List Json :=
  ((value.field? name).map items).getD []

end Json

namespace Tag

/-- Reads a tag. -/
def ofJson? (value : Json) : Option Tag := do
  return { key := ← value.fieldText? "key", value := ← value.fieldText? "value" }

end Tag

namespace Stereotype

/-- Reads a role. -/
def ofJson? (value : Json) : Option Stereotype := do
  return { name := ← value.fieldText? "name", qualifiedName := value.fieldText? "qualifiedName" }

end Stereotype

namespace SourceRef

/-- Reads a place. -/
def ofJson? (value : Json) : Option SourceRef := do
  return {
    file := ← value.fieldText? "file"
    line := value.fieldInt? "line"
    col := value.fieldInt? "col" }

end SourceRef

namespace TypeRef

mutual

/-- Reads a type reference. -/
def ofJson? : Json → Option TypeRef
  | .object members => do
      let kind ← ((members.lookup "kind").bind Json.text?).bind TypeRefKind.ofLabel?
      let name := (members.lookup "name").bind Json.text?
      let (arguments, element) ← partsOf? members
      return .mk kind name arguments element
  | _ => none

/-- Reads the arguments and the element type among the members of a type reference. -/
def partsOf? : List (String × Json) → Option (List TypeRef × Option TypeRef)
  | [] => some ([], none)
  | (name, value) :: members => do
      let (arguments, element) ← partsOf? members
      if name == "typeArgs" then
        match value with
        | .list items => return (← allOfJson? items, element)
        | _ => return (arguments, element)
      else if name == "elementType" then
        match value with
        | .null => return (arguments, none)
        | .object members => return (arguments, some (← ofJson? (.object members)))
        | _ => none
      else
        return (arguments, element)

/-- Reads a list of type references. -/
def allOfJson? : List Json → Option (List TypeRef)
  | [] => some []
  | value :: values => do
      return (← ofJson? value) :: (← allOfJson? values)

end

end TypeRef

namespace Parameter

/-- Reads a parameter. -/
def ofJson? (value : Json) : Option Parameter := do
  return {
    name := ← value.fieldText? "name"
    type := ← (value.field? "type").bind TypeRef.ofJson? }

end Parameter

namespace Visibility

/-- Reads the visibility of an element. -/
def ofElement? (value : Json) : Option Visibility :=
  (value.fieldText? "visibility").bind ofLabel?

end Visibility

namespace Attribute

/-- Reads an attribute. -/
def ofJson? (value : Json) : Option Attribute := do
  return {
    name := ← value.fieldText? "name"
    type := ← (value.field? "type").bind TypeRef.ofJson?
    id := value.fieldText? "id"
    visibility := Visibility.ofElement? value
    isStatic := value.fieldBool? "isStatic"
    isFinal := value.fieldBool? "isFinal"
    stereotypes := ← (value.fieldItems "stereotypes").mapM Stereotype.ofJson?
    tags := ← (value.fieldItems "taggedValues").mapM Tag.ofJson?
    source := (value.field? "source").bind SourceRef.ofJson? }

end Attribute

namespace Operation

/-- Reads an operation. -/
def ofJson? (value : Json) : Option Operation := do
  return {
    name := ← value.fieldText? "name"
    returnType := ← (value.field? "returnType").bind TypeRef.ofJson?
    id := value.fieldText? "id"
    parameters := ← (value.fieldItems "parameters").mapM Parameter.ofJson?
    visibility := Visibility.ofElement? value
    isStatic := value.fieldBool? "isStatic"
    isAbstract := value.fieldBool? "isAbstract"
    isConstructor := value.fieldBool? "isConstructor"
    stereotypes := ← (value.fieldItems "stereotypes").mapM Stereotype.ofJson?
    tags := ← (value.fieldItems "taggedValues").mapM Tag.ofJson?
    source := (value.field? "source").bind SourceRef.ofJson? }

end Operation

namespace Classifier

/-- Reads a classifier. -/
def ofJson? (value : Json) : Option Classifier := do
  return {
    id := ← value.fieldText? "id"
    name := ← value.fieldText? "name"
    kind := ← (value.fieldText? "kind").bind ClassifierKind.ofLabel?
    qualifiedName := value.fieldText? "qualifiedName"
    packageId := value.fieldText? "packageId"
    visibility := Visibility.ofElement? value
    attributes := ← (value.fieldItems "attributes").mapM Attribute.ofJson?
    operations := ← (value.fieldItems "operations").mapM Operation.ofJson?
    stereotypes := ← (value.fieldItems "stereotypes").mapM Stereotype.ofJson?
    tags := ← (value.fieldItems "taggedValues").mapM Tag.ofJson?
    source := (value.field? "source").bind SourceRef.ofJson? }

end Classifier

namespace Package

/-- Reads a package. -/
def ofJson? (value : Json) : Option Package := do
  return {
    id := ← value.fieldText? "id"
    name := ← value.fieldText? "name"
    qualifiedName := value.fieldText? "qualifiedName"
    parentId := value.fieldText? "parentId"
    tags := ← (value.fieldItems "taggedValues").mapM Tag.ofJson? }

end Package

namespace Relation

/-- Reads a relation. -/
def ofJson? (value : Json) : Option Relation := do
  return {
    id := ← value.fieldText? "id"
    kind := ← (value.fieldText? "kind").bind RelationKind.ofLabel?
    sourceId := ← value.fieldText? "sourceId"
    targetId := ← value.fieldText? "targetId"
    name := value.fieldText? "name"
    tags := ← (value.fieldItems "taggedValues").mapM Tag.ofJson?
    source := (value.field? "source").bind SourceRef.ofJson? }

end Relation

namespace Model

/-- Reads a model. -/
def ofJson? (value : Json) : Option Model := do
  return {
    schemaVersion := (value.fieldText? "schemaVersion").getD "1.0"
    packages := ← (value.fieldItems "packages").mapM Package.ofJson?
    classifiers := ← (value.fieldItems "classifiers").mapM Classifier.ofJson?
    relations := ← (value.fieldItems "relations").mapM Relation.ofJson?
    tags := ← (value.fieldItems "taggedValues").mapM Tag.ofJson? }

end Model

end CodeGraph
