import CodeGraph.Json.Printer
import CodeGraph.Model.Canonical
import CodeGraph.Model.Identity

/-!
# Models as JSON

Every record becomes an object. A field without a value is left out, and a list is always there,
even when it is empty. A model is written in its canonical form; on request the lists of
stereotypes are left out, after everything has been sorted.
-/

namespace CodeGraph

namespace TypeRefKind

/-- The kind's name in a written model. -/
def label : TypeRefKind → String
  | .named => "NAMED"
  | .primitive => "PRIMITIVE"
  | .generic => "GENERIC"
  | .array => "ARRAY"
  | .union => "UNION"
  | .intersection => "INTERSECTION"
  | .unknown => "UNKNOWN"

/-- All kinds. -/
def all : List TypeRefKind :=
  [.named, .primitive, .generic, .array, .union, .intersection, .unknown]

/-- The kind with a name. -/
def ofLabel? (label : String) : Option TypeRefKind :=
  all.find? (·.label == label)

end TypeRefKind

namespace Visibility

/-- The visibility's name in a written model. -/
def label : Visibility → String
  | .everyone => "PUBLIC"
  | .subtypes => "PROTECTED"
  | .samePackage => "PACKAGE"
  | .ownerOnly => "PRIVATE"

/-- All visibilities. -/
def all : List Visibility :=
  [.everyone, .subtypes, .samePackage, .ownerOnly]

/-- The visibility with a name. -/
def ofLabel? (label : String) : Option Visibility :=
  all.find? (·.label == label)

end Visibility

namespace Json

/-- A member that is left out when it has no value. -/
def optional (name : String) (value : Option Json) : List (String × Json) :=
  match value with
  | some value => [(name, value)]
  | none => []

end Json

namespace Tag

/-- The tag as JSON. -/
def toJson (tag : Tag) : Json :=
  .object [("key", .text tag.key), ("value", .text tag.value)]

end Tag

namespace Stereotype

/-- The role as JSON. -/
def toJson (role : Stereotype) : Json :=
  .object ([("name", .text role.name)]
    ++ Json.optional "qualifiedName" (role.qualifiedName.map .text))

end Stereotype

namespace SourceRef

/-- The place as JSON. -/
def toJson (place : SourceRef) : Json :=
  .object ([("file", .text place.file)] ++ Json.optional "line" (place.line.map .int)
    ++ Json.optional "col" (place.col.map .int))

end SourceRef

namespace TypeRef

mutual

/-- The reference as JSON. -/
def toJson : TypeRef → Json
  | .mk kind name arguments element =>
      .object ([("kind", .text kind.label)] ++ Json.optional "name" (name.map .text)
        ++ [("typeArgs", .list (allToJson arguments))]
        ++ Json.optional "elementType" (optionToJson element))

/-- The references as JSON. -/
def allToJson : List TypeRef → List Json
  | [] => []
  | reference :: references => toJson reference :: allToJson references

/-- The reference, if there is one, as JSON. -/
def optionToJson : Option TypeRef → Option Json
  | some reference => some (toJson reference)
  | none => none

end

end TypeRef

namespace Parameter

/-- The parameter as JSON. -/
def toJson (parameter : Parameter) : Json :=
  .object [("name", .text parameter.name), ("type", parameter.type.toJson)]

end Parameter

namespace Attribute

/-- The attribute as JSON. -/
def toJson (member : Attribute) : Json :=
  .object ([("name", .text member.name), ("type", member.type.toJson)]
    ++ Json.optional "id" (member.id.map .text)
    ++ Json.optional "visibility" (member.visibility.map fun value => .text value.label)
    ++ Json.optional "isStatic" (member.isStatic.map .bool)
    ++ Json.optional "isFinal" (member.isFinal.map .bool)
    ++ [("stereotypes", .list (member.stereotypes.map (·.toJson))),
      ("taggedValues", .list (member.tags.map (·.toJson)))]
    ++ Json.optional "source" (member.source.map (·.toJson)))

end Attribute

namespace Operation

/-- The operation as JSON. -/
def toJson (operation : Operation) : Json :=
  .object ([("name", .text operation.name), ("returnType", operation.returnType.toJson)]
    ++ Json.optional "id" (operation.id.map .text)
    ++ [("parameters", .list (operation.parameters.map (·.toJson)))]
    ++ Json.optional "visibility" (operation.visibility.map fun value => .text value.label)
    ++ Json.optional "isStatic" (operation.isStatic.map .bool)
    ++ Json.optional "isAbstract" (operation.isAbstract.map .bool)
    ++ Json.optional "isConstructor" (operation.isConstructor.map .bool)
    ++ [("stereotypes", .list (operation.stereotypes.map (·.toJson))),
      ("taggedValues", .list (operation.tags.map (·.toJson)))]
    ++ Json.optional "source" (operation.source.map (·.toJson)))

end Operation

namespace Classifier

/-- The classifier as JSON. -/
def toJson (classifier : Classifier) : Json :=
  .object ([("id", .text classifier.id), ("name", .text classifier.name),
      ("kind", .text classifier.kind.label)]
    ++ Json.optional "qualifiedName" (classifier.qualifiedName.map .text)
    ++ Json.optional "packageId" (classifier.packageId.map .text)
    ++ Json.optional "visibility" (classifier.visibility.map fun value => .text value.label)
    ++ [("attributes", .list (classifier.attributes.map (·.toJson))),
      ("operations", .list (classifier.operations.map (·.toJson))),
      ("stereotypes", .list (classifier.stereotypes.map (·.toJson))),
      ("taggedValues", .list (classifier.tags.map (·.toJson)))]
    ++ Json.optional "source" (classifier.source.map (·.toJson)))

end Classifier

namespace Package

/-- The package as JSON. -/
def toJson (package : Package) : Json :=
  .object ([("id", .text package.id), ("name", .text package.name)]
    ++ Json.optional "qualifiedName" (package.qualifiedName.map .text)
    ++ Json.optional "parentId" (package.parentId.map .text)
    ++ [("taggedValues", .list (package.tags.map (·.toJson)))])

end Package

namespace Relation

/-- The relation as JSON. -/
def toJson (relation : Relation) : Json :=
  .object ([("id", .text relation.id), ("kind", .text relation.kind.label),
      ("sourceId", .text relation.sourceId), ("targetId", .text relation.targetId)]
    ++ Json.optional "name" (relation.name.map .text)
    ++ [("taggedValues", .list (relation.tags.map (·.toJson)))]
    ++ Json.optional "source" (relation.source.map (·.toJson)))

end Relation

namespace Json

mutual

/-- The value without the members called `stereotypes`, at every depth. -/
def dropStereotypes : Json → Json
  | .list items => .list (dropFromItems items)
  | .object members => .object (dropFromMembers members)
  | value => value

/-- The items without the members called `stereotypes`. -/
def dropFromItems : List Json → List Json
  | [] => []
  | item :: items => dropStereotypes item :: dropFromItems items

/-- The members that are not called `stereotypes`, without such members inside them. -/
def dropFromMembers : List (String × Json) → List (String × Json)
  | [] => []
  | (name, value) :: members =>
      if name == "stereotypes" then dropFromMembers members
      else (name, dropStereotypes value) :: dropFromMembers members

end

end Json

namespace Model

/-- The model as JSON, in the order it has. -/
def toJson (model : Model) : Json :=
  .object [("schemaVersion", .text model.schemaVersion),
    ("packages", .list (model.packages.map (·.toJson))),
    ("classifiers", .list (model.classifiers.map (·.toJson))),
    ("relations", .list (model.relations.map (·.toJson))),
    ("taggedValues", .list (model.tags.map (·.toJson)))]

/-- The canonical model as JSON, with or without stereotypes. -/
def document (model : Model) (withoutStereotypes : Bool) : Json :=
  let value := model.canonical.toJson
  if withoutStereotypes then value.dropStereotypes else value

/-- The canonical text of a model. -/
def serialize (model : Model) (withoutStereotypes : Bool) : String :=
  (model.document withoutStereotypes).render

end Model

end CodeGraph
