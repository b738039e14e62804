import CodeGraph.Digest.Sha1
import CodeGraph.Model.Basic
import CodeGraph.Text.Surrogate

/-!
# Identity

An element's id is a mark for its sort followed by sixteen hexadecimal digits of the digest of a
text that names it. The same code base therefore always gets the same ids. A digest is one of bytes,
so a text that has no encoding is refused.
-/

namespace CodeGraph

namespace ClassifierKind

/-- The kind's name in a written model. -/
def label : ClassifierKind → String
  | .classType => "CLASS"
  | .interface => "INTERFACE"
  | .enum => "ENUM"
  | .typeAlias => "TYPE_ALIAS"
  | .function => "FUNCTION"
  | .component => "COMPONENT"
  | .service => "SERVICE"
  | .module => "MODULE"

/-- All kinds. -/
def all : List ClassifierKind :=
  [.classType, .interface, .enum, .typeAlias, .function, .component, .service, .module]

/-- The kind with a name. -/
def ofLabel? (label : String) : Option ClassifierKind :=
  all.find? (·.label == label)

end ClassifierKind

namespace RelationKind

/-- The kind's name in a written model. -/
def label : RelationKind → String
  | .inheritance => "INHERITANCE"
  | .implementation => "IMPLEMENTATION"
  | .association => "ASSOCIATION"
  | .dependency => "DEPENDENCY"
  | .render => "RENDER"
  | .injection => "DI"
  | .routeTo => "ROUTE_TO"
  | .templateUses => "TEMPLATE_USES"

/-- All kinds. -/
def all : List RelationKind :=
  [.inheritance, .implementation, .association, .dependency, .render, .injection, .routeTo,
    .templateUses]

/-- The kind with a name. -/
def ofLabel? (label : String) : Option RelationKind :=
  all.find? (·.label == label)

end RelationKind

/-- The name of the project's root directory as a package. -/
def rootPackageName : String := "(root)"

/-! ## Texts that are digested -/

/-- A text that no id is made from, since it has no encoding. -/
structure Unencodable where
  /-- The text. -/
  text : String
deriving DecidableEq, Repr

/-- A mark followed by the first sixteen digits of the digest of a text. An id is made like this
only of a text that has an encoding. -/
def digestId (mark value : String) : String :=
  mark ++ String.ofList ((Digest.sha1Hex value).toList.take 16)

/-- The id that is made from a text with a mark, or the refusal of a text without an encoding. -/
def hashId (mark value : String) : Except Unencodable String :=
  if Text.isEncodable value then .ok (digestId mark value) else .error ⟨value⟩

/-- What the id of an element is made from. -/
structure IdKey where
  /-- The mark of the sort of elements. -/
  mark : String
  /-- The text that names the element. -/
  text : String
deriving DecidableEq, Repr

namespace IdKey

/-- The id that a key with an encoding has. -/
def id (key : IdKey) : String :=
  digestId key.mark key.text

/-- The id that is made from a key, if its text has an encoding. -/
def hash (key : IdKey) : Except Unencodable String :=
  hashId key.mark key.text

/-- The key of the package of a directory. -/
def ofPackage (directory : String) : IdKey :=
  ⟨"pkg:", if directory.isEmpty then rootPackageName else directory⟩

@[simp] theorem mark_ofPackage (directory : String) : (ofPackage directory).mark = "pkg:" := rfl

/-- The key of a classifier, from the name of its kind. -/
def ofClassifier (kind qualifiedName : String) : IdKey :=
  ⟨"c:", kind ++ ":" ++ qualifiedName⟩

@[simp] theorem mark_ofClassifier (kind qualifiedName : String) :
    (ofClassifier kind qualifiedName).mark = "c:" := rfl

/-- The key of the module of a source file. -/
def ofModule (file : String) : IdKey :=
  ⟨"m:", file⟩

@[simp] theorem mark_ofModule (file : String) : (ofModule file).mark = "m:" := rfl

/-- The key of a member. -/
def ofMember (mark owner name : String) : IdKey :=
  ⟨mark, owner ++ ":" ++ name⟩

/-- The key of a relation, from the name of its kind. Relations with the same kind and ends are told
apart by a discriminator. -/
def ofRelation (kind source target : String) (discriminator : Option String) : IdKey :=
  let key := kind ++ ":" ++ source ++ "->" ++ target
  match discriminator with
  | some word => ⟨"r:", if word.isEmpty then key else key ++ ":" ++ word⟩
  | none => ⟨"r:", key⟩

@[simp] theorem mark_ofRelation (kind source target : String) (discriminator : Option String) :
    (ofRelation kind source target discriminator).mark = "r:" := by
  cases discriminator <;> rfl

end IdKey

/-! ## Ids -/

/-- The id of the package of a directory. -/
def packageId (directory : String) : String :=
  (IdKey.ofPackage directory).id

/-- The id of a classifier, from the name of its kind. -/
def classifierIdOf (kind qualifiedName : String) : String :=
  (IdKey.ofClassifier kind qualifiedName).id

/-- The id of a classifier. -/
def classifierId (kind : ClassifierKind) (qualifiedName : String) : String :=
  classifierIdOf kind.label qualifiedName

/-- The id of the module of a source file. -/
def moduleId (file : String) : String :=
  (IdKey.ofModule file).id

/-- The id of a member. -/
def memberId (mark owner name : String) : String :=
  (IdKey.ofMember mark owner name).id

/-- The id of an attribute. -/
def attributeId (owner name : String) : String :=
  memberId "a:" owner name

/-- The id of an operation. -/
def operationId (owner name : String) : String :=
  memberId "o:" owner name

/-- The id of a relation, from the name of its kind. -/
def relationIdOf (kind source target : String) (discriminator : Option String) : String :=
  (IdKey.ofRelation kind source target discriminator).id

/-- The id of a relation. -/
def relationId (kind : RelationKind) (source target : String) (discriminator : Option String) :
    String :=
  relationIdOf kind.label source target discriminator

end CodeGraph
