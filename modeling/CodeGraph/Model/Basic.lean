/-!
# The model of a code base

A model is a graph. Its nodes are classifiers: classes, interfaces, components, modules and what
else a code base declares. Its edges are relations between classifiers. Packages group the
classifiers by directory. Stereotypes and tags say more about an element than its kind does.
-/

namespace CodeGraph

/-- The kinds of classifiers. -/
inductive ClassifierKind where
  /-- A class. -/
  | classType
  /-- An interface. -/
  | interface
  /-- An enumeration. -/
  | enum
  /-- A name for a type. -/
  | typeAlias
  /-- A function. -/
  | function
  /-- A user interface component. -/
  | component
  /-- Something that is injected. -/
  | service
  /-- A module, a route or a source file. -/
  | module
deriving DecidableEq, Repr, Inhabited

/-- The kinds of relations. -/
inductive RelationKind where
  /-- A subtype and its supertype. -/
  | inheritance
  /-- A class and an interface it implements. -/
  | implementation
  /-- A classifier and the type of one of its members. -/
  | association
  /-- A classifier and what it needs. -/
  | dependency
  /-- A component and a component it renders. -/
  | render
  /-- A classifier and what is injected into it. -/
  | injection
  /-- A route and where it leads. -/
  | routeTo
  /-- A component and what its template uses. -/
  | templateUses
deriving DecidableEq, Repr, Inhabited

/-- The kinds of type references. -/
inductive TypeRefKind where
  /-- A type with a name. -/
  | named
  /-- A type that the language has. -/
  | primitive
  /-- A type applied to arguments. -/
  | generic
  /-- An array of an element type. -/
  | array
  /-- One of several types. -/
  | union
  /-- All of several types. -/
  | intersection
  /-- A type without a name. -/
  | unknown
deriving DecidableEq, Repr, Inhabited

/-- Who can see an element. -/
inductive Visibility where
  /-- Everyone can see it. -/
  | everyone
  /-- Subtypes can see it. -/
  | subtypes
  /-- The package can see it. -/
  | samePackage
  /-- The owner alone can see it. -/
  | ownerOnly
deriving DecidableEq, Repr, Inhabited

/-- A key and a value attached to an element. -/
structure Tag where
  /-- What the tag is about. -/
  key : String
  /-- What the tag says. -/
  value : String
deriving DecidableEq, Repr, Inhabited

/-- A role that an element plays. -/
structure Stereotype where
  /-- The role's name. -/
  name : String
  /-- The role's full name. -/
  qualifiedName : Option String := none
deriving DecidableEq, Repr, Inhabited

/-- Where the syntax behind an element stands. -/
structure SourceRef where
  /-- The path from the project's root. -/
  file : String
  /-- The line, counted from one. -/
  line : Option Int := none
  /-- The column in bytes, counted from one. -/
  col : Option Int := none
deriving DecidableEq, Repr, Inhabited

/-- A reference to a type. -/
inductive TypeRef where
  /-- A reference of a kind, with a name, arguments and an element type where it has them. -/
  | mk (kind : TypeRefKind) (name : Option String) (arguments : List TypeRef)
      (element : Option TypeRef)
deriving Repr, Inhabited

/-- A parameter of an operation. -/
structure Parameter where
  /-- The parameter's name. -/
  name : String
  /-- The parameter's type. -/
  type : TypeRef
deriving Repr, Inhabited

/-- A data member of a classifier. -/
structure Attribute where
  /-- The attribute's name. -/
  name : String
  /-- The attribute's type. -/
  type : TypeRef
  /-- The attribute's id. -/
  id : Option String := none
  /-- Who can see it. -/
  visibility : Option Visibility := none
  /-- It belongs to the classifier and not to its instances. -/
  isStatic : Option Bool := none
  /-- It is set once. -/
  isFinal : Option Bool := none
  /-- Its roles. -/
  stereotypes : List Stereotype := []
  /-- Its tags. -/
  tags : List Tag := []
  /-- Where it is written. -/
  source : Option SourceRef := none
deriving Repr, Inhabited

/-- A behavioural member of a classifier. -/
structure Operation where
  /-- The operation's name. -/
  name : String
  /-- What it returns. -/
  returnType : TypeRef
  /-- The operation's id. -/
  id : Option String := none
  /-- Its parameters. -/
  parameters : List Parameter := []
  /-- Who can see it. -/
  visibility : Option Visibility := none
  /-- It belongs to the classifier and not to its instances. -/
  isStatic : Option Bool := none
  /-- It has no body. -/
  isAbstract : Option Bool := none
  /-- It makes instances. -/
  isConstructor : Option Bool := none
  /-- Its roles. -/
  stereotypes : List Stereotype := []
  /-- Its tags. -/
  tags : List Tag := []
  /-- Where it is written. -/
  source : Option SourceRef := none
deriving Repr, Inhabited

/-- A named structural entity. -/
structure Classifier where
  /-- The classifier's id. -/
  id : String
  /-- The classifier's name. -/
  name : String
  /-- What it is. -/
  kind : ClassifierKind
  /-- Its name with the directory, the file and the namespaces in front. -/
  qualifiedName : Option String := none
  /-- The package that owns it. -/
  packageId : Option String := none
  /-- Who can see it. -/
  visibility : Option Visibility := none
  /-- Its data members. -/
  attributes : List Attribute := []
  /-- Its behavioural members. -/
  operations : List Operation := []
  /-- Its roles. -/
  stereotypes : List Stereotype := []
  /-- Its tags. -/
  tags : List Tag := []
  /-- Where it is written. -/
  source : Option SourceRef := none
deriving Repr, Inhabited

/-- A directory of the project. -/
structure Package where
  /-- The package's id. -/
  id : String
  /-- The last segment of the directory. -/
  name : String
  /-- The directory with dots between its segments. -/
  qualifiedName : Option String := none
  /-- The package of the directory above. -/
  parentId : Option String := none
  /-- Its tags. -/
  tags : List Tag := []
deriving DecidableEq, Repr, Inhabited

/-- A directed edge between two classifiers. -/
structure Relation where
  /-- The relation's id. -/
  id : String
  /-- What it is. -/
  kind : RelationKind
  /-- The id of the classifier it starts from. -/
  sourceId : String
  /-- The id of the classifier it leads to. -/
  targetId : String
  /-- Its name. -/
  name : Option String := none
  /-- Its tags. -/
  tags : List Tag := []
  /-- Where it is written first. -/
  source : Option SourceRef := none
deriving DecidableEq, Repr, Inhabited

/-- A graph of classifiers and relations, with the packages that own the classifiers. -/
structure Model where
  /-- The version of the schema that the model follows. -/
  schemaVersion : String := "1.0"
  /-- The packages. -/
  packages : List Package := []
  /-- The nodes. -/
  classifiers : List Classifier := []
  /-- The edges. -/
  relations : List Relation := []
  /-- The tags of the model itself. -/
  tags : List Tag := []
deriving Repr, Inhabited

namespace TypeRef

/-- The kind of a reference. -/
def kind : TypeRef → TypeRefKind
  | .mk kind _ _ _ => kind

/-- A type without a name, described by a word. -/
def unknown (word : String := "unknown") : TypeRef :=
  .mk .unknown (some word) [] none

/-- A type with a name. -/
def named (name : String) : TypeRef :=
  .mk .named (some name) [] none

/-- A type that the language has. -/
def primitive (name : String) : TypeRef :=
  .mk .primitive (some name) [] none

/-- An array. -/
def array (element : TypeRef) : TypeRef :=
  .mk .array none [] (some element)

/-- A type applied to arguments. -/
def generic (name : String) (arguments : List TypeRef) : TypeRef :=
  .mk .generic (some name) arguments none

/-- One of several types. -/
def union (members : List TypeRef) : TypeRef :=
  .mk .union none members none

/-- All of several types. -/
def intersection (members : List TypeRef) : TypeRef :=
  .mk .intersection none members none

end TypeRef

namespace Tag

/-- The value of the first tag with a key. -/
def get? (tags : List Tag) (key : String) : Option String :=
  (tags.find? (·.key == key)).map (·.value)

/-- Gives the first tag with a key a new value, or adds one at the end. -/
def set (tags : List Tag) (key value : String) : List Tag :=
  match tags with
  | [] => [⟨key, value⟩]
  | tag :: rest => if tag.key == key then ⟨tag.key, value⟩ :: rest else tag :: set rest key value

/-- The tags without those that occur earlier. -/
def unique (tags : List Tag) : List Tag :=
  tags.foldl (fun kept tag => if kept.contains tag then kept else kept ++ [tag]) []

end Tag

namespace Classifier

/-- The classifier plays a role. -/
def hasStereotype (classifier : Classifier) (name : String) : Bool :=
  classifier.stereotypes.any (·.name == name)

/-- The classifier with a role, which it may have already. -/
def addStereotype (classifier : Classifier) (name : String) : Classifier :=
  if classifier.hasStereotype name then classifier
  else { classifier with stereotypes := classifier.stereotypes ++ [{ name }] }

/-- The value of a tag. -/
def tag? (classifier : Classifier) (key : String) : Option String :=
  Tag.get? classifier.tags key

/-- The classifier with a tag, which replaces an earlier one with its key. -/
def setTag (classifier : Classifier) (key value : String) : Classifier :=
  { classifier with tags := Tag.set classifier.tags key value }

/-- The first attribute with a name. -/
def attribute? (classifier : Classifier) (name : String) : Option Attribute :=
  classifier.attributes.find? (·.name == name)

/-- The classifier with one more attribute, unless one has its id. -/
def addAttribute (classifier : Classifier) (member : Attribute) : Classifier :=
  if classifier.attributes.any (·.id == member.id) then classifier
  else { classifier with attributes := classifier.attributes ++ [member] }

/-- The classifier with one more operation, unless one has its id. -/
def addOperation (classifier : Classifier) (operation : Operation) : Classifier :=
  if classifier.operations.any (·.id == operation.id) then classifier
  else { classifier with operations := classifier.operations ++ [operation] }

/-- Changes the first attribute that has the name of `fresh`, or adds `fresh`, changed, at the
end. -/
def updateAttribute (classifier : Classifier) (fresh : Attribute)
    (change : Attribute → Attribute) : Classifier :=
  let rec update : List Attribute → List Attribute
    | [] => [change fresh]
    | member :: rest =>
        if member.name == fresh.name then change member :: rest else member :: update rest
  { classifier with attributes := update classifier.attributes }

end Classifier

end CodeGraph
