import CodeGraph.Model.Basic
import CodeGraph.Text.Order

/-!
# The canonical form of a model

Nothing in a model depends on the order of its lists, except the arguments of a type. The
canonical form sorts every other list by a key, stably, from the inside out, so models that
differ in order alone have the same canonical form.
-/

namespace CodeGraph

namespace Tag

/-- Tags sorted by key and value. -/
def canonical (tags : List Tag) : List Tag :=
  sortOn pairLe (fun tag => (tag.key, tag.value)) tags

end Tag

namespace Stereotype

/-- Roles sorted by name and full name, where a missing full name counts as empty. -/
def canonical (stereotypes : List Stereotype) : List Stereotype :=
  sortOn pairLe (fun role => (role.name, role.qualifiedName.getD "")) stereotypes

end Stereotype

/-- The key of a member: its id, or its name for want of a non-empty id, and then its name. -/
def memberKey (id : Option String) (name : String) : String × String :=
  match id with
  | some id => (if id.isEmpty then name else id, name)
  | none => (name, name)

namespace Attribute

/-- The attribute with its lists sorted. -/
def canonical (member : Attribute) : Attribute :=
  { member with
    stereotypes := Stereotype.canonical member.stereotypes
    tags := Tag.canonical member.tags }

end Attribute

namespace Operation

/-- The operation with its lists sorted. -/
def canonical (operation : Operation) : Operation :=
  { operation with
    parameters := sortOn textLe (·.name) operation.parameters
    stereotypes := Stereotype.canonical operation.stereotypes
    tags := Tag.canonical operation.tags }

end Operation

namespace Classifier

/-- The classifier with its lists sorted. -/
def canonical (classifier : Classifier) : Classifier :=
  { classifier with
    attributes := sortOn pairLe (fun member => memberKey member.id member.name)
      (classifier.attributes.map (·.canonical))
    operations := sortOn pairLe (fun member => memberKey member.id member.name)
      (classifier.operations.map (·.canonical))
    stereotypes := Stereotype.canonical classifier.stereotypes
    tags := Tag.canonical classifier.tags }

end Classifier

namespace Package

/-- The package with its tags sorted. -/
def canonical (package : Package) : Package :=
  { package with tags := Tag.canonical package.tags }

end Package

namespace Relation

/-- The relation with its tags sorted. -/
def canonical (relation : Relation) : Relation :=
  { relation with tags := Tag.canonical relation.tags }

end Relation

namespace Model

/-- The model with all its lists sorted. -/
def canonical (model : Model) : Model :=
  { model with
    packages := sortOn textLe (·.id) (model.packages.map (·.canonical))
    classifiers := sortOn textLe (·.id) (model.classifiers.map (·.canonical))
    relations := sortOn textLe (·.id) (model.relations.map (·.canonical))
    tags := Tag.canonical model.tags }

end Model

end CodeGraph
