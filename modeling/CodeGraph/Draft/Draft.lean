import CodeGraph.Draft.Declaration
import CodeGraph.Draft.Program
import CodeGraph.Model.PackageMap
import CodeGraph.Modules.SymbolTable
import CodeGraph.Report.Finding

/-!
# Drafts

A draft is a model under construction, with the symbol table, the declarations and the findings
that belong to it. Drafts change by edits alone. An edit adds: it never takes away a classifier,
a member, a relation or a finding, and where it meets what is there already it keeps or completes
it. Whatever holds of the empty draft and is kept by each edit therefore holds of every draft.
-/

namespace CodeGraph

open Syntax

/-- What an extraction is asked to do. -/
structure ExtractOptions where
  /-- React is read. -/
  react : Bool := false
  /-- Angular is read. -/
  angular : Bool := false
  /-- Plain JavaScript files are read whatever the compiler options say. -/
  forceAllowJs : Bool := false
  /-- Files become modules that depend on each other. -/
  importGraph : Bool := false
  /-- Dependencies on types and uses are read. -/
  includeDeps : Bool := false
  /-- Relations that a framework makes are read. -/
  includeFrameworkEdges : Bool := true
  /-- The most files to read. -/
  maxFiles : Option Int := none
deriving DecidableEq, Repr

/-- A relation to be added, or merged into one with the same id. -/
structure Link where
  /-- The relation's kind. -/
  kind : RelationKind
  /-- The id of the classifier it starts from. -/
  sourceId : String
  /-- The id of the classifier it leads to. -/
  targetId : String
  /-- Its tags. -/
  tags : List Tag := []
  /-- Where it is written. -/
  source : Option SourceRef := none
  /-- What tells it apart from relations with the same kind and ends. -/
  discriminator : Option String := none
  /-- Its name. -/
  name : Option String := none
deriving DecidableEq, Repr

/-- A change to a classifier. -/
inductive ClassifierChange where
  /-- Adds a role, unless it is there. -/
  | stereotype (name : String)
  /-- Sets a tag. -/
  | tag (key value : String)
  /-- Adds an attribute, unless one has its id. -/
  | attribute (member : Attribute)
  /-- Adds an operation, unless one has its id. -/
  | operation (member : Operation)
  /-- Gives the attribute of this name the type and the tag of a role, adding it if there is
  none. -/
  | role (member : Attribute) (tag : Tag)
  /-- Sets tags of the attribute of this name, adding it if there is none. -/
  | binding (member : Attribute) (tags : List Tag)

/-- A change to a draft. -/
inductive Edit where
  /-- Sets the bindings of a file. -/
  | bind (file : String) (bindings : Bindings)
  /-- Adds a classifier, unless one has its id, with the packages of its file. -/
  | classifier (file : String) (classifier : Classifier)
  /-- Changes a classifier. -/
  | change (id : String) (change : ClassifierChange)
  /-- Sets what a name declared in a file means, and takes the declaration in. -/
  | declare (scopedName : String) (declaration : Declaration)
  /-- Adds a relation or merges it into one with the same id. -/
  | relate (link : Link)
  /-- Takes a finding. -/
  | find (finding : Finding)
  /-- Notes that the search for a name was given up. -/
  | giveUp

/-- A model under construction. -/
structure Draft where
  /-- The program that the model is about. -/
  program : Program
  /-- What the extraction is asked to do. -/
  options : ExtractOptions
  /-- Findings are taken. -/
  reporting : Bool := true
  /-- What names mean. -/
  symbols : SymbolTable
  /-- Packages by directory. -/
  packages : PackageMap
  /-- Classifiers by id. -/
  classifiers : Ordered Classifier := []
  /-- Relations by id. -/
  relations : Ordered Relation := []
  /-- The declarations taken in. -/
  declarations : List Declaration := []
  /-- The findings taken. -/
  findings : List Finding := []
  /-- The search for a name was given up, and nothing comes of the draft. -/
  givenUp : Bool := false

namespace SourceRef

/-- What decides which of two places comes first: missing numbers count as zero. -/
def sortKey (place : SourceRef) : String × Int × Int :=
  (place.file, place.line.getD 0, place.col.getD 0)

/-- The place comes before another. -/
def isBefore (left right : SourceRef) : Bool :=
  let (leftFile, leftLine, leftCol) := left.sortKey
  let (rightFile, rightLine, rightCol) := right.sortKey
  if leftFile != rightFile then decide (leftFile < rightFile)
  else if leftLine != rightLine then decide (leftLine < rightLine)
  else decide (leftCol < rightCol)

/-- The first of two places, where a missing place comes last. -/
def earliest (old new : Option SourceRef) : Option SourceRef :=
  match old, new with
  | some old, some new => if new.isBefore old then some new else some old
  | some old, none => some old
  | none, new => new

end SourceRef

namespace RelationKind

/-- A relation of this kind from a classifier to itself says nothing. -/
def isIrreflexive : RelationKind → Bool
  | .dependency | .render | .injection | .templateUses => true
  | _ => false

end RelationKind

namespace Link

/-- The id of the relation. -/
def id (link : Link) : String :=
  relationId link.kind link.sourceId link.targetId link.discriminator

/-- The link says nothing and is dropped. -/
def isVoid (link : Link) : Bool :=
  link.sourceId == link.targetId && link.kind.isIrreflexive

/-- The relation that a link makes where there is none. -/
def toRelation (link : Link) : Relation :=
  { id := link.id
    kind := link.kind
    sourceId := link.sourceId
    targetId := link.targetId
    name := link.name
    tags := Tag.unique link.tags
    source := link.source }

end Link

namespace Relation

/-- The relation with a link merged in: tags are united, and the first name and the earliest place
stay. -/
def merge (relation : Relation) (link : Link) : Relation :=
  { relation with
    tags := Tag.unique (relation.tags ++ link.tags)
    name := relation.name <|> link.name
    source := SourceRef.earliest relation.source link.source }

end Relation

namespace ClassifierChange

/-- The classifier after a change. -/
def apply (classifier : Classifier) : ClassifierChange → Classifier
  | .stereotype name => classifier.addStereotype name
  | .tag key value => classifier.setTag key value
  | .attribute member => classifier.addAttribute member
  | .operation member => classifier.addOperation member
  | .role member mark =>
      classifier.updateAttribute member fun old =>
        { old with
          type := member.type
          tags := old.tags.filter (·.key != mark.key) ++ [mark] }
  | .binding member tags =>
      classifier.updateAttribute member fun old =>
        { old with tags := tags.foldl (fun done tag => Tag.set done tag.key tag.value) old.tags }

end ClassifierChange

namespace Draft

/-- The empty draft of a program. -/
def start (program : Program) (options : ExtractOptions) (reporting : Bool) : Draft :=
  { program
    options
    reporting
    symbols :=
      { resolver :=
          { root := program.root
            options := program.options
            files := program.paths } }
    packages := PackageMap.ofFiles program.paths }

/-- The empty draft of a program, if the packages of its files can be built. -/
def ofProgram (program : Program) (options : ExtractOptions) (reporting : Bool) :
    Except Unencodable Draft :=
  (PackageMap.build program.paths).map fun packages =>
    { start program options reporting with packages }

/-- The classifier with an id. -/
def classifier? (draft : Draft) (id : String) : Option Classifier :=
  draft.classifiers.get? id

/-- The name of the classifier with an id. -/
def nameOf (draft : Draft) (id : String) : String :=
  ((draft.classifier? id).map (·.name)).getD ""

/-- The declarations in a file. -/
def declarationsIn (draft : Draft) (file : String) : List Declaration :=
  draft.declarations.filter (·.file == file)

/-- The draft with what the package of a file needs, and the package, if it can be built. -/
def packageFor (draft : Draft) (file : String) : Except Unencodable (Draft × Option Package) :=
  (draft.packages.addFile file).map fun packages =>
    ({ draft with packages }, packages.get? (PackageMap.directoryOf file))

/-- The first path of a file with a classifier that has no encoding. The ids of the classifiers in a
file are made from its path, so no id has been made for this one. -/
def unencodable? (draft : Draft) : Option Unencodable :=
  (Ordered.values draft.classifiers).findSome? fun classifier =>
    (classifier.source.filter (!Text.isEncodable ·.file)).map (⟨·.file⟩)

/-- Adds a classifier, unless one has its id. -/
def addClassifier (draft : Draft) (classifier : Classifier) : Draft :=
  if (draft.classifier? classifier.id).isSome then draft
  else { draft with classifiers := draft.classifiers ++ [(classifier.id, classifier)] }

/-- Changes the classifier with an id. -/
def changeClassifier (draft : Draft) (id : String) (change : ClassifierChange) : Draft :=
  match draft.classifier? id with
  | some classifier =>
      { draft with classifiers := Ordered.set draft.classifiers id (change.apply classifier) }
  | none => draft

/-- Adds a relation or merges it into one with the same id. -/
def relate (draft : Draft) (link : Link) : Draft :=
  if link.isVoid then
    draft
  else
    let relation :=
      match draft.relations.get? link.id with
      | some relation => relation.merge link
      | none => link.toRelation
    { draft with relations := Ordered.set draft.relations link.id relation }

/-- The draft after an edit. -/
def apply (draft : Draft) : Edit → Draft
  | .bind file bindings => { draft with symbols := draft.symbols.setBindings file bindings }
  | .classifier file classifier =>
      { draft with packages := draft.packages.ensureFile file }.addClassifier classifier
  | .change id change => draft.changeClassifier id change
  | .declare scopedName declaration =>
      { draft with
        symbols := draft.symbols.declare declaration.file scopedName
          { classifierId := declaration.classifierId, kind := declaration.shape.kind }
        declarations := draft.declarations ++ [declaration] }
  | .relate link => draft.relate link
  | .find finding =>
      if draft.reporting then { draft with findings := draft.findings ++ [finding] } else draft
  | .giveUp => { draft with givenUp := true }

/-- The draft after a list of edits. -/
def applyAll (draft : Draft) (edits : List Edit) : Draft :=
  edits.foldl apply draft

/-- The model that the draft has become. -/
def toModel (draft : Draft) : Model :=
  { packages := draft.packages.values
    classifiers := draft.classifiers.values
    relations := draft.relations.values }

/-- The full name of something declared in a scope of a file. -/
def qualifiedName (file : String) (scope : List String) (name : String) : String :=
  let directory := PackageMap.directoryOf file
  let front := if directory.isEmpty then [] else [PackageMap.qualifiedName directory]
  String.intercalate "." (front ++ [(Path.ofText file).stem] ++ scope ++ [name])

/-- The module that stands for a source file. -/
def fileModule (file : String) : Classifier :=
  { id := moduleId file
    name := PathText.fileName file
    kind := .module
    qualifiedName := some file
    packageId := some (packageId (PackageMap.directoryOf file))
    stereotypes := [{ name := "SourceFile" }]
    tags := [⟨"source.file", file⟩]
    source := some { file, line := some 1 } }

/-- The edits that follow from what a name means in a scope of a file, unless the search for it is
given up. -/
def withMeaning (draft : Draft) (file name : String) (scope : List String)
    (edits : Option Symbol → List Edit) : List Edit :=
  match draft.symbols.resolve file name scope with
  | .found symbol => edits (some symbol)
  | .absent _ => edits none
  | .exhausted => [.giveUp]

/-- The edits that follow from what a name means where a declaration stands. -/
def withMeaningAt (draft : Draft) (declaration : Declaration) (name : String)
    (edits : Option Symbol → List Edit) : List Edit :=
  draft.withMeaning declaration.file name declaration.scope edits

end Draft

end CodeGraph
