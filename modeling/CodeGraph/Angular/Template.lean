import CodeGraph.Draft.Declaration
import CodeGraph.Text.Pieces
import CodeGraph.Text.Word

/-!
# Templates

A template uses pipes, elements, attributes and structural directives. Each use is written as an
opening mark, blanks, a name and a closing condition, so a template is read by four scans, one per
kind of use. The index tells which class of the project stands behind a used name.
-/

namespace CodeGraph.Angular

/-- The ways in which a template uses a name. -/
inductive UseKind where
  /-- A value is sent through a pipe. -/
  | pipe
  /-- An element stands in the template. -/
  | element
  /-- An attribute is bound. -/
  | attr
  /-- An attribute changes the structure of the template. -/
  | struct
deriving DecidableEq, Repr

/-- A name used by a template. -/
structure TemplateUse where
  /-- How the name is used. -/
  kind : UseKind
  /-- The used name. -/
  name : String
deriving DecidableEq, Repr

/-- The character may stand in front of a name: a letter or an underscore. -/
def isNameStart (char : Char) : Bool :=
  char.isAlpha || char == '_'

/-- The character may stand in the name of an attribute. -/
def isAttributeChar (char : Char) : Bool :=
  Text.isWord char || char == '-'

/-- The character may stand in the name of an element. -/
def isElementChar (char : Char) : Bool :=
  char.isLower || char.isDigit || char == '-'

/-- A word begins or ends between a character and what follows it. -/
def isWordEdge (char : Char) (rest : List Char) : Bool :=
  Text.isWord char != (rest.head?.any Text.isWord)

/-- The longest name of an element, read in front of `rest` from its last character backwards, that
ends at the edge of a word. -/
def trimToEdge (rest : List Char) : (reversed : List Char) → Option (List Char × List Char)
  | [] => none
  | char :: before =>
      if isWordEdge char rest then some ((char :: before).reverse, rest)
      else trimToEdge (char :: rest) before

/-- A name whose first character satisfies one test and whose further characters satisfy another,
with the rest behind it. -/
def nameWhile? (start inner : Char → Bool) : List Char → Option (List Char × List Char)
  | [] => none
  | char :: rest =>
      if start char then some (char :: rest.takeWhile inner, rest.dropWhile inner) else none

/-- The rest behind a closing mark, which blanks may precede. -/
def behindMark? (mark : Char) (chars : List Char) : Option (List Char) :=
  match chars.dropWhile Text.isBlank with
  | [] => none
  | char :: rest => if char == mark then some rest else none

namespace UseKind

/-- The kind's name in tags. -/
def label : UseKind → String
  | .pipe => "pipe"
  | .element => "element"
  | .attr => "attr"
  | .struct => "struct"

/-- The mark that opens a use. -/
def mark : UseKind → Char
  | .pipe => '|'
  | .element => '<'
  | .attr => '['
  | .struct => '*'

/-- All kinds, in the order in which a template is read for them. -/
def all : List UseKind := [.pipe, .element, .attr, .struct]

/-- The name behind an opening mark and blanks, with the rest behind the whole use. -/
def name? (kind : UseKind) (chars : List Char) : Option (List Char × List Char) :=
  match kind with
  | .pipe => nameWhile? isNameStart Text.isWord chars
  | .element =>
      (nameWhile? Char.isLower isElementChar chars).bind fun (name, rest) =>
        trimToEdge rest name.reverse
  | .attr =>
      (nameWhile? isNameStart isAttributeChar chars).bind fun (name, rest) =>
        (behindMark? ']' rest).map fun rest => (name, rest)
  | .struct =>
      (nameWhile? isNameStart isAttributeChar chars).bind fun (name, rest) =>
        (behindMark? '=' rest).map fun rest => (name, rest)

/-- The names used in one way, from left to right; the first `skip` characters belong to a use
already read. -/
def usesFrom (kind : UseKind) : (skip : Nat) → List Char → List TemplateUse
  | _, [] => []
  | skip + 1, _ :: rest => usesFrom kind skip rest
  | 0, char :: rest =>
      if char == kind.mark then
        match kind.name? (rest.dropWhile Text.isBlank) with
        | some (name, after) =>
            ⟨kind, String.ofList name⟩ :: usesFrom kind (rest.length - after.length) rest
        | none => usesFrom kind 0 rest
      else
        usesFrom kind 0 rest

end UseKind

/-- The uses without those that occur earlier. -/
def distinctUses (uses : List TemplateUse) : List TemplateUse :=
  uses.foldl (fun kept use => if kept.contains use then kept else kept ++ [use]) []

/-- What a template uses, kind after kind, each use once. -/
def templateUses (template : String) : List TemplateUse :=
  distinctUses (UseKind.all.flatMap fun kind => kind.usesFrom 0 template.toList)

/-- The alternatives of a selector. -/
def selectorParts (selector : String) : List String :=
  ((Text.split ',' selector).map Text.trim).filter (!·.isEmpty)

/-- The element that a selector names. -/
def elementSelector? (part : String) : Option String :=
  match nameWhile? Char.isLower isElementChar part.toList with
  | some (_, []) => some part
  | _ => none

/-- The attribute that a selector names: what stands behind its opening bracket. -/
def attributeSelector? (part : String) : Option String :=
  match part.toList with
  | '[' :: rest =>
      (nameWhile? isNameStart isAttributeChar (rest.dropWhile Text.isBlank)).map fun (name, _) =>
        String.ofList name
  | _ => none

/-- The classes of a project by the names that templates use. -/
structure TemplateIndex where
  /-- Pipes by name. -/
  pipes : List (String × Classifier) := []
  /-- Components by element. -/
  elements : List (String × Classifier) := []
  /-- Directives by attribute. -/
  attributes : List (String × Classifier) := []

namespace TemplateIndex

/-- Adds a classifier under names that are not taken. -/
def addNames (table : List (String × Classifier)) (names : List String) (classifier : Classifier) :
    List (String × Classifier) :=
  names.foldl
    (fun done name =>
      if (done.lookup name).isSome then done else done ++ [(name, classifier)])
    table

/-- The index with a classifier of a shape taken in; the first class keeps a name. -/
def insert (index : TemplateIndex) (shape : Shape) (classifier : Classifier) : TemplateIndex :=
  let parts := selectorParts ((classifier.tag? "angular.selector").getD "")
  match shape with
  | .angularPipe =>
      let name := ((classifier.tag? "angular.pipeName").filter (!·.isEmpty)).getD classifier.name
      { index with pipes := addNames index.pipes [name] classifier }
  | .angularComponent =>
      { index with
        elements := addNames index.elements (parts.filterMap elementSelector?) classifier }
  | .angularDirective =>
      { index with
        attributes := addNames index.attributes (parts.filterMap attributeSelector?) classifier }
  | _ => index

/-- The index of classifiers with their shapes. -/
def ofClassifiers (classifiers : List (Shape × Classifier)) : TemplateIndex :=
  classifiers.foldl (fun index (shape, classifier) => index.insert shape classifier) {}

/-- The class behind a use. -/
def get? (index : TemplateIndex) (use : TemplateUse) : Option Classifier :=
  match use.kind with
  | .pipe => index.pipes.lookup use.name
  | .element => index.elements.lookup use.name
  | .attr | .struct => index.attributes.lookup use.name

end TemplateIndex

end CodeGraph.Angular
