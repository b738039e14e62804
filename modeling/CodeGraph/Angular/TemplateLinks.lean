import CodeGraph.Angular.Decorator
import CodeGraph.Angular.Template
import CodeGraph.Draft.Draft

/-!
# Links from components to what their templates use

The template of a component is written in its decorator or in a file that the decorator names.
Each use that leads to a class of the project becomes a relation.
-/

namespace CodeGraph

open Syntax

namespace Angular

/-- Where the template of a component is. -/
inductive TemplatePlace where
  /-- It is written in the decorator. -/
  | inline (template : String)
  /-- The decorator names its file. -/
  | file (url : String)
deriving DecidableEq, Repr

/-- Where the decorator of a component puts its template. -/
def templatePlace? (source : Source) (decorator : Node) : Option TemplatePlace :=
  (metadata? source decorator).bind fun details =>
    match source.stringValue? (source.property? details "template") with
    | some template => some (.inline template)
    | none =>
        (source.stringValue? (source.property? details "templateUrl")).map TemplatePlace.file

/-- The path of a template's file from the project's root. -/
def templatePath (source : Source) (url : String) : String :=
  PathText.normalize (PathText.join source.directory url)

/-- The relation of one use. -/
def useEdits (index : TemplateIndex) (declaration : Declaration) (decorator : Node) (origin : Tag)
    (use : TemplateUse) : List Edit :=
  match index.get? use with
  | none => []
  | some target =>
      [.relate
        { kind := .templateUses
          sourceId := declaration.classifierId
          targetId := target.id
          name := some use.name
          tags :=
            [⟨"origin", "template"⟩, ⟨"role", "uses"⟩, ⟨"template.refKind", use.kind.label⟩,
              ⟨"template.refName", use.name⟩, origin]
          source := some (declaration.source.place decorator)
          discriminator := some (use.kind.label ++ ":" ++ use.name) }]

/-- The relations of what a template uses, where framework relations are asked for. -/
def templateEdits (draft : Draft) (index : TemplateIndex) (declaration : Declaration)
    (decorator : Node) (template : String) (origin : Tag) : List Edit :=
  if draft.options.includeFrameworkEdges then
    (templateUses template).flatMap (useEdits index declaration decorator origin)
  else
    []

/-- The edits of a component's template; a file that cannot be read is a finding. -/
def componentEdits (draft : Draft) (index : TemplateIndex) (declaration : Declaration)
    (decorator : Node) : List Edit :=
  match templatePlace? declaration.source decorator with
  | none => []
  | some (.inline template) =>
      templateEdits draft index declaration decorator template ⟨"template.inline", "true"⟩
  | some (.file url) =>
      let path := templatePath declaration.source url
      match draft.program.tree.file? (draft.program.root.below path) with
      | some content =>
          templateEdits draft index declaration decorator content.lenientText
            ⟨"template.file", path⟩
      | none =>
          [.find (Finding.atLine .note ("Component templateUrl not found: " ++ url)
            declaration.file (declaration.source.lineOf decorator)
            [("owner", draft.nameOf declaration.classifierId), ("templateUrl", url)])]

end Angular

namespace Draft

/-- The declarations of decorated classes. -/
def decorated (draft : Draft) : List (Declaration × Node) :=
  draft.declarations.filterMap fun declaration =>
    declaration.decorator.map fun decorator => (declaration, decorator)

/-- The index of the classes that templates can use. -/
def templateIndex (draft : Draft) : Angular.TemplateIndex :=
  Angular.TemplateIndex.ofClassifiers
    (draft.decorated.filterMap fun (declaration, _) =>
      (draft.classifier? declaration.classifierId).map fun classifier =>
        (declaration.shape, classifier))

/-- The draft with what the templates of its components use. -/
def addAngularTemplates (draft : Draft) : Draft :=
  let index := draft.templateIndex
  let components := draft.decorated.filter fun (declaration, _) =>
    declaration.shape == .angularComponent
  draft.applyAll (components.flatMap fun (declaration, decorator) =>
    Angular.componentEdits draft index declaration decorator)

end Draft

end CodeGraph
