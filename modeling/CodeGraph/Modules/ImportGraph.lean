import CodeGraph.Draft.Draft

/-!
# The import graph

Every import, export from elsewhere and required module with a literal specifier joins two files.
The files on both sides become modules, and the reference becomes a dependency between them.
-/

namespace CodeGraph

open Syntax

namespace Modules

/-- How a file refers to a module. -/
inductive ReferenceOrigin where
  /-- An import or an export from elsewhere. -/
  | imported
  /-- A required module. -/
  | required
deriving DecidableEq, Repr

/-- A literal reference to a module. -/
structure ModuleReference where
  /-- The written specifier. -/
  specifier : String
  /-- How the module is referred to. -/
  origin : ReferenceOrigin
  /-- The referring node. -/
  node : Node

namespace ReferenceOrigin

/-- The origin's name in tags. -/
def label : ReferenceOrigin → String
  | .imported => "import"
  | .required => "require"

end ReferenceOrigin

/-- The value of a plain string literal. -/
def plainString? (source : Source) (node : Option Node) : Option String :=
  (node.filter (·.kind == "string")).map source.unquoted

/-- The first argument of a call, comments aside. -/
def leadingArgument? (call : Node) : Option Node :=
  (call.childIn? "arguments").bind (·.content.head?)

/-- How a call refers to a module, if it does. -/
def callOrigin? (source : Source) (call : Node) : Option ReferenceOrigin :=
  (call.childIn? "function").bind fun function =>
    if function.kind == "identifier" && source.text function == "require" then some .required
    else if function.kind == "import" then some .imported
    else none

/-- The module that a node refers to. -/
def referenceOf? (source : Source) (node : Node) : Option ModuleReference :=
  if node.isOneOf ["import_statement", "export_statement"] then
    (plainString? source (node.childIn? "source")).map fun specifier =>
      { specifier, origin := .imported, node }
  else if node.kind == "import_require_clause" then
    (plainString? source (node.childIn? "source" <|> node.namedOf? "string")).map fun specifier =>
      { specifier, origin := .required, node }
  else if node.kind == "call_expression" then
    (callOrigin? source node).bind fun origin =>
      (plainString? source (leadingArgument? node)).map fun specifier => { specifier, origin, node }
  else
    none

/-- The modules that a file refers to, in written order. -/
def references (source : Source) : List ModuleReference :=
  source.root.preorder.filterMap (referenceOf? source)

namespace ModuleReference

/-- The reference as findings show it. -/
def text (reference : ModuleReference) : String :=
  match reference.origin with
  | .imported => "import '" ++ reference.specifier ++ "'"
  | .required => "require('" ++ reference.specifier ++ "')"

/-- The edits of a reference that leads to a file: both modules and the dependency. -/
def linkEdits (reference : ModuleReference) (source : Source) (target : String) : List Edit :=
  [.classifier source.path (Draft.fileModule source.path),
    .classifier target (Draft.fileModule target),
    .relate
      { kind := .dependency
        sourceId := moduleId source.path
        targetId := moduleId target
        tags := [⟨"origin", reference.origin.label⟩, ⟨"specifier", reference.specifier⟩]
        source := some (source.place reference.node)
        discriminator := some (reference.origin.label ++ ":" ++ reference.specifier) }]

/-- The edits of a reference; a relative one that leads nowhere is a finding. -/
def edits (reference : ModuleReference) (resolver : ModuleResolver) (source : Source) :
    List Edit :=
  match resolver.resolve? reference.specifier source.path with
  | some target => reference.linkEdits source target
  | none =>
      if ModuleResolver.isRelative reference.specifier then
        [.find (Finding.atLine .unresolvedImport
          ("Unresolved " ++ reference.text ++ " from " ++ source.path)
          source.path (source.lineOf reference.node)
          [("specifier", reference.specifier), ("origin", reference.origin.label)])]
      else
        []

end ModuleReference

end Modules

namespace Draft

/-- The draft with a module per connected file and the dependencies between them. -/
def addImportGraph (draft : Draft) : Draft :=
  draft.applyAll (draft.program.sources.flatMap fun source =>
    (Modules.references source).flatMap fun reference =>
      reference.edits draft.symbols.resolver source)

end Draft

end CodeGraph
