import CodeGraph.Ordered
import CodeGraph.Syntax.Source

/-!
# Import and export bindings

A file binds names by importing them and offers names by exporting them. Both are read off the
statements at the top of its syntax tree. Later bindings of a name replace earlier ones.
-/

namespace CodeGraph

open Syntax

/-- The ways in which a name is imported. -/
inductive BindingKind where
  /-- One exported name. -/
  | named
  /-- The default export. -/
  | default
  /-- All exports under one name. -/
  | namespace
  /-- The module object. -/
  | require
deriving DecidableEq, Repr

namespace BindingKind

/-- The kind's name. -/
def label : BindingKind → String
  | .named => "named"
  | .default => "default"
  | .namespace => "namespace"
  | .require => "require"

end BindingKind

/-- A name that a file imports. -/
structure ImportBinding where
  /-- The name in the importing file. -/
  localName : String
  /-- The module it comes from. -/
  specifier : String
  /-- How it is imported. -/
  kind : BindingKind
  /-- The name in the module, where one is named. -/
  imported : Option String
  /-- The line of the import. -/
  line : Nat
deriving DecidableEq, Repr

/-- A name that a file passes on from another module. -/
structure Reexport where
  /-- The module it comes from. -/
  specifier : String
  /-- The name in the module; none stands for all of its exports. -/
  imported : Option String
deriving DecidableEq, Repr

/-- What a file imports and exports. -/
structure Bindings where
  /-- Imported names. -/
  imports : Ordered ImportBinding := []
  /-- Exported names with the names they have in the file. -/
  exports : Ordered String := []
  /-- Names passed on. -/
  reexports : Ordered Reexport := []
  /-- Modules all of whose exports are passed on. -/
  starExports : List String := []
deriving DecidableEq, Repr, Inhabited

namespace Bindings

/-- Adds an imported name. -/
def addImport (bindings : Bindings) (binding : ImportBinding) : Bindings :=
  { bindings with imports := Ordered.set bindings.imports binding.localName binding }

/-- Adds an exported name. -/
def addExport (bindings : Bindings) (exported localName : String) : Bindings :=
  { bindings with exports := Ordered.set bindings.exports exported localName }

/-- Adds a name passed on. -/
def addReexport (bindings : Bindings) (exported : String) (reexport : Reexport) : Bindings :=
  { bindings with reexports := Ordered.set bindings.reexports exported reexport }

end Bindings

namespace Syntax.Source

/-- The declared name of a node. -/
def nameOf? (source : Source) (node : Node) : Option String :=
  (node.childIn? "name").map source.text

/-- The module that a call requires, when its one string argument names it. -/
def requiredModule? (source : Source) (node : Node) : Option String :=
  if node.kind == "call_expression"
      && (node.childIn? "function").any (source.text · == "require") then
    match (node.childIn? "arguments").map fun arguments =>
        arguments.namedChildren.filter (·.kind == "string") with
    | some [literal] => some (source.unquoted literal)
    | _ => none
  else
    none

/-- The string that names the module of an import assignment. -/
def assignedModule? (clause : Node) : Option Node :=
  clause.childIn? "source" <|> clause.namedOf? "string"

/-- The bindings of one part of an import clause. -/
def clauseImports (source : Source) (specifier : String) (line : Nat) (part : Node) :
    List ImportBinding :=
  if part.kind == "identifier" then
    [⟨source.text part, specifier, .default, some "default", line⟩]
  else if part.kind == "namespace_import" then
    ((part.namedOf? "identifier").map fun name =>
      ⟨source.text name, specifier, .namespace, none, line⟩).toList
  else if part.kind == "named_imports" then
    (part.namedChildren.filter (·.kind == "import_specifier")).map fun entry =>
      let name := source.textOf (entry.childIn? "name")
      let localName := ((entry.childIn? "alias").map source.text).getD name
      ⟨localName, specifier, .named, some name, line⟩
  else
    []

/-- The bindings of an import statement. -/
def importsOf (source : Source) (node : Node) : List ImportBinding :=
  let line := source.lineOf node
  node.namedChildren.flatMap fun child =>
    if child.kind == "import_require_clause" then
      match child.namedOf? "identifier", assignedModule? child with
      | some name, some literal =>
          [⟨source.text name, source.unquoted literal, .require, none, line⟩]
      | _, _ => []
    else
      match node.childIn? "source" with
      | some literal =>
          if child.kind == "import_clause" then
            child.namedChildren.flatMap (source.clauseImports (source.unquoted literal) line)
          else
            []
      | none => []

/-- The bindings of variables that are set to required modules. -/
def requiresOf (source : Source) (node : Node) : List ImportBinding :=
  (node.namedChildren.filter (·.kind == "variable_declarator")).flatMap fun declarator =>
    match (declarator.childIn? "value").bind source.requiredModule?, declarator.childIn? "name" with
    | some specifier, some name =>
        let line := source.lineOf declarator
        if name.kind == "identifier" then
          [⟨source.text name, specifier, .require, none, line⟩]
        else if name.kind == "object_pattern" then
          name.namedChildren.flatMap fun entry =>
            if entry.kind == "shorthand_property_identifier_pattern" then
              [⟨source.text entry, specifier, .named, some (source.text entry), line⟩]
            else if entry.kind == "pair_pattern" then
              match entry.childIn? "value" with
              | some value =>
                  if value.kind == "identifier" then
                    [⟨source.text value, specifier, .named,
                      some (source.textOf (entry.childIn? "key")), line⟩]
                  else
                    []
              | none => []
            else
              []
        else
          []
    | _, _ => []

/-- The kinds of statements that declare variables. -/
def variableKinds : List String := ["lexical_declaration", "variable_declaration"]

mutual

/-- The name that an exported declaration or expression has in the file: an identifier is its own,
variables have none, and what is declared ambiently is looked at in its place. -/
def exportedName? (source : Source) : Node → Option String
  | ⟨field, kind, named, start, stop, children⟩ =>
      let node : Node := ⟨field, kind, named, start, stop, children⟩
      if kind == "ambient_declaration" then firstExportedName? source children
      else if node.isOneOf ["identifier", "type_identifier"] then some (source.text node)
      else if node.isOneOf variableKinds then none
      else source.nameOf? node

/-- The exported name of the first named node. -/
def firstExportedName? (source : Source) : List Node → Option String
  | [] => none
  | node :: nodes =>
      if node.named then exportedName? source node else firstExportedName? source nodes

end

/-- The exports of an exported declaration. -/
def declarationExports (source : Source) (declaration : Node) (isDefault : Bool) :
    List (String × String) :=
  if declaration.isOneOf variableKinds then
    (declaration.namedChildren.filter (·.kind == "variable_declarator")).filterMap fun declarator =>
      match declarator.childIn? "name" with
      | some name =>
          if name.kind == "identifier" then some (source.text name, source.text name) else none
      | none => none
  else
    match source.exportedName? declaration with
    | some name => if name.isEmpty then [] else [(if isDefault then "default" else name, name)]
    | none => []

/-- The kinds of nodes that a default export may declare. -/
def defaultKinds : List String :=
  ["class", "class_declaration", "function_declaration", "function_expression",
    "abstract_class_declaration"]

/-- The name behind a default export. -/
def defaultName? (source : Source) (node : Node) : Option String :=
  match (node.childIn? "value").bind source.exportedName? with
  | some name => some name
  | none => (node.namedChildren.find? (·.isOneOf defaultKinds)).bind source.nameOf?

/-- Adds the names of an export clause. -/
def addClause (source : Source) (specifier : Option String) (clause : Node)
    (bindings : Bindings) : Bindings :=
  (clause.namedChildren.filter (·.kind == "export_specifier")).foldl (fun bindings entry =>
    let name := source.textOf (entry.childIn? "name")
    let exported := ((entry.childIn? "alias").map source.text).getD name
    match specifier with
    | some specifier => bindings.addReexport exported ⟨specifier, some name⟩
    | none => bindings.addExport exported name) bindings

/-- Adds the exports of an export statement. -/
def addExports (source : Source) (node : Node) (bindings : Bindings) : Bindings :=
  let specifier := (node.childIn? "source").map source.unquoted
  let isDefault := node.children.any (·.kind == "default")
  match node.childIn? "declaration" with
  | some declaration =>
      (source.declarationExports declaration isDefault).foldl
        (fun bindings (exported, name) => bindings.addExport exported name) bindings
  | none =>
      if isDefault then
        match source.defaultName? node with
        | some name => if name.isEmpty then bindings else bindings.addExport "default" name
        | none => bindings
      else
        let clause? := node.namedChildren.find? fun child =>
          child.kind == "export_clause" || (child.kind == "namespace_export" && specifier.isSome)
        match clause?, specifier with
        | some clause, some specifier =>
            if clause.kind == "export_clause" then
              source.addClause (some specifier) clause bindings
            else
              match clause.namedChildren.find? (·.isOneOf ["identifier", "string"]) with
              | some name => bindings.addReexport (source.unquoted name) ⟨specifier, none⟩
              | none => bindings
        | some clause, none => source.addClause none clause bindings
        | none, some specifier =>
            if node.children.any (·.kind == "*") then
              { bindings with starExports := bindings.starExports ++ [specifier] }
            else
              bindings
        | none, none => bindings

/-- The exports of an assignment to the module object or to one of its members. -/
def assignedExports (source : Source) (node : Node) : List (String × String) :=
  match node.firstNamed? with
  | none => []
  | some assignment =>
      match assignment.childIn? "left", assignment.childIn? "right" with
      | some left, some right =>
          let target := source.text left
          if assignment.kind != "assignment_expression" then
            []
          else if target == "module.exports" then
            if right.kind == "identifier" then
              [("=", source.text right)]
            else if right.isOneOf ["class", "function_expression"] then
              match source.nameOf? right with
              | some name => if name.isEmpty then [] else [("=", name)]
              | none => []
            else if right.kind == "object" then
              right.namedChildren.filterMap fun entry =>
                if entry.kind == "shorthand_property_identifier" then
                  some (source.text entry, source.text entry)
                else if entry.kind == "pair" then
                  match entry.childIn? "value" with
                  | some value =>
                      if value.kind == "identifier" then
                        some (stripQuotes (source.textOf (entry.childIn? "key")), source.text value)
                      else
                        none
                  | none => none
                else
                  none
            else
              []
          else if (Text.startsWith target "exports." || Text.startsWith target "module.exports.")
              && right.kind == "identifier" then
            [(Text.lastPiece '.' target, source.text right)]
          else
            []
      | _, _ => []

/-- Adds what a top-level statement imports and exports. -/
def addStatement (source : Source) (bindings : Bindings) (node : Node) : Bindings :=
  if node.kind == "import_statement" then
    (source.importsOf node).foldl Bindings.addImport bindings
  else if node.kind == "export_statement" then
    source.addExports node bindings
  else if node.isOneOf variableKinds then
    (source.requiresOf node).foldl Bindings.addImport bindings
  else if node.kind == "expression_statement" then
    (source.assignedExports node).foldl
      (fun bindings (exported, name) => bindings.addExport exported name) bindings
  else
    bindings

/-- What a file imports and exports. -/
def bindings (source : Source) : Bindings :=
  source.root.namedChildren.foldl source.addStatement {}

end Syntax.Source

end CodeGraph
