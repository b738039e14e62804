import CodeGraph.Model.Basic
import CodeGraph.Modules.Bindings
import CodeGraph.Modules.Resolution

/-!
# The symbol table

Declarations are known by file and name, the name with its namespaces in front. A name used in a
file means a declaration of the file, in the innermost scope that has it, or else what the file
imports under its first part. An imported name is followed through exports, names passed on and
whole modules passed on, from file to file. The search remembers what it has asked for and never
asks twice; it asks the alternatives in a fixed order, and the first declaration that it meets is
the answer. An exported name may stand for a dotted one, so a circle can ask for longer and longer
names: a search whose questions stand too deep inside of each other is given up.
-/

namespace CodeGraph

/-- A declaration that a name can mean. -/
structure Symbol where
  /-- The id of the declared classifier. -/
  classifierId : String
  /-- Its kind. -/
  kind : ClassifierKind
deriving DecidableEq, Repr

/-- A question to a file's exports: what does this exported name mean, with these parts behind
it? -/
structure ExportQuery where
  /-- The file that is asked. -/
  file : String
  /-- The exported name. -/
  exported : String
  /-- The parts of the dotted name behind it. -/
  rest : List String
deriving DecidableEq, Repr

/-- What a search ends with. -/
inductive SearchResult where
  /-- The declaration that the name means. -/
  | found (symbol : Symbol)
  /-- No declaration is reached; the questions asked so far. -/
  | absent (asked : List ExportQuery)
  /-- The questions stood too deep inside of each other, and the search was given up. -/
  | exhausted
deriving DecidableEq, Repr

namespace SearchResult

/-- Goes on with an alternative when nothing was found. -/
def orElse (result : SearchResult) (next : List ExportQuery → SearchResult) : SearchResult :=
  match result with
  | .absent asked => next asked
  | other => other

/-- Asks questions one after the other, until one of them leads to a declaration. -/
def firstOf (ask : ExportQuery → List ExportQuery → SearchResult) :
    List ExportQuery → List ExportQuery → SearchResult
  | [], asked => .absent asked
  | query :: queries, asked => (ask query asked).orElse (firstOf ask queries)

end SearchResult

/-- The declarations and bindings of a program. -/
structure SymbolTable where
  /-- How specifiers lead to files. -/
  resolver : ModuleResolver
  /-- Declarations by file and name. -/
  declared : List ((String × String) × Symbol) := []
  /-- Bindings by file. -/
  bindings : Ordered Bindings := []

namespace SymbolTable

/-- How many declarations there are. -/
def size (table : SymbolTable) : Nat :=
  table.declared.length

/-- What a file imports and exports. -/
def bindingsOf (table : SymbolTable) (file : String) : Bindings :=
  (table.bindings.get? file).getD {}

/-- Sets the bindings of a file. -/
def setBindings (table : SymbolTable) (file : String) (bindings : Bindings) : SymbolTable :=
  { table with bindings := Ordered.set table.bindings file bindings }

/-- Sets what a name declared in a file means. -/
def declare (table : SymbolTable) (file name : String) (symbol : Symbol) : SymbolTable :=
  let rec set : List ((String × String) × Symbol) → List ((String × String) × Symbol)
    | [] => [((file, name), symbol)]
    | (key, old) :: rest =>
        if key == (file, name) then (key, symbol) :: rest else (key, old) :: set rest
  { table with declared := set table.declared }

/-- What a name declared in a file means. -/
def lookup? (table : SymbolTable) (file name : String) : Option Symbol :=
  table.declared.lookup (file, name)

/-- The prefixes of a scope, the whole scope first. -/
def scopes (scope : List String) : List (List String) :=
  (List.range (scope.length + 1)).map fun outer => scope.take (scope.length - outer)

/-- The declaration of a dotted name in the innermost scope of a file that has it. -/
def declaredIn? (table : SymbolTable) (file : String) (parts scope : List String) : Option Symbol :=
  (scopes scope).findSome? fun outer =>
    table.lookup? file (String.intercalate "." (outer ++ parts))

/-- The import that binds a name in a file. -/
def importOf? (table : SymbolTable) (file name : String) : Option ImportBinding :=
  (table.bindingsOf file).imports.get? name

/-- The question about the first of some parts among the exports of a file; without parts there is
nothing to ask. -/
def memberQueries (file : String) : List String → List ExportQuery
  | [] => []
  | part :: rest => [{ file, exported := part, rest }]

/-- What a dotted name asks of the module that its first part is imported from. -/
def importQueries (table : SymbolTable) (file : String) (parts : List String) : List ExportQuery :=
  let first := parts.headD ""
  let rest := parts.drop 1
  match table.importOf? file first with
  | none => []
  | some binding =>
      match table.resolver.resolve? binding.specifier file with
      | none => []
      | some target =>
          match binding.kind with
          | .namespace => memberQueries target rest
          | .require =>
              [{ file := target, exported := "=", rest },
                { file := target, exported := "default", rest }]
                ++ memberQueries target rest
          | .named | .default =>
              [{ file := target
                 exported := (binding.imported.filter (!·.isEmpty)).getD first
                 rest }]

/-- The parts of the name that an exported name has in its file, with the parts behind it. -/
def localParts? (table : SymbolTable) (query : ExportQuery) : Option (List String) :=
  ((table.bindingsOf query.file).exports.get? query.exported).map fun localName =>
    Text.split '.' localName ++ query.rest

/-- What a file asks of other modules about an exported name that it passes on. -/
def passedQueries (table : SymbolTable) (query : ExportQuery) : List ExportQuery :=
  let bindings := table.bindingsOf query.file
  match bindings.reexports.get? query.exported with
  | some reexport =>
      match table.resolver.resolve? reexport.specifier query.file with
      | none => []
      | some target =>
          match reexport.imported with
          | none => memberQueries target query.rest
          | some imported => [{ file := target, exported := imported, rest := query.rest }]
  | none =>
      if query.exported == "default" || query.exported == "=" then
        []
      else
        (bindings.starExports.filterMap (table.resolver.resolve? · query.file)).map fun target =>
          { query with file := target }

mutual

/-- Searches what a dotted name means in a scope of a file. The first argument bounds how deep
questions may stand inside of each other. -/
def searchName (table : SymbolTable) : (depth : Nat) → (file : String) →
    (parts scope : List String) → (asked : List ExportQuery) → SearchResult
  | 0, _, _, _, _ => .exhausted
  | depth + 1, file, parts, scope, asked =>
      match table.declaredIn? file parts scope with
      | some symbol => .found symbol
      | none =>
          SearchResult.firstOf (fun query asked => searchExport table depth query asked)
            (table.importQueries file parts) asked

/-- Searches what an exported name of a file means, unless that was asked before. -/
def searchExport (table : SymbolTable) : (depth : Nat) → (query : ExportQuery) →
    (asked : List ExportQuery) → SearchResult
  | 0, _, _ => .exhausted
  | depth + 1, query, asked =>
      if asked.contains query then
        .absent asked
      else
        match table.localParts? query with
        | some parts => searchName table depth query.file parts [] (query :: asked)
        | none =>
            SearchResult.firstOf (fun query asked => searchExport table depth query asked)
              (table.passedQueries query) (query :: asked)

end

/-- Searches what a dotted name means in a scope of a file, with questions no deeper inside of each
other than allowed. -/
def search (table : SymbolTable) (depth : Nat) (file name : String) (scope : List String) :
    SearchResult :=
  if name.isEmpty then .absent []
  else table.searchName depth file (Text.split '.' name) scope []

/-- How deep questions may stand inside of each other. -/
def depthLimit : Nat := 985

/-- What a dotted name means in a scope of a file. -/
def resolve (table : SymbolTable) (file name : String) (scope : List String) : SearchResult :=
  table.search depthLimit file name scope

/-- The name is imported from a package outside of the project. -/
def isExternal (table : SymbolTable) (file name : String) : Bool :=
  match table.importOf? file (Text.firstPiece '.' name) with
  | none => false
  | some binding =>
      !ModuleResolver.isRelative binding.specifier
        && (table.resolver.resolve? binding.specifier file).isNone

end SymbolTable

end CodeGraph
