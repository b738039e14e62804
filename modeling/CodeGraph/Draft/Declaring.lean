import CodeGraph.Angular.Decorator
import CodeGraph.Draft.Draft
import CodeGraph.React.Component

/-!
# Declaring classifiers

Each statement at the top of a file or of a namespace may declare classifiers. What it declares
and with which shape depends on the syntax and on the frameworks that are read, and on nothing
else, so the edits of a file can be told without looking at a draft.
-/

namespace CodeGraph

open Syntax

namespace Declaring

/-- The kinds of nodes that are classes. -/
def classKinds : List String := ["class_declaration", "abstract_class_declaration", "class"]

/-- The kinds of nodes that are namespaces. -/
def namespaceKinds : List String := ["internal_module", "module"]

/-- The kinds of nodes that declare functions. -/
def functionKinds : List String :=
  ["function_declaration", "generator_function_declaration", "function_expression", "function"]

/-- A node that may declare classifiers. -/
structure Candidate where
  /-- The node. -/
  node : Node
  /-- The statement around it. -/
  wrapper : Node
  /-- The namespaces around it. -/
  scope : List String
  /-- The statement exports it. -/
  exported : Bool

/-- The node that an export statement exports. -/
def exportedNode? (statement : Node) : Option Node :=
  statement.childIn? "declaration" <|> statement.childIn? "value"
    <|> statement.namedChildren.find? (·.isOneOf classKinds)

/-- The declaring node of a statement: inside of an export, then of an ambient declaration, then of
an expression that is a namespace. -/
def declaringNode? (statement : Node) : Option Node := do
  let node ←
    if statement.kind == "export_statement" then exportedNode? statement else some statement
  let node ← if node.kind == "ambient_declaration" then node.content.head? else some node
  if node.kind == "expression_statement" then
    match node.content with
    | [inner] => if inner.isOneOf namespaceKinds then some inner else none
    | _ => none
  else
    some node

/-- The candidates among the statements of a container. The first argument bounds the number of
namespaces on the way. -/
def candidatesWithin (source : Source) : (fuel : Nat) → List String → Node → List Candidate
  | 0, _, _ => []
  | fuel + 1, scope, container =>
      container.namedChildren.flatMap fun statement =>
        match declaringNode? statement with
        | none => []
        | some node =>
            if node.isOneOf namespaceKinds then
              let name := Text.trimAll ['\x27', '\x22'] (source.textOf (node.childIn? "name"))
              match node.childIn? "body" with
              | some body =>
                  if name.isEmpty then []
                  else candidatesWithin source fuel (scope ++ Text.split '.' name) body
              | none => []
            else
              [{ node, wrapper := statement, scope,
                 exported := statement.kind == "export_statement" }]

/-- The candidates of a file. -/
def candidates (source : Source) : List Candidate :=
  candidatesWithin source source.root.depth [] source.root

/-- What a candidate declares. -/
structure Declared where
  /-- The shape. -/
  shape : Shape
  /-- The declaring node. -/
  node : Node
  /-- The name. -/
  name : String
  /-- The function behind it. -/
  function : Option Node := none
  /-- The decorator that gives it its shape. -/
  decorator : Option Node := none

/-- The shape of a class, with the decorator that gives it. -/
def classShape (options : ExtractOptions) (source : Source) (candidate : Candidate) :
    Shape × Option Node :=
  let decorated :=
    if options.angular then Angular.classDecorator? source candidate.node candidate.wrapper
    else none
  match decorated with
  | some (part, decorator) => (part.shape, some decorator)
  | none =>
      if options.react && (React.componentBase? source candidate.node).isSome then
        (.classComponent, none)
      else if candidate.node.kind == "abstract_class_declaration" then
        (.abstractClass, none)
      else
        (.plainClass, none)

/-- The shape of a variable and the function behind it; most variables have none. -/
def variableShape? (options : ExtractOptions) (source : Source) (declarator : Node) :
    Option (Shape × Option Node) :=
  match (declarator.childIn? "value").bind (·.unwrap?) with
  | none => none
  | some value =>
      let isFunction := value.isOneOf React.functionKinds
      let plain := if isFunction then some (Shape.arrowFunction, some value) else none
      if options.react then
        if React.isCreateContext source value then
          some (.reactContext, none)
        else if React.isPascalCase (source.textOf (declarator.childIn? "name")) then
          match React.componentFunction? source value with
          | some function => some (.functionComponent, some function)
          | none =>
              if (React.componentType? source (declarator.childIn? "type")).isSome then
                some (.functionComponent, if isFunction then some value else none)
              else
                plain
        else
          plain
      else
        plain

/-- What a candidate declares. -/
def declared (options : ExtractOptions) (source : Source) (candidate : Candidate) : List Declared :=
  let node := candidate.node
  let name := source.textOf (node.childIn? "name")
  let all :=
    if node.isOneOf classKinds then
      let (shape, decorator) := classShape options source candidate
      [{ shape, node, name, decorator }]
    else if node.kind == "interface_declaration" then
      [{ shape := .interface, node, name }]
    else if node.kind == "enum_declaration" then
      [{ shape := .enum, node, name }]
    else if node.kind == "type_alias_declaration" then
      [{ shape := .typeAlias, node, name }]
    else if node.isOneOf functionKinds then
      let isComponent := options.react && React.isPascalCase name && React.returnsJsx node
      [{ shape := if isComponent then .functionComponent else .function, node, name,
         function := some node }]
    else if node.isOneOf Source.variableKinds then
      (node.namedChildren.filter (·.kind == "variable_declarator")).filterMap fun declarator =>
        match declarator.childIn? "name" with
        | some nameNode =>
            if nameNode.kind == "identifier" then
              (variableShape? options source declarator).map fun (shape, function) =>
                { shape, node := declarator, name := source.text nameNode, function }
            else
              none
        | none => none
    else
      []
  all.filter (!·.name.isEmpty)

/-- The tag that a shape gives its classifier. -/
def shapeTag? : Shape → Option Tag
  | .abstractClass => some ⟨"ts.abstract", "true"⟩
  | .functionComponent => some ⟨"react.componentKind", "function"⟩
  | .classComponent => some ⟨"react.componentKind", "class"⟩
  | _ => none

/-- The edits that declare one name. -/
def declareEdits (source : Source) (exportedNames : List String) (candidate : Candidate)
    (item : Declared) : List Edit :=
  let kind := item.shape.kind
  let qualifiedName := Draft.qualifiedName source.path candidate.scope item.name
  let scopedName := String.intercalate "." (candidate.scope ++ [item.name])
  let exported := candidate.exported || exportedNames.contains scopedName
  let id := classifierId kind qualifiedName
  let classifier : Classifier :=
    { id
      name := item.name
      kind
      qualifiedName := some qualifiedName
      packageId := some (packageId (PackageMap.directoryOf source.path))
      visibility := some (if exported then .everyone else .samePackage)
      source := some (source.place candidate.wrapper) }
  let declaration : Declaration :=
    { shape := item.shape
      source
      node := item.node
      name := item.name
      scope := candidate.scope
      classifierId := id
      wrapper := candidate.wrapper
      function := item.function
      decorator := item.decorator }
  [.classifier source.path classifier]
    ++ ((shapeTag? item.shape).map fun tag => Edit.change id (.tag tag.key tag.value)).toList
    ++ [.declare scopedName declaration]

/-- The edits that declare what a file declares. -/
def fileEdits (options : ExtractOptions) (source : Source) : List Edit :=
  let exportedNames := source.bindings.exports.values
  (candidates source).flatMap fun candidate =>
    (declared options source candidate).flatMap (declareEdits source exportedNames candidate)

/-- The edits that bind the names of all files and declare what they declare. -/
def edits (program : Program) (options : ExtractOptions) : List Edit :=
  program.files.map (fun source => Edit.bind source.path source.bindings)
    ++ program.sources.flatMap (fileEdits options)

end Declaring

namespace Draft

/-- The draft with everything that its program declares. -/
def declareAll (draft : Draft) : Draft :=
  draft.applyAll (Declaring.edits draft.program draft.options)

end Draft

end CodeGraph
