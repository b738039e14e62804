import CodeGraph.Draft.Links
import CodeGraph.Draft.Members
import CodeGraph.React.Component

/-!
# What React components render and use

Components get their props and state as attributes, contexts the type of their value. Then each
file is searched for rendered components and used contexts; both belong to the innermost
declaration around them. A rendered name that does not resolve is looked for among all components
of the project, and counts as unknown if several have it.
-/

namespace CodeGraph

open Syntax

namespace React

/-- The types of a component's props and state. -/
structure PropTypes where
  /-- The type of the props. -/
  props : Option Node := none
  /-- The type of the state. -/
  state : Option Node := none

/-- The types that a component is declared with. -/
def propTypes (draft : Draft) (declaration : Declaration) : PropTypes :=
  let source := declaration.source
  let kind := (draft.classifier? declaration.classifierId).bind (·.tag? "react.componentKind")
  if kind == some "class" then
    let arguments := (componentBase? source declaration.node).getD []
    { props := arguments[0]?, state := arguments[1]? }
  else
    let written :=
      if declaration.node.kind == "variable_declarator" then declaration.node.childIn? "type"
      else none
    match (componentType? source written).getD none with
    | some props => { props := some props }
    | none =>
        let first := ((declaration.function.bind (·.childIn? "parameters")).bind fun parameters =>
          parameters.namedChildren.find? (·.isOneOf ["required_parameter", "optional_parameter"]))
        { props := (first.bind (·.childIn? "type")).bind (·.firstNamed?) }

/-- The edits that make a type the attribute of a role. -/
def roleEdits (draft : Draft) (declaration : Declaration) (role : String) (type : Option Node) :
    List Edit :=
  match type with
  | none => []
  | some node =>
      let source := declaration.source
      let member := Members.attributeOf declaration role (TypeReading.reference source node) node {}
      [.change declaration.classifierId (.role member ⟨"react.role", role⟩),
        .change declaration.classifierId
          (.tag ("react." ++ role ++ "Type") (Text.collapse (source.text node)))]
        ++ Links.ofType draft declaration (some node) role "typeRef" true

/-- The edits that mark a classifier as a part of a React application. -/
def markEdits (declaration : Declaration) (stereotype : String) : List Edit :=
  [.change declaration.classifierId (.stereotype stereotype),
    .change declaration.classifierId (.tag "framework" "react")]

/-- The edits of a component. -/
def componentEdits (draft : Draft) (declaration : Declaration) : List Edit :=
  let types := propTypes draft declaration
  markEdits declaration "ReactComponent" ++ roleEdits draft declaration "props" types.props
    ++ roleEdits draft declaration "state" types.state

/-- The edits of a context. -/
def contextEdits (declaration : Declaration) : List Edit :=
  let argument := ((declaration.node.childIn? "value").bind (·.unwrap?)).bind fun value =>
    (value.childIn? "type_arguments").bind (·.firstNamed?)
  let type := argument <|> declaration.node.childIn? "type"
  markEdits declaration "ReactContext"
    ++ (type.map fun node =>
        Edit.change declaration.classifierId
          (.tag "react.contextType" (Text.collapse (declaration.source.text node)))).toList

/-- The declaration is that of a component. -/
def isComponent (declaration : Declaration) : Bool :=
  declaration.shape == .functionComponent || declaration.shape == .classComponent

/-- The edits that describe components and contexts. -/
def descriptionEdits (draft : Draft) : List Edit :=
  (draft.declarations.filter isComponent).flatMap (componentEdits draft)
    ++ (draft.declarations.filter (·.shape == .reactContext)).flatMap contextEdits

/-- The declaration comes no later than another: by start, and around before inside. -/
def spanLe (left right : Declaration) : Bool :=
  if left.node.start == right.node.start then decide (right.node.stop ≤ left.node.stop)
  else decide (left.node.start ≤ right.node.start)

/-- The innermost declaration around a node: the last one in order that spans it. -/
def ownerOf? (declarations : List Declaration) (node : Node) : Option Declaration :=
  ((declarations.mergeSort spanLe).filter fun declaration =>
    declaration.node.start ≤ node.start && node.stop ≤ declaration.node.stop).getLast?

/-- Adds a candidate to an index of names: a second one that is another classifier makes the name
ambiguous. -/
def addCandidate (index : Ordered (Option String)) (name id : String) : Ordered (Option String) :=
  match index.get? name with
  | some known => Ordered.set index name (if known == some id then some id else none)
  | none => Ordered.set index name (some id)

/-- The components of the project by name; nothing for a name that is ambiguous. -/
def componentIndex (draft : Draft) : Ordered (Option String) :=
  draft.declarations.foldl (fun index declaration =>
    match draft.classifier? declaration.classifierId with
    | some classifier =>
        if classifier.kind == .component && classifier.hasStereotype "ReactComponent" then
          addCandidate index classifier.name classifier.id
        else
          index
    | none => index) []

/-- The classifier that a name means, if it is a context. -/
def context? (draft : Draft) (symbol : Option Symbol) : Option Classifier :=
  (symbol.bind fun symbol => draft.classifier? symbol.classifierId).filter
    (·.hasStereotype "ReactContext")

/-- The edits of one use of a context. -/
def contextUse (draft : Draft) (source : Source) (owner : Declaration) (name origin : String)
    (node : Node) : List Edit :=
  draft.withMeaning source.path name owner.scope fun symbol =>
    match context? draft symbol with
    | some context =>
        if draft.options.includeFrameworkEdges then
          [.relate
            { kind := .injection
              sourceId := owner.classifierId
              targetId := context.id
              tags := [⟨"origin", origin⟩]
              source := some (source.place node) }]
        else
          []
    | none =>
        if draft.symbols.isExternal source.path name then
          []
        else
          let front :=
            if origin == "useContext" then "useContext('" ++ name ++ "')"
            else "JSX " ++ origin ++ " for '" ++ name ++ "'"
          [.find (Finding.atLine .unresolvedContext
            (front ++ " but no matching context classifier was found") source.path
            (source.lineOf node)
            [("owner", draft.nameOf owner.classifierId), ("context", name), ("origin", origin)])]

/-- The edits of one call: those of a used context, if the call uses one. -/
def callEdits (draft : Draft) (source : Source) (owners : List Declaration) (node : Node) :
    List Edit :=
  if ["useContext", "React.useContext"].contains (source.textOf (node.childIn? "function")) then
    match (node.childIn? "arguments").bind (·.firstNamed?), ownerOf? owners node with
    | some first, some owner =>
        if first.isOneOf ["identifier", "member_expression"] then
          contextUse draft source owner (source.text first) "useContext" node
        else
          []
    | _, _ => []
  else
    []

/-- The role that the last segment of a tag gives a context. -/
def contextRole? (segment : String) : Option String :=
  if segment == "Provider" then some "provider"
  else if segment == "Consumer" then some "consumer"
  else none

/-- What a rendered name leads to: what it means, or else the one component of that name, unless the
name is dotted or comes from outside of the project. -/
def rendered? (draft : Draft) (index : Ordered (Option String)) (tag : String)
    (symbol : Option Symbol) (isExternal : Bool) : Option Classifier :=
  match symbol with
  | some symbol => draft.classifier? symbol.classifierId
  | none =>
      if isExternal || tag.toList.contains '.' then none
      else ((index.get? tag).getD none).bind draft.classifier?

/-- The finding about a rendered name that leads nowhere, unless it is a member of something that
the file knows. -/
def unknownTag (draft : Draft) (source : Source) (owner : Declaration) (tag : String)
    (node : Node) : List Edit :=
  let finding := Edit.find (Finding.atLine .unresolvedJsxComponent
    ("JSX renders '" ++ tag ++ "' but no matching component classifier was found")
    source.path (source.lineOf node)
    [("owner", draft.nameOf owner.classifierId), ("component", tag), ("origin", "jsx")])
  if tag.toList.contains '.' then
    draft.withMeaning source.path (Text.firstPiece '.' tag) owner.scope fun
      | some _ => []
      | none => [finding]
  else
    [finding]

/-- The edits of one rendered component. -/
def renderEdits (draft : Draft) (index : Ordered (Option String)) (source : Source)
    (owner : Declaration) (tag : String) (node : Node) : List Edit :=
  draft.withMeaning source.path tag owner.scope fun symbol =>
    let isExternal := symbol.isNone && draft.symbols.isExternal source.path tag
    match rendered? draft index tag symbol isExternal with
    | some target =>
        if target.kind == .component && draft.options.includeFrameworkEdges then
          [.relate
            { kind := .render
              sourceId := owner.classifierId
              targetId := target.id
              tags := [⟨"origin", "jsx"⟩]
              source := some (source.place node) }]
        else
          []
    | none => if symbol.isSome || isExternal then [] else unknownTag draft source owner tag node

/-- The edits of one JSX element. -/
def elementEdits (draft : Draft) (index : Ordered (Option String)) (source : Source)
    (owners : List Declaration) (node : Node) : List Edit :=
  let tag := (tagName? source node).getD ""
  if tag.isEmpty || ["Fragment", "React.Fragment"].contains tag then
    []
  else
    match ownerOf? owners node with
    | none => []
    | some owner =>
        let base := Text.beforeLast '.' tag
        match (contextRole? (Text.lastPiece '.' tag)).filter fun _ => !base.isEmpty with
        | some role => contextUse draft source owner base role node
        | none =>
            let renders := (draft.classifier? owner.classifierId).any (·.kind == .component)
            if renders && isPascalCase (Text.firstPiece '.' tag) then
              renderEdits draft index source owner tag node
            else
              []

/-- The edits of what a file renders and uses. -/
def useEdits (draft : Draft) (index : Ordered (Option String)) (source : Source) : List Edit :=
  let owners := (draft.declarationsIn source.path).filter (·.shape != .reactContext)
  source.root.preorder.flatMap fun node =>
    if node.kind == "call_expression" then callEdits draft source owners node
    else if node.isOneOf jsxElements then elementEdits draft index source owners node
    else []

end React

namespace Draft

/-- The draft with what it says about React components and contexts. -/
def addReact (draft : Draft) : Draft :=
  let described := draft.applyAll (React.descriptionEdits draft)
  let index := React.componentIndex described
  described.applyAll (described.program.sources.flatMap (React.useEdits described index))

end Draft

end CodeGraph
