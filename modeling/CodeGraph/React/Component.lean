import CodeGraph.Syntax.Source

/-!
# React components in the syntax

A component is a function that returns JSX, possibly wrapped in a call that keeps it a component,
or a class that extends one of the component classes. A context is what a call to
`createContext` makes.
-/

namespace CodeGraph

open Syntax

namespace React

/-- The letter is one of A to Z. -/
def isCapital (char : Char) : Bool :=
  'A' ≤ char && char ≤ 'Z'

/-- The text begins with a capital and goes on with letters, digits and underscores, all of them in
ASCII; a line feed may end it. -/
def isPascalCase (name : String) : Bool :=
  match name.toList with
  | first :: rest =>
      let body := if rest.getLast? == some '\n' then rest.dropLast else rest
      isCapital first && body.all fun char => char.isAlphanum || char == '_'
  | [] => false

/-- The kinds of JSX nodes that a component returns. -/
def jsxRoots : List String := ["jsx_element", "jsx_self_closing_element", "jsx_fragment"]

/-- The kinds of JSX nodes that have a tag. -/
def jsxElements : List String := ["jsx_element", "jsx_self_closing_element"]

/-- The kinds of function expressions. -/
def functionKinds : List String := ["arrow_function", "function_expression", "function"]

/-- The classes that class components extend. -/
def componentBases : List String :=
  ["React.Component", "Component", "React.PureComponent", "PureComponent"]

/-- The types of variables that are function components. -/
def componentTypes : List String :=
  ["React.FC", "FC", "React.FunctionComponent", "FunctionComponent"]

/-- The functions that make a component out of a component. -/
def wrapperCalls : List String := ["memo", "React.memo", "forwardRef", "React.forwardRef"]

/-- The expression is JSX, parentheses aside. -/
def isJsx (node : Node) : Bool :=
  node.unwrap?.any (·.isOneOf jsxRoots)

/-- The function's body is JSX, or a statement at the top of its body returns JSX. -/
def returnsJsx (function : Node) : Bool :=
  match function.childIn? "body" with
  | none => false
  | some body =>
      if body.kind == "statement_block" then
        body.namedChildren.any fun statement =>
          statement.kind == "return_statement" && statement.content.head?.any isJsx
      else
        isJsx body

mutual

/-- The function that renders the component behind an expression: the expression itself, or what
stands in parentheses or in a wrapper call. -/
def componentFunction? (source : Source) : Node → Option Node
  | ⟨field, kind, named, start, stop, children⟩ =>
      let node : Node := ⟨field, kind, named, start, stop, children⟩
      if kind == "parenthesized_expression" then
        functionInside? source children
      else if node.isOneOf functionKinds then
        if returnsJsx node then some node else none
      else if kind == "call_expression"
          && wrapperCalls.contains (source.textOf (node.childIn? "function")) then
        functionInArguments? source children
      else
        none

/-- The component function in the first named child that is no comment. -/
def functionInside? (source : Source) : List Node → Option Node
  | [] => none
  | node :: nodes =>
      if node.named && node.kind != "comment" then componentFunction? source node
      else functionInside? source nodes

/-- The component function among the children of the node that holds the arguments. -/
def functionInArguments? (source : Source) : List Node → Option Node
  | [] => none
  | ⟨field, _, _, _, _, children⟩ :: nodes =>
      if field == some "arguments" then firstFunction? source children
      else functionInArguments? source nodes

/-- The first component function among named nodes. -/
def firstFunction? (source : Source) : List Node → Option Node
  | [] => none
  | node :: nodes =>
      if node.named then
        match componentFunction? source node with
        | some function => some function
        | none => firstFunction? source nodes
      else
        firstFunction? source nodes

end

/-- The component type that a variable is declared with: its type of props, if it has one. -/
def componentType? (source : Source) (written : Option Node) : Option (Option Node) :=
  let type? := written.bind fun node =>
    if node.kind == "type_annotation" then node.firstNamed? else some node
  match type? with
  | none => none
  | some type =>
      if type.isOneOf ["type_identifier", "nested_type_identifier"] then
        if componentTypes.contains (source.text type) then some none else none
      else if type.kind == "generic_type"
          && componentTypes.contains (source.textOf (type.childIn? "name")) then
        some ((type.childIn? "type_arguments").bind (·.firstNamed?))
      else
        none

/-- The type arguments of the component class that a class extends. -/
def componentBase? (source : Source) (classNode : Node) : Option (List Node) :=
  let clauses :=
    (classNode.namedChildren.filter (·.kind == "class_heritage")).flatMap fun heritage =>
      heritage.namedChildren.filter (·.kind == "extends_clause")
  match clauses.head? with
  | none => none
  | some clause =>
      if componentBases.contains (source.textOf (clause.childIn? "value")) then
        some (((clause.childIn? "type_arguments").map (·.namedChildren)).getD [])
      else
        none

/-- The expression makes a context. -/
def isCreateContext (source : Source) (node : Node) : Bool :=
  node.unwrap?.any fun value =>
    let callee := source.textOf (value.childIn? "function")
    value.kind == "call_expression"
      && (callee == "createContext" || Text.endsWith callee ".createContext")

/-- The tag of a JSX element; fragments have none. -/
def tagName? (source : Source) (node : Node) : Option String :=
  let opening :=
    if node.kind == "jsx_element" then
      node.childIn? "open_tag" <|> node.namedOf? "jsx_opening_element"
    else
      some node
  (opening.bind (·.childIn? "name")).map source.text

end React

end CodeGraph
