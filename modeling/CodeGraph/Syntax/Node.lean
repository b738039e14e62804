/-!
# Syntax trees

A source file comes with its syntax tree. A node has a kind, the stretch of bytes it spans and its
children; a child may stand in a named field of its parent, and a node may be an anonymous token.
All recursion on trees is structural.
-/

namespace CodeGraph.Syntax

/-- A node of a syntax tree. -/
structure Node where
  /-- The field of the parent that holds the node. -/
  field : Option String
  /-- What the node is. -/
  kind : String
  /-- The node is no anonymous token. -/
  named : Bool
  /-- Offset of the first byte. -/
  start : Nat
  /-- Offset behind the last byte. -/
  stop : Nat
  /-- The nodes directly below. -/
  children : List Node
deriving Repr, Inhabited

namespace Node

/-- The children that are no anonymous tokens. -/
def namedChildren (node : Node) : List Node :=
  node.children.filter (·.named)

/-- The named children that are no comments. -/
def content (node : Node) : List Node :=
  node.namedChildren.filter (·.kind != "comment")

/-- The first child in a field. -/
def childIn? (node : Node) (field : String) : Option Node :=
  node.children.find? (·.field == some field)

/-- The children in a field. -/
def childrenIn (node : Node) (field : String) : List Node :=
  node.children.filter (·.field == some field)

/-- The first named child, comments included. -/
def firstNamed? (node : Node) : Option Node :=
  node.namedChildren.head?

/-- The first named child of a kind. -/
def namedOf? (node : Node) (kind : String) : Option Node :=
  node.namedChildren.find? (·.kind == kind)

/-- The node's kind is one of these. -/
def isOneOf (node : Node) (kinds : List String) : Bool :=
  kinds.contains node.kind

mutual

/-- The node and everything below it, each node before its children. -/
def preorder : Node → List Node
  | ⟨field, kind, named, start, stop, children⟩ =>
      ⟨field, kind, named, start, stop, children⟩ :: preorderAll children

/-- The nodes of a list of trees, one tree after the other. -/
def preorderAll : List Node → List Node
  | [] => []
  | node :: nodes => preorder node ++ preorderAll nodes

end

mutual

/-- The expression inside any number of parentheses; nothing when they are empty. -/
def unwrap? : Node → Option Node
  | ⟨field, kind, named, start, stop, children⟩ =>
      if kind == "parenthesized_expression" then unwrapFirst? children
      else some ⟨field, kind, named, start, stop, children⟩

/-- The expression inside the first named child that is no comment. -/
def unwrapFirst? : List Node → Option Node
  | [] => none
  | node :: nodes =>
      if node.named && node.kind != "comment" then unwrap? node else unwrapFirst? nodes

end

mutual

/-- The number of levels of a tree. -/
def depth : Node → Nat
  | ⟨_, _, _, _, _, children⟩ => depthAll children + 1

/-- The number of levels of the highest tree of a list. -/
def depthAll : List Node → Nat
  | [] => 0
  | node :: nodes => max (depth node) (depthAll nodes)

end

/-- The elements of an array literal without spreads and comments; none for any other node. -/
def arrayEntries (node : Node) : List Node :=
  if node.kind == "array" then
    node.namedChildren.filter fun entry => !entry.isOneOf ["spread_element", "comment"]
  else
    []

end Node

end CodeGraph.Syntax
