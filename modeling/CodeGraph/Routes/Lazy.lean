import CodeGraph.Syntax.Source

/-!
# Lazily loaded route targets

A lazy target is a function that imports a module and, as a rule, picks a name from it.
-/

namespace CodeGraph

open Syntax

/-- What a lazy target loads. -/
structure LazyTarget where
  /-- The module that is imported. -/
  specifier : Option String := none
  /-- The name that is picked from it. -/
  name : Option String := none
deriving DecidableEq, Repr

namespace LazyTarget

/-- The kinds of function expressions. -/
def functionKinds : List String := ["arrow_function", "function_expression", "function"]

/-- The expression that a function returns: its body, or what the first return statement of its
block returns. -/
def returned? (function : Node) : Option Node :=
  match function.childIn? "body" with
  | none => none
  | some body =>
      if body.kind == "statement_block" then
        (body.namedOf? "return_statement").bind fun statement =>
          statement.content.head?.bind (·.unwrap?)
      else
        body.unwrap?

/-- The module that an import call names. -/
def importedModule? (source : Source) (node : Node) : Option String :=
  if node.kind == "call_expression" && (node.childIn? "function").any (·.kind == "import") then
    source.stringValue? ((node.childIn? "arguments").bind (·.firstNamed?))
  else
    none

/-- The name that a callback picks from the imported module. -/
def pickedName? (source : Source) (callback : Node) : Option String :=
  match (if callback.isOneOf functionKinds then returned? callback else none) with
  | some picked =>
      if picked.kind == "member_expression" then some (source.textOf (picked.childIn? "property"))
      else none
  | none => none

/-- Reads a lazy target. -/
def read (source : Source) (node : Option Node) : LazyTarget :=
  let expression := ((node.bind (·.unwrap?)).filter (·.isOneOf functionKinds)).bind returned?
  match expression.filter (·.kind == "call_expression") with
  | none => {}
  | some call =>
      let chained := (call.childIn? "function").filter fun function =>
        function.kind == "member_expression"
          && source.textOf (function.childIn? "property") == "then"
      match chained with
      | none => { specifier := importedModule? source call }
      | some function =>
          let callback := ((call.childIn? "arguments").bind (·.firstNamed?)).bind (·.unwrap?)
          { specifier := (function.childIn? "object").bind (importedModule? source)
            name := callback.bind (pickedName? source) }

end LazyTarget

end CodeGraph
