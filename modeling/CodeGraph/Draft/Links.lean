import CodeGraph.Draft.Draft
import CodeGraph.Types.Reading

/-!
# Links from written types and from code

What a declaration writes as a type or uses in its code gives it relations to what the names
mean. A direct reference is an association; every reference is also a dependency, where
dependencies are asked for.
-/

namespace CodeGraph

open Syntax

namespace Links

/-- A link from a declaration to a symbol, written at a place. -/
def link (declaration : Declaration) (kind : RelationKind) (symbol : Symbol) (tags : List Tag)
    (place : SourceRef) : Edit :=
  .relate
    { kind
      sourceId := declaration.classifierId
      targetId := symbol.classifierId
      tags
      source := some place }

/-- The links of one type name in a member. -/
def ofTypeName (draft : Draft) (declaration : Declaration) (place : SourceRef)
    (member origin : String) (name : String × Bool) : List Edit :=
  draft.withMeaningAt declaration name.1 fun
    | none => []
    | some symbol =>
        (if name.2 then [link declaration .association symbol [⟨"member", member⟩] place] else [])
          ++ (if draft.options.includeDeps then
                [link declaration .dependency symbol [⟨"origin", origin⟩] place]
              else [])

/-- The links of a written type in a member. -/
def ofType (draft : Draft) (declaration : Declaration) (type : Option Node)
    (member origin : String) (direct : Bool) : List Edit :=
  match type with
  | none => []
  | some node =>
      (TypeReading.names declaration.source direct node).flatMap
        (ofTypeName draft declaration (declaration.source.place node) member origin)

/-- The expression whose name a node uses: what is constructed, what is called, or the object a
method is called on. -/
def usedExpression? (node : Node) : Option Node :=
  let target :=
    if node.kind == "new_expression" then
      node.childIn? "constructor"
    else if node.kind == "call_expression" then
      match node.childIn? "function" with
      | some function =>
          if function.kind == "member_expression" then function.childIn? "object" else some function
      | none => none
    else
      none
  target.filter (·.isOneOf ["identifier", "member_expression"])

/-- The links of what a piece of code uses, where dependencies are asked for. -/
def ofUses (draft : Draft) (declaration : Declaration) (body : Option Node) : List Edit :=
  match body with
  | none => []
  | some body =>
      if draft.options.includeDeps then
        body.preorder.flatMap fun node =>
          match usedExpression? node with
          | none => []
          | some target =>
              draft.withMeaningAt declaration (declaration.source.text target) fun
                | none => []
                | some symbol =>
                    [link declaration .dependency symbol [⟨"origin", "usage"⟩]
                      (declaration.source.place node)]
      else
        []

end Links

end CodeGraph
