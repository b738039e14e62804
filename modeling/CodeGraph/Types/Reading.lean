import CodeGraph.Model.Basic
import CodeGraph.Syntax.Source

/-!
# Reading written types

A written type is read in two ways: as a reference that keeps its shape, and as the list of the
type names in it. A name is referred to directly when it stands at the top, as an element of an
array or as a member of a union or an intersection; inside of anything else it is referred to
indirectly.
-/

namespace CodeGraph

open Syntax

namespace TypeReading

/-- The types that the language has. -/
def primitiveTypes : List String :=
  ["any", "bigint", "boolean", "never", "null", "number", "object", "string", "symbol",
    "undefined", "unknown", "void"]

/-- The generic types that are arrays. -/
def arrayTypes : List String := ["Array", "ReadonlyArray"]

/-- The kinds of nodes that stand around a type and add nothing to it. -/
def wrapperKinds : List String :=
  ["type_annotation", "parenthesized_type", "readonly_type", "opting_type_annotation",
    "omitting_type_annotation"]

/-- The kinds of types whose names are referred to indirectly. -/
def opaqueKinds : List String :=
  ["object_type", "function_type", "constructor_type", "tuple_type", "type_query",
    "conditional_type", "mapped_type_clause", "template_literal_type", "index_type_query",
    "lookup_type"]

/-- The primitive type of a literal type. -/
def literalType (source : Source) (node : Node) : String :=
  match node.content.head? with
  | none => source.text node
  | some value =>
      if value.isOneOf ["string", "template_string"] then "string"
      else if value.isOneOf ["number", "unary_expression"] then "number"
      else if value.isOneOf ["true", "false"] then "boolean"
      else source.text value

/-- A reference to a type by its name. -/
def nameReference (name : String) : TypeRef :=
  if primitiveTypes.contains name then .primitive name else .named name

/-- A reference to a generic type; an array type with one argument is an array. -/
def genericReference (name : String) (arguments : List TypeRef) : TypeRef :=
  match arguments with
  | [element] => if arrayTypes.contains name then .array element else .generic name [element]
  | _ => .generic name arguments

mutual

/-- The reference that a written type stands for; what has no name is unknown. -/
def reference (source : Source) : Node → TypeRef
  | ⟨field, kind, named, start, stop, children⟩ =>
      let node : Node := ⟨field, kind, named, start, stop, children⟩
      if wrapperKinds.contains kind then firstReference source children
      else if kind == "predefined_type" then .primitive (source.text node)
      else if kind == "literal_type" then .primitive (literalType source node)
      else if node.isOneOf ["type_identifier", "identifier", "nested_type_identifier"] then
        nameReference (source.text node)
      else if kind == "generic_type" then
        genericReference (source.textOf (node.childIn? "name")) (argumentReferences source children)
      else if kind == "array_type" then .array (firstReference source children)
      else if kind == "union_type" then .union (memberReferences source kind children)
      else if kind == "intersection_type" then .intersection (memberReferences source kind children)
      else if kind == "this_type" then .unknown "this"
      else if kind == "function_type" then .unknown "function"
      else if kind == "object_type" then .unknown "object"
      else if kind == "tuple_type" then .unknown "tuple"
      else .unknown

/-- The reference of the first named child that is no comment. -/
def firstReference (source : Source) : List Node → TypeRef
  | [] => .unknown
  | node :: nodes =>
      if node.named && node.kind != "comment" then reference source node
      else firstReference source nodes

/-- The references of named children. -/
def namedReferences (source : Source) : List Node → List TypeRef
  | [] => []
  | node :: nodes =>
      if node.named then reference source node :: namedReferences source nodes
      else namedReferences source nodes

/-- The references of the children of the node that holds the type arguments. -/
def argumentReferences (source : Source) : List Node → List TypeRef
  | [] => []
  | ⟨field, _, _, _, _, children⟩ :: nodes =>
      if field == some "type_arguments" then namedReferences source children
      else argumentReferences source nodes

/-- The references of the members of a union or an intersection, where members of the same kind
are taken apart too. -/
def memberReferences (source : Source) (whole : String) : List Node → List TypeRef
  | [] => []
  | ⟨field, kind, named, start, stop, children⟩ :: nodes =>
      let rest := memberReferences source whole nodes
      if !named then rest
      else if kind == whole then memberReferences source whole children ++ rest
      else if kind == "comment" then rest
      else reference source ⟨field, kind, named, start, stop, children⟩ :: rest

end

mutual

/-- The type names below a node, each with whether it is referred to directly. -/
def names (source : Source) (direct : Bool) : Node → List (String × Bool)
  | ⟨field, kind, named, start, stop, children⟩ =>
      let node : Node := ⟨field, kind, named, start, stop, children⟩
      if node.isOneOf ["type_identifier", "nested_type_identifier"] then
        let name := source.text node
        if primitiveTypes.contains name then [] else [(name, direct)]
      else if kind == "generic_type" then
        let isArray := arrayTypes.contains (source.textOf (node.childIn? "name"))
        (if isArray then [] else namesInField source direct "name" children)
          ++ argumentNames source (direct && isArray) children
      else if node.isOneOf ["predefined_type", "literal_type"] then []
      else namesOfAll source (direct && !opaqueKinds.contains kind) children

/-- The type names below named children. -/
def namesOfAll (source : Source) (direct : Bool) : List Node → List (String × Bool)
  | [] => []
  | node :: nodes =>
      if node.named then names source direct node ++ namesOfAll source direct nodes
      else namesOfAll source direct nodes

/-- The type names below the first child in a field. -/
def namesInField (source : Source) (direct : Bool) (wanted : String) :
    List Node → List (String × Bool)
  | [] => []
  | node :: nodes =>
      if node.field == some wanted then names source direct node
      else namesInField source direct wanted nodes

/-- The type names below the children of the node that holds the type arguments. -/
def argumentNames (source : Source) (direct : Bool) : List Node → List (String × Bool)
  | [] => []
  | ⟨field, _, _, _, _, children⟩ :: nodes =>
      if field == some "type_arguments" then namesOfAll source direct children
      else argumentNames source direct nodes

end

/-- The reference that an optional type stands for. -/
def referenceOf (source : Source) : Option Node → TypeRef
  | some node => reference source node
  | none => .unknown

/-- The type inside of a type annotation; any other node is the type itself. -/
def annotated? (node : Node) : Option Node :=
  if node.kind == "type_annotation" then node.content.head? else some node

end TypeReading

end CodeGraph
