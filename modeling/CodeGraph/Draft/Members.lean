import CodeGraph.Draft.Links

/-!
# Members

The members of a classifier are read off its declaration: fields and methods of classes and
interfaces, constants of enumerations, the signature of a function. Supertypes and the types in
members become relations.
-/

namespace CodeGraph

open Syntax

namespace Members

/-- What stands in front of a member. -/
structure Modifiers where
  /-- Who can see it. -/
  visibility : Visibility := .everyone
  /-- It is static. -/
  isStatic : Bool := false
  /-- It is read-only. -/
  isReadonly : Bool := false
  /-- It is abstract. -/
  isAbstract : Bool := false
deriving DecidableEq, Repr

/-- The visibility that a word asks for. -/
def visibilityOf (word : String) : Visibility :=
  if word == "protected" then .subtypes
  else if word == "private" then .ownerOnly
  else .everyone

/-- The modifiers of a member; a name with a hash in front is private. -/
def modifiers (source : Source) (node : Node) : Modifiers :=
  let read := node.children.foldl (fun (read : Modifiers) child =>
    if child.kind == "accessibility_modifier" then
      { read with visibility := visibilityOf (Text.trim (source.text child)) }
    else if child.kind == "static" then { read with isStatic := true }
    else if child.kind == "readonly" then { read with isReadonly := true }
    else if child.kind == "abstract" then { read with isAbstract := true }
    else read) {}
  if (node.childIn? "name").any (·.kind == "private_property_identifier") then
    { read with visibility := .ownerOnly }
  else
    read

/-- The name of a parameter pattern; the first argument bounds the number of defaults around it. -/
def patternName? (source : Source) : (fuel : Nat) → Node → Option String
  | 0, _ => none
  | fuel + 1, pattern =>
      if pattern.isOneOf ["identifier", "this"] then
        some (source.text pattern)
      else if pattern.kind == "rest_pattern" then
        (pattern.namedOf? "identifier").map source.text
      else if pattern.kind == "assignment_pattern" then
        (pattern.childIn? "left").bind (patternName? source fuel)
      else
        none

/-- A parameter as it is written. -/
structure WrittenParameter where
  /-- Its name, or its position for want of one. -/
  name : String
  /-- Its type. -/
  type : Option Node
  /-- The whole of it. -/
  node : Node

/-- The parameter at a position. -/
def parameterAt (source : Source) (index : Nat) (node : Node) : WrittenParameter :=
  let isParameter := node.isOneOf ["required_parameter", "optional_parameter"]
  let pattern := if isParameter then node.childIn? "pattern" else some node
  let name := pattern.bind fun pattern => patternName? source pattern.depth pattern
  { name := name.getD ("arg" ++ toString index)
    type := if isParameter then (node.childIn? "type").bind TypeReading.annotated? else none
    node }

/-- The parameters of a function; one that is called `this` is none. -/
def parameters (source : Source) (function : Node) : List WrittenParameter :=
  match function.childIn? "parameters" with
  | none =>
      match function.childIn? "parameter" with
      | some single => [{ name := source.text single, type := none, node := single }]
      | none => []
  | some list =>
      (list.content.zipIdx.map fun (node, index) => parameterAt source index node).filter
        (·.name != "this")

/-- The written return type of a function. -/
def returnType? (function : Node) : Option Node :=
  (function.childIn? "return_type").bind TypeReading.annotated?

/-- What is told about an operation besides its signature. -/
structure OperationTraits where
  /-- Who can see it. -/
  visibility : Option Visibility := none
  /-- It is static. -/
  isStatic : Option Bool := none
  /-- It is abstract. -/
  isAbstract : Option Bool := none
  /-- It is the constructor. -/
  isConstructor : Option Bool := none

/-- The edits of an operation: the links of its signature, the operation, and the links of what its
body uses. -/
def operationEdits (draft : Draft) (declaration : Declaration) (name : String)
    (function origin : Node) (traits : OperationTraits) : List Edit :=
  let source := declaration.source
  let owner := declaration.classifierId
  let written := parameters source function
  let returned := returnType? function
  let isConstructor := traits.isConstructor == some true
  let operation : Operation :=
    { id := some (operationId owner name)
      name
      returnType :=
        if isConstructor then .named (draft.nameOf owner)
        else TypeReading.referenceOf source returned
      parameters := written.map fun parameter =>
        { name := parameter.name, type := TypeReading.referenceOf source parameter.type }
      visibility := traits.visibility
      isStatic := traits.isStatic
      isAbstract := traits.isAbstract
      isConstructor := traits.isConstructor
      source := some (source.place origin) }
  written.flatMap (fun parameter =>
      Links.ofType draft declaration parameter.type name "signature" true)
    ++ (if isConstructor then []
        else Links.ofType draft declaration returned name "signature" true)
    ++ [.change owner (.operation operation)]
    ++ Links.ofUses draft declaration (function.childIn? "body")

/-- What is told about an attribute besides its type. -/
structure AttributeTraits where
  /-- Who can see it. -/
  visibility : Option Visibility := none
  /-- It is static. -/
  isStatic : Option Bool := none
  /-- It is set once. -/
  isFinal : Option Bool := none

/-- An attribute that a node declares. -/
def attributeOf (declaration : Declaration) (name : String) (type : TypeRef) (origin : Node)
    (traits : AttributeTraits) : Attribute :=
  { id := some (attributeId declaration.classifierId name)
    name
    type
    visibility := traits.visibility
    isStatic := traits.isStatic
    isFinal := traits.isFinal
    source := some (declaration.source.place origin) }

/-- The edits of an attribute: the attribute, and the links of its type. -/
def attributeEdits (draft : Draft) (declaration : Declaration) (name : String) (type : Option Node)
    (origin : Node) (traits : AttributeTraits) : List Edit :=
  let reference := TypeReading.referenceOf declaration.source type
  [.change declaration.classifierId
      (.attribute (attributeOf declaration name reference origin traits))]
    ++ Links.ofType draft declaration type name "typeRef" true

/-- The name that a supertype is written with. -/
def supertypeName (source : Source) (node : Node) : String :=
  if node.kind == "generic_type" then
    source.textOf (node.childIn? "name")
  else if node.isOneOf ["identifier", "type_identifier", "member_expression",
      "nested_type_identifier"] then
    source.text node
  else
    ""

/-- The link to a supertype, unless it is the classifier itself. -/
def supertypeEdits (draft : Draft) (declaration : Declaration) (kind : RelationKind) (node : Node) :
    List Edit :=
  draft.withMeaningAt declaration (supertypeName declaration.source node) fun
    | none => []
    | some symbol =>
        if symbol.classifierId == declaration.classifierId then []
        else [Links.link declaration kind symbol [] (declaration.source.place node)]

/-- The first list, unless it is empty. -/
def orElse {α : Type} (first second : List α) : List α :=
  if first.isEmpty then second else first

/-- The edits of what a class extends and implements. -/
def classHeritage (draft : Draft) (declaration : Declaration) : List Edit :=
  (declaration.node.namedChildren.filter (·.kind == "class_heritage")).flatMap fun heritage =>
    heritage.namedChildren.flatMap fun clause =>
      if clause.kind == "extends_clause" then
        (orElse (clause.childrenIn "value")
            (clause.namedChildren.filter (·.kind != "type_arguments"))).flatMap
          (supertypeEdits draft declaration .inheritance)
        ++ Links.ofType draft declaration (clause.childIn? "type_arguments") "extends" "typeRef"
          false
      else if clause.kind == "implements_clause" then
        clause.namedChildren.flatMap (supertypeEdits draft declaration .implementation)
      else
        []

/-- The edits of what an interface extends. -/
def interfaceHeritage (draft : Draft) (declaration : Declaration) : List Edit :=
  (declaration.node.namedChildren.filter (·.kind == "extends_type_clause")).flatMap fun clause =>
    (orElse (clause.childrenIn "type") clause.namedChildren).flatMap
      (supertypeEdits draft declaration .inheritance)

/-- The edits of the constructor parameters that are attributes too. -/
def constructorAttributes (draft : Draft) (declaration : Declaration) (constructor : Node) :
    List Edit :=
  (parameters declaration.source constructor).flatMap fun parameter =>
    if parameter.node.children.any (·.isOneOf ["accessibility_modifier", "readonly"]) then
      let read := modifiers declaration.source parameter.node
      attributeEdits draft declaration parameter.name parameter.type parameter.node
        { visibility := some read.visibility
          isStatic := some false
          isFinal := some read.isReadonly }
    else
      []

/-- The edits of one member of a class. -/
def classMember (draft : Draft) (declaration : Declaration) (member nameNode : Node) : List Edit :=
  let source := declaration.source
  let name := source.text nameNode
  let read := modifiers source member
  let visibility := some read.visibility
  let isStatic := some read.isStatic
  if member.kind == "public_field_definition" then
    let value := member.childIn? "value"
    let type := (member.childIn? "type").bind TypeReading.annotated?
    match value.filter fun value =>
        type.isNone && value.isOneOf ["arrow_function", "function_expression", "function"] with
    | some function =>
        operationEdits draft declaration name function member { visibility, isStatic }
    | none =>
        attributeEdits draft declaration name type member
            { visibility, isStatic, isFinal := some read.isReadonly }
          ++ Links.ofUses draft declaration value
  else if member.kind == "method_definition" then
    let isConstructor := name == "constructor"
    operationEdits draft declaration name member member
        { visibility, isStatic, isConstructor := if isConstructor then some true else none }
      ++ (if isConstructor then constructorAttributes draft declaration member else [])
  else if member.isOneOf ["method_signature", "abstract_method_signature"] then
    let isAbstract := member.kind == "abstract_method_signature" || read.isAbstract
    operationEdits draft declaration name member member
      { visibility, isStatic, isAbstract := if isAbstract then some true else none }
  else
    []

/-- The edits of one member of an interface. -/
def interfaceMember (draft : Draft) (declaration : Declaration) (member nameNode : Node) :
    List Edit :=
  let source := declaration.source
  let name := source.text nameNode
  if member.kind == "property_signature" then
    attributeEdits draft declaration name ((member.childIn? "type").bind TypeReading.annotated?)
      member
      { visibility := some .everyone
        isFinal := if (modifiers source member).isReadonly then some true else none }
  else if member.kind == "method_signature" then
    operationEdits draft declaration name member member
      { visibility := some .everyone, isAbstract := some true }
  else
    []

/-- The edits of the members with names in a body. -/
def bodyMembers (declaration : Declaration) (edits : Node → Node → List Edit) : List Edit :=
  match declaration.node.childIn? "body" with
  | none => []
  | some body =>
      body.namedChildren.flatMap fun member =>
        match member.childIn? "name" with
        | some nameNode => edits member nameNode
        | none => []

/-- The edits of one constant of an enumeration. -/
def enumMember (declaration : Declaration) (member : Node) : List Edit :=
  let source := declaration.source
  let constant (nameNode value : Option Node) : List Edit :=
    let name := Text.trimAll ['\x27', '\x22'] (source.textOf nameNode)
    let isText := value.any (·.isOneOf ["string", "template_string"])
    [.change declaration.classifierId
      (.attribute (attributeOf declaration name (.primitive (if isText then "string" else "number"))
        member { visibility := some .everyone, isStatic := some true, isFinal := some true }))]
  if member.kind == "enum_assignment" then
    constant (member.childIn? "name") (member.childIn? "value")
  else if member.isOneOf ["property_identifier", "string"] then
    constant (some member) none
  else
    []

/-- The edits of the constants of an enumeration. -/
def enumMembers (declaration : Declaration) : List Edit :=
  match declaration.node.childIn? "body" with
  | none => []
  | some body => body.namedChildren.flatMap (enumMember declaration)

/-- The edits of a type alias. -/
def typeAlias (draft : Draft) (declaration : Declaration) : List Edit :=
  match declaration.node.childIn? "value" with
  | none => []
  | some value =>
      [.change declaration.classifierId
          (.tag "ts.typeAlias" (Text.collapse (declaration.source.text value)))]
        ++ Links.ofType draft declaration (some value) declaration.name "typeRef" false

/-- The edits of the members and supertypes of a declaration. -/
def declarationEdits (draft : Draft) (declaration : Declaration) : List Edit :=
  if declaration.shape.isClass then
    classHeritage draft declaration ++ bodyMembers declaration (classMember draft declaration)
  else if declaration.shape.isFunction then
    operationEdits draft declaration declaration.name
      (declaration.function.getD declaration.node) declaration.node { visibility := some .everyone }
  else
    match declaration.shape with
    | .interface =>
        interfaceHeritage draft declaration
          ++ bodyMembers declaration (interfaceMember draft declaration)
    | .enum => enumMembers declaration
    | .typeAlias => typeAlias draft declaration
    | _ => []

end Members

namespace Draft

/-- The draft with the members and supertypes of its declarations. -/
def addMembers (draft : Draft) : Draft :=
  draft.applyAll (draft.declarations.flatMap (Members.declarationEdits draft))

end Draft

end CodeGraph
