import CodeGraph.Angular.Decorator
import CodeGraph.Draft.Links
import CodeGraph.Draft.Members

/-!
# The wiring of Angular classes

A decorated class is described by its decorator, and it is wired to other classes: what is
injected into it, what it provides, what it imports and exports, what it emits. Each name in the
wiring either resolves and gives a relation, or comes from a package outside of the project, or is
a finding.
-/

namespace CodeGraph

open Syntax

namespace Angular

/-- The value of a string entry of an object. -/
def stringAt? (source : Source) (object : Node) (key : String) : Option String :=
  source.stringValue? (source.property? object key)

/-- The entry of an object is the word true. -/
def isTrueEntry (source : Source) (object : Node) (key : String) : Bool :=
  (source.property? object key).any (·.kind == "true")

/-- The tags that the details of a decorator give. -/
def detailTags (source : Source) (part : Part) (details : Node) : List Tag :=
  let text (key tag : String) : List Tag :=
    ((stringAt? source details key).map fun value => Tag.mk tag value).toList
  text "selector" "angular.selector" ++ text "templateUrl" "angular.templateUrl"
    ++ (if part == .pipe then text "name" "angular.pipeName" else [])
    ++ (if isTrueEntry source details "standalone" then [⟨"angular.standalone", "true"⟩] else [])
    ++ text "providedIn" "angular.providedIn"

/-- The edits that describe a decorated class. -/
def descriptionEdits (declaration : Declaration) (part : Part) (details : Option Node) :
    List Edit :=
  let tags := [Tag.mk "framework" "angular", ⟨"angular.decorator", part.label⟩]
    ++ ((details.map (detailTags declaration.source part)).getD [])
  .change declaration.classifierId (.stereotype part.stereotype)
    :: tags.map fun tag => .change declaration.classifierId (.tag tag.key tag.value)

/-- How a name in the wiring that does not resolve is reported. -/
structure Complaint where
  /-- The kind of the finding. -/
  kind : FindingKind
  /-- The finding in words. -/
  message : String
  /-- Further facts by name. -/
  facts : List (String × String)

/-- The finding about a name that does not resolve, unless it comes from outside of the project. -/
def complain (draft : Draft) (declaration : Declaration) (name : String) (node : Node)
    (complaint : Complaint) : List Edit :=
  if draft.symbols.isExternal declaration.file name then
    []
  else
    [.find (Finding.atLine complaint.kind complaint.message declaration.file
      (declaration.source.lineOf node)
      (("owner", draft.nameOf declaration.classifierId) :: complaint.facts))]

/-- The edits of one name in the wiring: a relation when it resolves and relations of the framework
are asked for, or else what `unresolved` tells. -/
def wire (draft : Draft) (declaration : Declaration) (kind : RelationKind) (name : String)
    (node : Node) (tags : List Tag) (unresolved : List Edit) : List Edit :=
  draft.withMeaningAt declaration name fun
    | none => unresolved
    | some symbol =>
        if draft.options.includeFrameworkEdges then
          [Links.link declaration kind symbol tags (declaration.source.place node)]
        else
          []

/-- The token that a constructor parameter asks for. -/
def injectToken? (source : Source) (parameter : Node) : Option String :=
  let call? := parameter.children.findSome? fun child =>
    match child.kind == "decorator", decoratorParts source child with
    | true, ("Inject", some call) => some call
    | _, _ => none
  (call?.bind firstArgument?).map fun first =>
    ((reference? source first).filter (!·.isEmpty)).getD (source.unquoted first)

/-- The type name that a constructor parameter is injected by. -/
def injectedType? (source : Source) (type : Option Node) : Option String :=
  let named := type.bind fun node =>
    if node.kind == "generic_type" then node.childIn? "name" else some node
  (named.filter (·.isOneOf ["type_identifier", "nested_type_identifier"])).map source.text

/-- The edits of one constructor parameter. -/
def parameterEdits (draft : Draft) (declaration : Declaration)
    (parameter : Members.WrittenParameter) : List Edit :=
  let source := declaration.source
  let token := injectToken? source parameter.node
  let name := (token <|> injectedType? source parameter.type).getD ""
  if name.isEmpty then
    []
  else
    let tags := [Tag.mk "origin" "constructor", ⟨"param", parameter.name⟩]
      ++ (token.map fun token => Tag.mk "token" token).toList
    let unresolved :=
      if token.isSome then []
      else
        complain draft declaration name parameter.node
          { kind := .unresolvedInjection
            message := "Constructor DI parameter '" ++ parameter.name ++ "' of "
              ++ draft.nameOf declaration.classifierId ++ " injects '" ++ name
              ++ "' which was not found as a classifier"
            facts := [("type", name), ("origin", "constructor")] }
    wire draft declaration .injection name parameter.node tags unresolved

/-- The body of a class. -/
def body? (declaration : Declaration) : Option Node :=
  declaration.node.childIn? "body"

/-- The edits of what the constructor is injected with. -/
def constructorEdits (draft : Draft) (declaration : Declaration) : List Edit :=
  let source := declaration.source
  let constructor := (body? declaration).bind fun body =>
    body.namedChildren.find? fun member =>
      member.kind == "method_definition"
        && source.textOf (member.childIn? "name") == "constructor"
  match constructor with
  | some constructor =>
      (Members.parameters source constructor).flatMap (parameterEdits draft declaration)
  | none => []

/-- The edits of one call of the injecting function. -/
def injectCall (draft : Draft) (declaration : Declaration) (node : Node) : List Edit :=
  let source := declaration.source
  if node.kind == "call_expression" && source.textOf (node.childIn? "function") == "inject" then
    let name := ((firstArgument? node).bind (reference? source)).getD ""
    if name.isEmpty then
      []
    else
      wire draft declaration .injection name node [⟨"origin", "injectFn"⟩]
        (complain draft declaration name node
          { kind := .unresolvedInjection
            message := "inject('" ++ name ++ "') in " ++ draft.nameOf declaration.classifierId
              ++ " was not found as a classifier"
            facts := [("type", name), ("origin", "injectFn")] })
  else
    []

/-- The edits of what the class injects by calls. -/
def injectEdits (draft : Draft) (declaration : Declaration) : List Edit :=
  match body? declaration with
  | some body => body.preorder.flatMap (injectCall draft declaration)
  | none => []

/-- The type of the events that an output emits: the argument of the emitter's type, written or
constructed. -/
def eventPayload? (source : Source) (member : Node) : Option Node :=
  let written := ((member.childIn? "type").bind (·.firstNamed?)).toList
  let constructed := ((member.childIn? "value").filter (·.kind == "new_expression")).toList
  (written ++ constructed).findSome? fun candidate =>
    let name :=
      candidate.childIn? (if candidate.kind == "generic_type" then "name" else "constructor")
    if Text.lastPiece '.' (source.textOf name) == "EventEmitter" then
      (candidate.childIn? "type_arguments" <|> candidate.namedOf? "type_arguments").bind
        (·.firstNamed?)
    else
      none

/-- The edits of one type name in the events of an output. -/
def payloadEdits (draft : Draft) (declaration : Declaration) (member : Node)
    (name typeName : String) : List Edit :=
  draft.withMeaningAt declaration typeName fun
    | some symbol =>
        [Links.link declaration .dependency symbol
          [⟨"origin", "output"⟩, ⟨"role", "eventPayload"⟩, ⟨"member", name⟩]
          (declaration.source.place member)]
    | none =>
        complain draft declaration typeName member
          { kind := .unresolvedType
            message := "@Output payload type '" ++ typeName ++ "' on "
              ++ draft.nameOf declaration.classifierId ++ "." ++ name
              ++ " was not found as a classifier"
            facts := [("member", name), ("type", typeName), ("origin", "output")] }

/-- The edits of an input or an output. -/
def bindingEdits (draft : Draft) (declaration : Declaration) (member : Node) (name role : String)
    (call : Option Node) : List Edit :=
  let source := declaration.source
  let argument := call.bind firstArgument?
  let details := argument.filter (·.kind == "object")
  let outerName :=
    match details with
    | some object => stringAt? source object "alias"
    | none => source.stringValue? argument
  let payload := if role == "output" then eventPayload? source member else none
  let tags := [Tag.mk "angular.role" role]
    ++ (if details.any fun object => isTrueEntry source object "required" then
          [⟨"angular.inputRequired", "true"⟩]
        else [])
    ++ ((outerName.filter (!·.isEmpty)).map fun outerName =>
        Tag.mk ("angular." ++ role ++ "Alias") outerName).toList
    ++ (payload.map fun node =>
        Tag.mk "angular.outputPayloadType" (Text.collapse (source.text node))).toList
  let fresh := Members.attributeOf declaration name .unknown member {}
  .change declaration.classifierId (.binding fresh tags)
    :: (match payload with
        | some node =>
            if draft.options.includeDeps then
              (TypeReading.names source true node).flatMap fun typeName =>
                payloadEdits draft declaration member name typeName.1
            else
              []
        | none => [])

/-- The role that a member's decorator gives. -/
def bindingRole? (name : String) : Option String :=
  if name == "Input" then some "input" else if name == "Output" then some "output" else none

/-- The members of a class body with their decorators: those that stand in front of a member as
well as those inside of it. -/
def decoratedMembers (pending : List Node) : List Node → List (Node × List Node)
  | [] => []
  | member :: rest =>
      if member.kind == "decorator" then
        decoratedMembers (pending ++ [member]) rest
      else
        (member, pending ++ member.children.filter (·.kind == "decorator"))
          :: decoratedMembers [] rest

/-- The edits of the inputs and outputs of a class. -/
def inputOutputEdits (draft : Draft) (declaration : Declaration) : List Edit :=
  let source := declaration.source
  match body? declaration with
  | none => []
  | some body =>
      (decoratedMembers [] body.namedChildren).flatMap fun (member, decorators) =>
        let name := source.textOf (member.childIn? "name")
        if name.isEmpty then
          []
        else
          decorators.flatMap fun decorator =>
            let (label, call) := decoratorParts source decorator
            match bindingRole? label with
            | some role => bindingEdits draft declaration member name role call
            | none => []

/-- What a provider entry provides, and the tags that describe how; nothing for values and
factories. -/
def providerTarget? (source : Source) (entry : Node) : Option (String × List Tag) :=
  if entry.kind == "object" then
    let provide := (source.property? entry "provide").map fun node =>
      (reference? source node).getD (source.unquoted node)
    let substitute := ["useClass", "useExisting"].findSome? fun key =>
      (source.property? entry key).map fun value => (key, value)
    let target := substitute.bind fun (_, value) => reference? source value
    let tags :=
      (match substitute with
        | some (key, value) =>
            [Tag.mk "providerKind" key,
              ⟨key, (target.filter (!·.isEmpty)).getD (source.text value)⟩]
        | none => [])
      ++ ((provide.filter (!·.isEmpty)).map fun token => Tag.mk "provide" token).toList
    match target with
    | some target => some (target, tags)
    | none =>
        if ["useValue", "useFactory"].any fun key => (source.property? entry key).isSome then
          none
        else
          provide.map fun token => (token, tags ++ [⟨"providerKind", "provide"⟩])
  else
    (reference? source entry).map fun name => (name, [⟨"providerKind", "class"⟩])

/-- The entries of a list in the details of a decorator. -/
def entriesOf (source : Source) (details : Node) (key : String) : List Node :=
  ((source.property? details key).map (·.arrayEntries)).getD []

/-- The edits of the services that a class provides. -/
def providerEdits (draft : Draft) (declaration : Declaration) (part : Part) (details : Node) :
    List Edit :=
  let source := declaration.source
  let scope := if part == .ngModule then "ngmodule" else "component"
  (entriesOf source details "providers").flatMap fun entry =>
    match (providerTarget? source entry).filter fun (target, _) => !target.isEmpty with
    | none => []
    | some (target, tags) =>
        wire draft declaration .injection target entry
          ([⟨"origin", "provider"⟩, ⟨"role", "providers"⟩, ⟨"scope", scope⟩] ++ tags)
          (complain draft declaration target entry
            { kind := .unresolvedDecoratorRef
              message := part.label ++ " providers references '" ++ target
                ++ "' but it was not found as a classifier"
              facts := [("role", "providers"), ("ref", target)] })

/-- The edits of the names in a list of the decorator's details. -/
def referenceEdits (draft : Draft) (declaration : Declaration) (part : Part) (details : Node)
    (origin role : String) : List Edit :=
  let source := declaration.source
  (entriesOf source details role).flatMap fun entry =>
    match (reference? source entry).filter (!·.isEmpty) with
    | none => []
    | some name =>
        wire draft declaration .dependency name entry [⟨"origin", origin⟩, ⟨"role", role⟩]
          (complain draft declaration name entry
            { kind := .unresolvedDecoratorRef
              message := part.label ++ " " ++ role ++ " references '" ++ name
                ++ "' but it was not found as a classifier"
              facts := [("role", role), ("ref", name)] })

/-- The lists of a module's details that name classes. -/
def moduleRoles : List String := ["imports", "declarations", "exports", "bootstrap"]

/-- The edits that wire a decorated class. -/
def wiringEdits (draft : Draft) (declaration : Declaration) (part : Part) (details : Option Node) :
    List Edit :=
  constructorEdits draft declaration ++ injectEdits draft declaration
    ++ (if part.hasBindings then inputOutputEdits draft declaration else [])
    ++ (match details with
        | none => []
        | some details =>
            (if part.hasProviders then providerEdits draft declaration part details else [])
            ++ (if part == .ngModule then
                  moduleRoles.flatMap (referenceEdits draft declaration part details "ngmodule")
                else if part == .component
                    && (draft.classifier? declaration.classifierId).any
                      (·.tag? "angular.standalone" == some "true") then
                  referenceEdits draft declaration part details "standalone" "imports"
                else []))

end Angular

namespace Draft

/-- The draft with a decorated class described and wired. -/
def addDecorated (draft : Draft) (declaration : Declaration) : Draft :=
  match declaration.decorator with
  | none => draft
  | some decorator =>
      match Angular.partOf? declaration.source decorator with
      | none => draft
      | some part =>
          let details := Angular.metadata? declaration.source decorator
          let described := draft.applyAll (Angular.descriptionEdits declaration part details)
          described.applyAll (Angular.wiringEdits described declaration part details)

/-- The draft with its decorated classes described and wired. -/
def addAngular (draft : Draft) : Draft :=
  draft.declarations.foldl addDecorated draft

end Draft

end CodeGraph
