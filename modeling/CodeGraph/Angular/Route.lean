import CodeGraph.Routes.Lazy
import CodeGraph.Routes.RouteTree

/-!
# Angular routes

Routes are written as arrays of objects: passed to the router module, passed to the router's
provider, or exported under a name or a type that says so. An array is read once, where it is met
first.
-/

namespace CodeGraph

open Syntax

namespace Angular

/-- A name that a route leads to. -/
structure RouteTarget where
  /-- What the name is to the route. -/
  role : String
  /-- The name. -/
  name : String
  /-- Where it is written. -/
  node : Node
  /-- Further tags of the link. -/
  extra : List Tag := []
  /-- The module that it is loaded from. -/
  specifier : Option String := none

/-- A route as it is written. -/
structure WrittenRoute where
  /-- The object. -/
  node : Node
  /-- Its path. -/
  path : String
  /-- The route is loaded lazily. -/
  isLazy : Bool
  /-- The name that the route is called by. -/
  targetName : String
  /-- Where it redirects to. -/
  redirect : Option String
  /-- The names that it leads to. -/
  targets : List RouteTarget

/-- The guards of a route. -/
def guards : List String :=
  ["canActivate", "canActivateChild", "canDeactivate", "canLoad", "canMatch"]

/-- The dotted name that an expression is, parentheses aside. -/
def dottedName? (source : Source) (node : Node) : Option String :=
  (node.unwrap?.filter (·.isOneOf ["identifier", "member_expression"])).map source.text

/-- The targets of the resolvers of a route. -/
def resolverTargets (source : Source) (object : Node) : List RouteTarget :=
  if object.kind == "object" then
    object.namedChildren.filterMap fun entry =>
      let target (key name : String) : RouteTarget :=
        { role := "resolve", name, node := entry, extra := [⟨"resolveKey", key⟩] }
      if entry.kind == "shorthand_property_identifier" then
        some (target (source.text entry) (source.text entry))
      else if entry.kind == "pair" then
        (((entry.childIn? "value").bind (dottedName? source)).filter (!·.isEmpty)).map
          (target (stripQuotes (source.textOf (entry.childIn? "key"))))
      else
        none
  else
    []

/-- The target of a lazy entry, if it picks a name. -/
def lazyTarget (role : String) (node : Node) (lazy : LazyTarget) : List RouteTarget :=
  match lazy.name with
  | some name =>
      let specifier := lazy.specifier.filter (!·.isEmpty)
      [{ role, name, node, specifier,
         extra := (specifier.map fun specifier => Tag.mk "specifier" specifier).toList }]
  | none => []

/-- The route that an object is. -/
def writtenRoute (source : Source) (object : Node) : WrittenRoute :=
  let property := source.property? object
  let nonEmpty (text : Option String) : Option String := text.filter (!·.isEmpty)
  let component := nonEmpty ((property "component").bind (dottedName? source))
  let children := LazyTarget.read source (property "loadChildren")
  let loaded := LazyTarget.read source (property "loadComponent")
  let guardTargets := guards.flatMap fun role =>
    (((property role).bind (·.unwrap?)).map (·.arrayEntries)).getD [] |>.filterMap fun item =>
      (nonEmpty (dottedName? source item)).map fun name => { role, name, node := item }
  let resolvers := (((property "resolve").bind (·.unwrap?)).map (resolverTargets source)).getD []
  { node := object
    path := (source.stringValue? (property "path")).getD ""
    isLazy := [children.specifier, children.name, loaded.specifier, loaded.name].any fun text =>
      (nonEmpty text).isSome
    targetName := (component <|> nonEmpty loaded.name <|> nonEmpty children.name).getD "(unknown)"
    redirect := source.stringValue? (property "redirectTo")
    targets :=
      (component.map fun name => { role := "component", name, node := object }).toList
        ++ lazyTarget "loadChildren" object children ++ lazyTarget "loadComponent" object loaded
        ++ guardTargets ++ resolvers }

/-- The routes that objects are, and the arrays read afterwards, where `within` reads what an object
has as its children. -/
def routesOfEntries (source : Source)
    (within : List Nat → Option Node → List (RouteTree WrittenRoute) × List Nat) (read : List Nat) :
    List Node → List (RouteTree WrittenRoute) × List Nat
  | [] => ([], read)
  | object :: objects =>
      let inner := (source.property? object "children").bind (·.unwrap?)
      let (children, read) := within read inner
      let (rest, read) := routesOfEntries source within read objects
      (.node (writtenRoute source object) children :: rest, read)

/-- The routes in an array that is not among those read, and the arrays read afterwards; arrays are
known by where they start. The first argument bounds the number of arrays inside of each other. -/
def routesWithin (source : Source) : (fuel : Nat) → (read : List Nat) → Option Node →
    List (RouteTree WrittenRoute) × List Nat
  | 0, read, _ => ([], read)
  | _ + 1, read, none => ([], read)
  | fuel + 1, read, some array =>
      if read.contains array.start then ([], read)
      else
        routesOfEntries source (routesWithin source fuel) (array.start :: read)
          (array.arrayEntries.filter (·.kind == "object"))

/-- The arrays of routes that a node exports. -/
def exportedArrays (source : Source) (statement : Node) : List Node :=
  match (statement.childIn? "declaration").filter
      (·.isOneOf ["lexical_declaration", "variable_declaration"]) with
  | none => []
  | some declaration =>
      (declaration.namedChildren.filter (·.kind == "variable_declarator")).filterMap
        fun declarator =>
          let name := source.textOf (declarator.childIn? "name")
          let type := source.textOf (declarator.childIn? "type")
          (((declarator.childIn? "value").bind (·.unwrap?)).filter (·.kind == "array")).filter
            fun _ => Text.contains (Text.lower name) "route" || Text.contains type "Routes"

/-- The arrays of routes that a node names. -/
def routeArrays (source : Source) (node : Node) : List Node :=
  if node.kind == "call_expression" then
    match node.childIn? "function" with
    | none => []
    | some function =>
        let isRouter :=
          if function.kind == "member_expression" then
            Text.lastPiece '.' (source.textOf (function.childIn? "object")) == "RouterModule"
              && ["forRoot", "forChild"].contains (source.textOf (function.childIn? "property"))
          else
            source.text function == "provideRouter"
        if isRouter then (Routes.argumentArray? source node).toList else []
  else if node.kind == "export_statement" then
    exportedArrays source node
  else
    []

/-- The routes of a file. -/
def routes (source : Source) : List (RouteTree WrittenRoute) :=
  ((source.root.preorder.flatMap (routeArrays source)).foldl
    (fun (found, read) array =>
      let (more, read) := routesWithin source (array.depth + 1) read (some array)
      (found ++ more, read)) (([] : List (RouteTree WrittenRoute)), ([] : List Nat))).1

/-- The classifiers that a route can lead to by name; nothing for a name that is ambiguous. -/
def routeIndex (draft : Draft) : Ordered (Option String) :=
  draft.classifiers.values.foldl (fun index classifier =>
    if classifier.hasStereotype "AngularRoute" || classifier.hasStereotype "SourceFile" then
      index
    else
      Ordered.set index classifier.name
        (if (index.get? classifier.name).isSome then none else some classifier.id)) []

/-- What a name in a file leads to. -/
inductive RouteLookup where
  /-- The name leads to a classifier. -/
  | target (id : String)
  /-- The name comes from outside of the project. -/
  | outside
  /-- The name leads nowhere. -/
  | missing
deriving DecidableEq, Repr

/-- What a name in a file leads to: what it means there, or else the one classifier of that name. -/
def lookup (draft : Draft) (index : Ordered (Option String)) (file name : String)
    (symbol : Option Symbol) : RouteLookup :=
  match symbol with
  | some symbol => .target symbol.classifierId
  | none =>
      if draft.symbols.isExternal file name then .outside
      else
        match (index.get? (Text.lastPiece '.' name)).getD none with
        | some id => .target id
        | none => .missing

/-- The edits that mark what a route leads to as a guard or as a resolver. -/
def roleEdits (id : String) (target : RouteTarget) : List Edit :=
  if Text.startsWith target.role "can" then
    [.change id (.stereotype "AngularGuard"), .change id (.tag "angular.guardRole" target.role)]
  else if target.role == "resolve" then
    [.change id (.stereotype "AngularResolver"),
      .change id (.tag "angular.resolveKey" ((Tag.get? target.extra "resolveKey").getD ""))]
  else
    []

/-- The finding about a name that leads nowhere. -/
def missingTarget (source : Source) (target : RouteTarget) : Finding :=
  let isLazy := ["loadChildren", "loadComponent"].contains target.role
  Finding.atLine (if isLazy then .unresolvedLazyModule else .unresolvedRouteTarget)
    ((if isLazy then "Lazy route target '" else "Route target '") ++ target.name
      ++ "' was not found as a classifier")
    source.path (source.lineOf target.node)
    ([("role", target.role), ("target", target.name)]
      ++ target.extra.map fun tag => (tag.key, tag.value))

/-- The edits of one name that a route leads to, as it is known in a file. -/
def targetEditsFrom (draft : Draft) (index : Ordered (Option String)) (source : Source)
    (routeId path : String) (target : RouteTarget) (file : String) : List Edit :=
  draft.withMeaning file target.name [] fun symbol =>
    match lookup draft index file target.name symbol with
    | .target id =>
        Routes.link draft.options source routeId id target.role target.node path target.extra
          ++ roleEdits id target
    | .outside => []
    | .missing => [.find (missingTarget source target)]

/-- The edits of one name that a route leads to: none when it is loaded from a package outside of
the project. A name that the loaded file does not know is looked up from the route's. -/
def targetEdits (draft : Draft) (index : Ordered (Option String)) (source : Source)
    (routeId path : String) (target : RouteTarget) : List Edit :=
  let editsFrom := targetEditsFrom draft index source routeId path target
  match target.specifier with
  | none => editsFrom source.path
  | some specifier =>
      match draft.symbols.resolver.resolve? specifier source.path with
      | some file =>
          draft.withMeaning file target.name [] fun
            | some _ => editsFrom file
            | none => editsFrom source.path
      | none => if ModuleResolver.isRelative specifier then editsFrom source.path else []

/-- What stands for an empty path in a route's name. -/
def emptyPathText : String := "(root)"

/-- The classifier and the links of a route, given the route around it. -/
def makeRoute (draft : Draft) (index : Ordered (Option String)) (source : Source)
    (parent : Option MadeRoute) (route : WrittenRoute) : MadeRoute × List Edit :=
  let fullPath := Routes.fullPath parent route.path
  let shown := if route.path.isEmpty then emptyPathText else route.path
  let classifier := RouteFramework.angular.classifier source route.node
    ("route:" ++ shown ++ " -> " ++ route.targetName) (route.path ++ "::" ++ route.targetName)
    ([⟨"angular.routePath", route.path⟩,
      ⟨"angular.routeLazy", if route.isLazy then "true" else "false"⟩,
      ⟨"angular.routeFullPath", fullPath⟩]
      ++ (route.redirect.map fun path => Tag.mk "angular.redirectTo" path).toList)
  ({ id := classifier.id, fullPath },
    [.classifier source.path classifier]
      ++ Routes.childLink draft.options source parent classifier.id route.node route.path
      ++ route.targets.flatMap (targetEdits draft index source classifier.id route.path))

/-- The edits of the routes in a file. -/
def routeEdits (draft : Draft) (index : Ordered (Option String)) (source : Source) : List Edit :=
  RouteTree.editsOfAll (makeRoute draft index source) none (routes source)

end Angular

namespace Draft

/-- The draft with the Angular routes of its program. -/
def addAngularRoutes (draft : Draft) : Draft :=
  let index := Angular.routeIndex draft
  draft.applyAll (draft.program.sources.flatMap (Angular.routeEdits draft index))

end Draft

end CodeGraph
