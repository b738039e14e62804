import CodeGraph.React.Component
import CodeGraph.Routes.RouteTree

/-!
# React routes

Routes are written as nested `Route` elements or as nested objects that are passed to a router.
-/

namespace CodeGraph

open Syntax

namespace React

/-- A route as it is written. -/
structure WrittenRoute where
  /-- The element or the object. -/
  node : Node
  /-- How the route is written. -/
  routerKind : String
  /-- Its path. -/
  path : String
  /-- It is the index of the route around it. -/
  isIndex : Bool
  /-- The component that it renders. -/
  target : String

/-- The attributes of a JSX element by name. -/
def jsxAttributes (source : Source) (element : Node) : Ordered (Option Node) :=
  let opening :=
    if element.kind == "jsx_self_closing_element" then some element else element.childIn? "open_tag"
  let written := (opening.map (·.namedChildren)).getD []
  (written.filter (·.kind == "jsx_attribute")).foldl (fun attributes item =>
    match item.namedChildren with
    | [] => attributes
    | [name] => Ordered.set attributes (source.text name) none
    | name :: value :: _ => Ordered.set attributes (source.text name) (some value)) []

/-- The value of a JSX attribute; of an expression, what stands inside of the braces. -/
def jsxValue? (value : Node) : Option Node :=
  if value.kind == "jsx_expression" then value.content.head?.bind (·.unwrap?) else some value

/-- The component that an expression names or renders. -/
def elementComponent? (source : Source) (node : Option Node) : Option String :=
  match node.bind (·.unwrap?) with
  | none => none
  | some node =>
      if node.isOneOf jsxElements then tagName? source node
      else if node.kind == "identifier" then some (source.text node)
      else none

/-- The route that a `Route` element is. -/
def jsxRoute (source : Source) (element : Node) : WrittenRoute :=
  let attributes := jsxAttributes source element
  let value (name : String) : Option Node := ((attributes.get? name).getD none).bind jsxValue?
  let component := (elementComponent? source (value "element")).filter (!·.isEmpty)
    <|> elementComponent? source (value "Component")
  { node := element
    routerKind := "jsx"
    path := (source.stringValue? (value "path")).getD ""
    isIndex := (attributes.get? "index").isSome && (value "index").all (·.kind == "true")
    target := component.getD "" }

mutual

/-- The routes that are written as elements at and below a node. -/
def jsxRoutes (source : Source) : Node → List (RouteTree WrittenRoute)
  | ⟨field, kind, named, start, stop, children⟩ =>
      let node : Node := ⟨field, kind, named, start, stop, children⟩
      if node.isOneOf jsxElements && tagName? source node == some "Route" then
        [.node (jsxRoute source node) (jsxRoutesOfAll source children)]
      else
        jsxRoutesOfAll source children

/-- The routes that are written as elements at and below nodes. -/
def jsxRoutesOfAll (source : Source) : List Node → List (RouteTree WrittenRoute)
  | [] => []
  | node :: nodes => jsxRoutes source node ++ jsxRoutesOfAll source nodes

end

/-- The route that an object is. -/
def dataRoute (source : Source) (object : Node) : WrittenRoute :=
  let target := elementComponent? source (source.property? object "element")
    <|> ((source.property? object "Component").filter (·.kind == "identifier")).map source.text
  { node := object
    routerKind := "data"
    path := (source.stringValue? (source.property? object "path")).getD ""
    isIndex := (source.property? object "index").any (·.kind == "true")
    target := target.getD "" }

/-- The routes in an array of objects. The first argument bounds the number of arrays inside of
each other. -/
def dataRoutesWithin (source : Source) : (fuel : Nat) → Node → List (RouteTree WrittenRoute)
  | 0, _ => []
  | fuel + 1, array =>
      (array.arrayEntries.filter (·.kind == "object")).map fun object =>
        .node (dataRoute source object)
          (match (source.property? object "children").bind (·.unwrap?) with
            | some children => dataRoutesWithin source fuel children
            | none => [])

/-- The functions that take arrays of routes. -/
def dataRouters : List String :=
  ["createBrowserRouter", "createHashRouter", "createMemoryRouter", "useRoutes"]

/-- The routes that are passed to routers in a file. -/
def dataRoutes (source : Source) : List (RouteTree WrittenRoute) :=
  source.root.preorder.flatMap fun node =>
    if node.kind == "call_expression"
        && dataRouters.contains (Text.lastPiece '.' (source.textOf (node.childIn? "function"))) then
      match Routes.argumentArray? source node with
      | some array => dataRoutesWithin source array.depth array
      | none => []
    else
      []

/-- The components of the project by name: the first of a name, or the first React component after
it. -/
def routeComponents (draft : Draft) : Ordered Classifier :=
  draft.classifiers.values.foldl (fun index classifier =>
    if classifier.kind == .component then
      match index.get? classifier.name with
      | none => Ordered.set index classifier.name classifier
      | some known =>
          if !known.hasStereotype "ReactComponent" && classifier.hasStereotype "ReactComponent" then
            Ordered.set index classifier.name classifier
          else
            index
    else
      index) []

/-- The edits of the component that a route renders. -/
def targetEdits (draft : Draft) (components : Ordered Classifier) (source : Source)
    (routeId routeName : String) (route : WrittenRoute) : List Edit :=
  draft.withMeaning source.path route.target [] fun symbol =>
    if symbol.isNone && draft.symbols.isExternal source.path route.target then
      []
    else
      let component :=
        match symbol with
        | some symbol => draft.classifier? symbol.classifierId
        | none => components.get? route.target
      match component.filter (·.kind == .component) with
      | some component =>
          Routes.link draft.options source routeId component.id "component" route.node route.path []
      | none =>
          [.find (Finding.atLine .unresolvedRouteTarget
            ("React route points to component '" ++ route.target
              ++ "' but no matching component classifier was found")
            source.path (source.lineOf route.node)
            [("route", routeName), ("role", "component"), ("target", route.target)])]

/-- The classifier and the links of a route, given the route around it. -/
def makeRoute (draft : Draft) (components : Ordered Classifier) (source : Source)
    (parent : Option MadeRoute) (route : WrittenRoute) : MadeRoute × List Edit :=
  let fullPath := Routes.fullPath parent route.path
  let index := if route.isIndex then "index" else ""
  let key := if route.path.isEmpty then index else route.path
  let name := if key.isEmpty then "Route" else "Route(" ++ key ++ ")"
  let classifier := RouteFramework.react.classifier source route.node name key
    [⟨"react.routerKind", route.routerKind⟩, ⟨"react.routePath", route.path⟩,
      ⟨"react.routeIndex", if route.isIndex then "true" else "false"⟩,
      ⟨"react.routeFullPath", fullPath⟩]
  ({ id := classifier.id, fullPath },
    [.classifier source.path classifier]
      ++ Routes.childLink draft.options source parent classifier.id route.node route.path
      ++ (if route.target.isEmpty then []
          else targetEdits draft components source classifier.id name route))

/-- The edits of the routes in a file. -/
def routeEdits (draft : Draft) (components : Ordered Classifier) (source : Source) : List Edit :=
  RouteTree.editsOfAll (makeRoute draft components source) none
    (jsxRoutes source source.root ++ dataRoutes source)

end React

namespace Draft

/-- The draft with the React routes of its program. -/
def addReactRoutes (draft : Draft) : Draft :=
  let components := React.routeComponents draft
  draft.applyAll (draft.program.sources.flatMap (React.routeEdits draft components))

end Draft

end CodeGraph
