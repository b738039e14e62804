import CodeGraph.Draft.Draft
import CodeGraph.Routes.RoutePath

/-!
# Route trees

Routes are read off the syntax as trees first; classifiers and relations are made from the trees.
Every route is a module classifier, known by its file, its path and its position. It carries its
whole path, and it is linked to the routes right below it.
-/

namespace CodeGraph

open Syntax

/-- A route of some sort with the routes right below it. -/
inductive RouteTree (α : Type) where
  /-- A route and the trees below it. -/
  | node (route : α) (children : List (RouteTree α))

/-- A route that has become a classifier. -/
structure MadeRoute where
  /-- The id of its classifier. -/
  id : String
  /-- Its whole path. -/
  fullPath : String
deriving DecidableEq, Repr

namespace RouteTree

mutual

/-- The edits of a tree: those of the route, given the route around it, then those of the trees
below it. -/
def edits {α : Type} (make : Option MadeRoute → α → MadeRoute × List Edit)
    (parent : Option MadeRoute) : RouteTree α → List Edit
  | .node route children =>
      let (made, own) := make parent route
      own ++ editsOfAll make (some made) children

/-- The edits of trees, one after the other. -/
def editsOfAll {α : Type} (make : Option MadeRoute → α → MadeRoute × List Edit)
    (parent : Option MadeRoute) : List (RouteTree α) → List Edit
  | [] => []
  | tree :: trees => edits make parent tree ++ editsOfAll make parent trees

end

end RouteTree

/-- A framework whose routes are read. -/
structure RouteFramework where
  /-- The framework's name. -/
  name : String
  /-- The role of its routes. -/
  stereotype : String

namespace RouteFramework

/-- The routes of React. -/
def react : RouteFramework := ⟨"react", "ReactRoute"⟩

/-- The routes of Angular. -/
def angular : RouteFramework := ⟨"angular", "AngularRoute"⟩

/-- The classifier of a route. -/
def classifier (framework : RouteFramework) (source : Source) (node : Node) (name key : String)
    (tags : List Tag) : Classifier :=
  let qualified := source.path ++ "#" ++ framework.name ++ "-route:" ++ key
  let position := toString (source.lineOf node) ++ ":" ++ toString (source.columnOf node)
  { id := classifierId .module (qualified ++ "@" ++ position)
    name
    kind := .module
    qualifiedName := some qualified
    packageId := some (packageId (PackageMap.directoryOf source.path))
    stereotypes := [{ name := framework.stereotype }]
    tags := ⟨"framework", framework.name⟩ :: tags
    source := some (source.place node) }

end RouteFramework

namespace Routes

/-- The link from a route to what it leads to, where relations of the framework are asked for. -/
def link (options : ExtractOptions) (source : Source) (routeId targetId role : String) (node : Node)
    (path : String) (extra : List Tag) : List Edit :=
  if options.includeFrameworkEdges then
    [.relate
      { kind := .routeTo
        sourceId := routeId
        targetId
        name := if path.isEmpty then none else some path
        tags := [⟨"origin", "router"⟩, ⟨"role", role⟩] ++ extra
        source := some (source.place node)
        discriminator := some (String.intercalate ":" (role :: extra.map (·.value))) }]
  else
    []

/-- The link from the route around a route to it. -/
def childLink (options : ExtractOptions) (source : Source) (parent : Option MadeRoute) (id : String)
    (node : Node) (path : String) : List Edit :=
  match parent with
  | some parent => link options source parent.id id "child" node path []
  | none => []

/-- The whole path of a route, given the route around it. -/
def fullPath (parent : Option MadeRoute) (path : String) : String :=
  RoutePath.full ((parent.map (·.fullPath)).getD "") path

/-- The first argument of a call that is no comment. -/
def firstArgument? (call : Node) : Option Node :=
  (call.childIn? "arguments").bind (·.content.head?)

/-- The array that a variable of a file is set to. -/
def localArray? (source : Source) (name : String) : Option Node :=
  source.root.preorder.findSome? fun node =>
    if node.kind == "variable_declarator" && source.textOf (node.childIn? "name") == name then
      ((node.childIn? "value").bind (·.unwrap?)).filter (·.kind == "array")
    else
      none

/-- The array that is passed to a call, written there or in a variable of the file. -/
def argumentArray? (source : Source) (call : Node) : Option Node :=
  match (firstArgument? call).bind (·.unwrap?) with
  | none => none
  | some argument =>
      if argument.kind == "array" then some argument
      else if argument.kind == "identifier" then localArray? source (source.text argument)
      else none

end Routes

end CodeGraph
