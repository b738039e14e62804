import CodeGraph.Proofs.Draft.EdgeTypes
import CodeGraph.Proofs.Routes.ReadOnce

/-!
# What is told of nested routes

The routes of a program are nested in its files. A route is added with its whole path, and linked as
a child to the route around it, and nothing else that is added or linked tells of nested routes. No
change tells of them either: the tags of whole paths are never set.
-/

namespace CodeGraph

open Syntax Edit

/-! ## The routes of a program -/

/-- A route that is declared. -/
structure Routes.Declared where
  /-- The id of its classifier. -/
  id : String
  /-- Its path. -/
  path : String
deriving DecidableEq

namespace RouteFramework

/-- The id of the classifier of a route. -/
def routeId (framework : RouteFramework) (source : Source) (node : Node) (key : String) : String :=
  (framework.classifier source node "" key []).id

/-- The key of the tag with the whole path of a route. -/
def fullPathKey (framework : RouteFramework) : String :=
  framework.name ++ ".routeFullPath"

@[simp]
theorem fullPathKey_react : fullPathKey .react = "react.routeFullPath" := rfl

@[simp]
theorem fullPathKey_angular : fullPathKey .angular = "angular.routeFullPath" := rfl

theorem react_ne_angular : react ≠ angular := by
  simp [react, angular]

end RouteFramework

/-- A React route of a file. -/
def React.WrittenRoute.declared (source : Source) (route : React.WrittenRoute) :
    Routes.Declared where
  id :=
    let key := if route.path.isEmpty then if route.isIndex then "index" else "" else route.path
    RouteFramework.react.routeId source route.node key
  path := route.path

/-- An Angular route of a file. -/
def Angular.WrittenRoute.declared (source : Source) (route : Angular.WrittenRoute) :
    Routes.Declared where
  id := RouteFramework.angular.routeId source route.node (route.path ++ "::" ++ route.targetName)
  path := route.path

@[simp]
theorem React.WrittenRoute.declared_path (source : Source) (route : React.WrittenRoute) :
    (route.declared source).path = route.path := rfl

@[simp]
theorem Angular.WrittenRoute.declared_path (source : Source) (route : Angular.WrittenRoute) :
    (route.declared source).path = route.path := rfl

/-- The routes of a framework that is read are nested in a program, each the nearest around the next
one. -/
inductive Program.Nests (program : Program) (options : ExtractOptions) :
    RouteFramework → List Routes.Declared → Prop
  | react {source : Source} {chain : List React.WrittenRoute} (asked : options.react = true)
      (listed : source ∈ program.sources) (nested : React.Nested source chain) :
      Nests program options .react (chain.map (React.WrittenRoute.declared source))
  | angular {source : Source} {chain : List Angular.WrittenRoute} (asked : options.angular = true)
      (listed : source ∈ program.sources) (nested : Angular.Nested source chain) :
      Nests program options .angular (chain.map (Angular.WrittenRoute.declared source))

/-- Routes with one id are the same route, inside of the same routes. -/
def Program.RoutesDistinct (program : Program) (options : ExtractOptions) : Prop :=
  ∀ framework front route, program.Nests options framework (front ++ [route]) →
    ∀ other others last, program.Nests options other (others ++ [last]) → last.id = route.id →
      other = framework ∧ others ++ [last] = front ++ [route]

/-- The routes that are nested in a program, by framework. -/
def Program.nestings (program : Program) (options : ExtractOptions) :
    List (RouteFramework × List Routes.Declared) :=
  (if options.react then
    program.sources.flatMap fun source => (React.nestings source).map fun chain =>
      (.react, chain.map (React.WrittenRoute.declared source)) else [])
    ++ (if options.angular then
      program.sources.flatMap fun source => (Angular.nestings source).map fun chain =>
        (.angular, chain.map (Angular.WrittenRoute.declared source)) else [])

theorem Program.mem_nestings {program : Program} {options : ExtractOptions}
    {framework : RouteFramework} {chain : List Routes.Declared} :
    (framework, chain) ∈ program.nestings options ↔ program.Nests options framework chain := by
  simp only [nestings, List.mem_append, List.mem_ite_nil_right, List.mem_flatMap, List.mem_map,
    Prod.mk.injEq]
  constructor
  · rintro (⟨asked, source, listed, way, nested, rfl, rfl⟩ |
      ⟨asked, source, listed, way, nested, rfl, rfl⟩)
    · exact .react asked listed (React.mem_nestings.mp nested)
    · exact .angular asked listed (Angular.mem_nestings.mp nested)
  · rintro (⟨asked, listed, nested⟩ | ⟨asked, listed, nested⟩)
    · exact .inl ⟨asked, _, listed, _, React.mem_nestings.mpr nested, rfl, rfl⟩
    · exact .inr ⟨asked, _, listed, _, Angular.mem_nestings.mpr nested, rfl, rfl⟩

theorem Program.routesDistinct_of_nodup {program : Program} {options : ExtractOptions}
    (nodup : ((program.nestings options).map (·.2.getLast?.map (·.id))).Nodup) :
    program.RoutesDistinct options := by
  intro framework front route nests other others last other_nests same
  exact Prod.mk.inj (List.inj_on_of_nodup_map nodup (mem_nestings.mpr other_nests)
    (mem_nestings.mpr nests) (by simp [same]))

/-! ## Edits -/

/-- The classifier is that of a route of a framework, with its whole path. -/
structure RouteFramework.Shows (framework : RouteFramework) (id path : String)
    (added : Classifier) : Prop where
  id_eq : added.id = id
  isRoute : added.IsRoute
  path_iff : ∀ other ∈ [RouteFramework.react, .angular], ∀ value,
    added.tag? other.fullPathKey = some value ↔ other = framework ∧ path = value

/-- The edit tells nothing of nested routes. -/
def Edit.Silent : Edit → Prop
  | .classifier _ added => ¬ added.IsRoute ∧
      ∀ framework ∈ [RouteFramework.react, .angular], added.tag? framework.fullPathKey = none
  | .change _ (.tag key _) =>
      ∀ framework ∈ [RouteFramework.react, .angular], key ≠ framework.fullPathKey
  | .relate link => link.kind = .routeTo → ⟨"role", "child"⟩ ∉ link.tags
  | _ => True

/-- What the edit tells of nested routes is so in a program. -/
inductive Edit.Tells (program : Program) (options : ExtractOptions) : Edit → Prop
  | silent {edit : Edit} (silent : edit.Silent) : Tells program options edit
  /-- A route has its whole path. -/
  | route {framework : RouteFramework} {front : List Routes.Declared} {route : Routes.Declared}
      {file : String} {added : Classifier}
      (nests : program.Nests options framework (front ++ [route]))
      (shows : framework.Shows route.id (RoutePath.whole ((front ++ [route]).map (·.path))) added) :
      Tells program options (.classifier file added)
  /-- A route is the child of the nearest route around it. -/
  | child {framework : RouteFramework} {front : List Routes.Declared}
      {around route : Routes.Declared} {link : Link}
      (asked : options.includeFrameworkEdges = true)
      (nests : program.Nests options framework (front ++ [around, route]))
      (source_eq : link.sourceId = around.id) (target_eq : link.targetId = route.id) :
      Tells program options (.relate link)

/-- The edits tell all there is to tell of a route inside of others: its whole path, and whose child
it is. -/
structure Edit.TellAllOf (options : ExtractOptions) (framework : RouteFramework)
    (front : List Routes.Declared) (route : Routes.Declared) (edits : List Edit) : Prop where
  path : ∃ file added, .classifier file added ∈ edits ∧
    framework.Shows route.id (RoutePath.whole ((front ++ [route]).map (·.path))) added
  child : ∀ others around, front = others ++ [around] → options.includeFrameworkEdges = true →
    ∃ link : Link, .relate link ∈ edits ∧ link.kind = .routeTo ∧ ⟨"role", "child"⟩ ∈ link.tags ∧
      link.sourceId = around.id ∧ link.targetId = route.id

theorem Edit.TellAllOf.mono {options : ExtractOptions} {framework : RouteFramework}
    {front : List Routes.Declared} {route : Routes.Declared} {edits more : List Edit}
    (told : TellAllOf options framework front route edits) (subset : edits ⊆ more) :
    TellAllOf options framework front route more := by
  refine ⟨?_, fun others around front_eq asked => ?_⟩
  · obtain ⟨file, added, present, shows⟩ := told.path
    exact ⟨file, added, subset present, shows⟩
  · obtain ⟨link, present, further⟩ := told.child others around front_eq asked
    exact ⟨link, subset present, further⟩

/-! ## What a route makes -/

namespace Routes

/-- The edits are those of a route of a framework, given the route around it: it becomes a
classifier with its whole path and is linked to the route around it, and nothing else is told of
nested routes. -/
def MadeOf (options : ExtractOptions) (framework : RouteFramework) (source : Source)
    (parent : Option MadeRoute) (route : Declared) (edits : List Edit) : Prop :=
  ∃ added node further,
    edits = .classifier source.path added
        :: childLink options source parent route.id node route.path ++ further ∧
      framework.Shows route.id (fullPath parent route.path) added ∧ All Silent further

/-- The link from a route to one right below it. -/
def toChild (source : Source) (aroundId id : String) (node : Node) (path : String) : Link where
  kind := .routeTo
  sourceId := aroundId
  targetId := id
  name := if path.isEmpty then none else some path
  tags := [⟨"origin", "router"⟩, ⟨"role", "child"⟩]
  source := some (source.place node)
  discriminator := some (String.intercalate ":" ["child"])

theorem childLink_some (options : ExtractOptions) (source : Source) (parent : MadeRoute)
    (id : String) (node : Node) (path : String) :
    childLink options source (some parent) id node path =
      if options.includeFrameworkEdges then [.relate (toChild source parent.id id node path)]
      else [] := rfl

theorem link_silent {role : String} {extra : List Tag} (role_ne : role ≠ "child")
    (keys : ∀ tag ∈ extra, tag.key ∈ extraKeys) (options : ExtractOptions) (source : Source)
    (routeId targetId : String) (node : Node) (path : String) :
    All Silent (link options source routeId targetId role node path extra) := by
  rw [link]
  split
  · refine .single fun _ tagged => ?_
    rcases List.mem_append.mp tagged with told | further
    · simp [role_ne.symm] at told
    · exact absurd (keys _ further) (by simp [extraKeys])
  · exact all_nil

end Routes

namespace RouteTree

variable {α : Type} {program : Program} {options : ExtractOptions} {framework : RouteFramework}
  {source : Source} {declared : α → Routes.Declared}
  {make : Option MadeRoute → α → MadeRoute × List Edit} {trees : List (RouteTree α)}

/-- Inside of the routes on a way, a route is linked to the last one of them. -/
theorem mem_childLink_made
    (paths : MakesPaths make (fun route => (declared route).id) fun route => (declared route).path)
    {front : List α} {id path : String} {node : Node} {edit : Edit} :
    edit ∈ Routes.childLink options source (made make none front) id node path
      ↔ options.includeFrameworkEdges = true ∧ ∃ others around, front = others ++ [around] ∧
        edit = .relate (Routes.toChild source (declared around).id id node path) := by
  rcases List.eq_nil_or_concat front with rfl | ⟨others, around, rfl⟩
  · simp [made, Routes.childLink]
  · rw [List.concat_eq_append, paths.made_concat, Routes.childLink_some]
    cases options.includeFrameworkEdges <;> simp

section

variable
  (paths : MakesPaths make (fun route => (declared route).id) fun route => (declared route).path)
  (madeOf : ∀ chain ∈ chainsOfAll trees, ∀ route ∈ chain, ∀ parent,
    Routes.MadeOf options framework source parent (declared route) (make parent route).2)
include paths madeOf

/-- What the edits of trees tell of nested routes is so, if the ways down them are nested routes. -/
theorem tells_editsOfAll
    (nested : ∀ chain ∈ chainsOfAll trees, program.Nests options framework (chain.map declared)) :
    All (Tells program options) (editsOfAll make none trees) := by
  refine ⟨fun edit present => ?_⟩
  obtain ⟨front, route, way, one⟩ := (mem_editsOfAll make none trees).mp present
  obtain ⟨added, node, further, edits_eq, shows, silent⟩ :=
    madeOf _ way route (by simp) (made make none front)
  have nests := nested _ way
  rw [List.map_append, List.map_singleton] at nests
  rw [paths.fullPath_eq] at shows
  rw [edits_eq, List.cons_append, List.mem_cons, List.mem_append] at one
  rcases one with rfl | child | other
  · exact .route nests (by simpa [Function.comp_def] using shows)
  · obtain ⟨asked, others, around, rfl, rfl⟩ := (mem_childLink_made paths).mp child
    exact .child asked (by simpa using nests) rfl rfl
  · exact .silent (silent.of_mem edit other)

/-- The edits of trees tell all there is to tell of a route at the end of a way down them. -/
theorem tellAllOf_editsOfAll {front : List α} {route : α}
    (way : front ++ [route] ∈ chainsOfAll trees) :
    TellAllOf options framework (front.map declared) (declared route)
      (editsOfAll make none trees) := by
  obtain ⟨added, node, further, edits_eq, shows, silent⟩ :=
    madeOf _ way route (by simp) (made make none front)
  have listed : ∀ edit ∈ (make (made make none front) route).2,
      edit ∈ editsOfAll make none trees :=
    fun edit one => (mem_editsOfAll make none trees).mpr ⟨front, route, way, one⟩
  rw [edits_eq] at listed
  rw [paths.fullPath_eq] at shows
  refine ⟨⟨_, added, listed _ List.mem_cons_self, by simpa [Function.comp_def] using shows⟩, ?_⟩
  intro _ _ front_eq asked
  obtain ⟨others, last, rfl, rfl, last_eq⟩ := List.map_eq_append_iff.mp front_eq
  obtain ⟨around, rfl, rfl⟩ := List.map_eq_singleton_iff.mp last_eq
  let link := Routes.toChild source (declared around).id (declared route).id node
    (declared route).path
  have child : .relate link ∈ Routes.childLink options source (made make none (others ++ [around]))
      (declared route).id node (declared route).path :=
    (mem_childLink_made paths).mpr ⟨asked, others, around, rfl, rfl⟩
  exact ⟨link, listed _ (List.mem_append_left _ (List.mem_cons_of_mem _ child)), rfl,
    by simp [link, Routes.toChild], rfl, rfl⟩

end

end RouteTree

namespace React

variable {draft : Draft} {source : Source}

theorem targetEdits_silent (components : Ordered Classifier) (routeId routeName : String)
    (route : WrittenRoute) :
    All Silent (targetEdits draft components source routeId routeName route) := by
  refine .ofMeaning (fun symbol _ => ?_) trivial
  split
  · exact all_nil
  · simp only
    split
    · exact Routes.link_silent (by simp) (by simp) ..
    · exact .single trivial

theorem makeRoute_madeOf (draft : Draft) (components : Ordered Classifier) (source : Source)
    (parent : Option MadeRoute) (route : WrittenRoute) :
    Routes.MadeOf draft.options .react source parent (route.declared source)
      (makeRoute draft components source parent route).2 := by
  refine ⟨_, route.node, _, List.append_assoc .., ⟨rfl, .inl rfl, ?_⟩, ?_⟩
  · intro other listed value
    rcases List.mem_cons.mp listed with rfl | last
    · simp [Classifier.tag?, Tag.get?, RouteFramework.classifier]
    · obtain rfl := List.mem_singleton.mp last
      simp [Classifier.tag?, Tag.get?, RouteFramework.classifier,
        RouteFramework.react_ne_angular.symm]
  · split
    · exact all_nil
    · exact targetEdits_silent ..

end React

namespace Angular

variable {draft : Draft} {source : Source}

theorem roleEdits_silent (id : String) (target : RouteTarget) :
    All Silent (roleEdits id target) := by
  rw [roleEdits]
  split
  · exact all_cons.mpr ⟨trivial, .single (by simp [Silent])⟩
  · split
    · exact all_cons.mpr ⟨trivial, .single (by simp [Silent])⟩
    · exact all_nil

theorem targetEdits_silent (index : Ordered (Option String)) (routeId path : String)
    {target : RouteTarget} (plain : target.Plain) :
    All Silent (targetEdits draft index source routeId path target) := by
  have told (file : String) :
      All Silent (targetEditsFrom draft index source routeId path target file) := by
    refine .ofMeaning (fun symbol _ => ?_) trivial
    split
    · exact (Routes.link_silent plain.role_ne plain.keys ..).append (roleEdits_silent ..)
    · exact all_nil
    · exact .single trivial
  simp only [targetEdits]
  split
  · exact told _
  · split
    · refine .ofMeaning (fun symbol _ => ?_) trivial
      cases symbol <;> exact told _
    · split
      · exact told _
      · exact all_nil

theorem makeRoute_madeOf (draft : Draft) (index : Ordered (Option String)) (source : Source)
    (parent : Option MadeRoute) {route : WrittenRoute} (plain : route.Plain) :
    Routes.MadeOf draft.options .angular source parent (route.declared source)
      (makeRoute draft index source parent route).2 := by
  refine ⟨_, route.node, _, List.append_assoc .., ⟨rfl, .inr rfl, ?_⟩, ?_⟩
  · intro other listed value
    rcases List.mem_cons.mp listed with rfl | last
    · cases route.redirect <;>
        simp [Classifier.tag?, Tag.get?, RouteFramework.classifier, RouteFramework.react_ne_angular]
    · obtain rfl := List.mem_singleton.mp last
      simp [Classifier.tag?, Tag.get?, RouteFramework.classifier]
  · exact .flatMap fun target listed => targetEdits_silent _ _ _ (plain target listed)

end Angular

/-! ## The routes of a file -/

section

variable {program : Program} {options : ExtractOptions} {draft : Draft} {source : Source}
  (options_eq : draft.options = options)
include options_eq

theorem React.tells_routeEdits (asked : options.react = true) (listed : source ∈ program.sources)
    (components : Ordered Classifier) :
    All (Tells program options) (React.routeEdits draft components source) := by
  subst options_eq
  refine RouteTree.tells_editsOfAll (fun _ _ => rfl)
    (fun _ _ route _ parent => makeRoute_madeOf draft components source parent route) ?_
  exact fun chain way => .react asked listed (mem_nestings.mp way)

theorem React.tellAllOf_routeEdits (components : Ordered Classifier) {front : List WrittenRoute}
    {route : WrittenRoute} (nested : Nested source (front ++ [route])) :
    TellAllOf options .react (front.map (·.declared source)) (route.declared source)
      (React.routeEdits draft components source) := by
  subst options_eq
  exact RouteTree.tellAllOf_editsOfAll (fun _ _ => rfl)
    (fun _ _ route _ parent => makeRoute_madeOf draft components source parent route)
    (mem_nestings.mpr nested)

omit options_eq in
theorem Angular.madeOf_of_mem_chainsOfAll (index : Ordered (Option String))
    {chain : List WrittenRoute} (way : chain ∈ RouteTree.chainsOfAll (routes source))
    {route : WrittenRoute} (listed : route ∈ chain) (parent : Option MadeRoute) :
    Routes.MadeOf draft.options .angular source parent (route.declared source)
      (makeRoute draft index source parent route).2 := by
  obtain ⟨_, _, _⟩ := nested_of_mem_chainsOfAll way
  obtain ⟨object, _, rfl⟩ := List.mem_map.mp listed
  exact makeRoute_madeOf draft index source parent (writtenRoute_plain source object)

theorem Angular.tells_routeEdits (asked : options.angular = true)
    (listed : source ∈ program.sources) (index : Ordered (Option String)) :
    All (Tells program options) (Angular.routeEdits draft index source) := by
  subst options_eq
  refine RouteTree.tells_editsOfAll (fun _ _ => rfl)
    (fun _ way _ one parent => madeOf_of_mem_chainsOfAll index way one parent) ?_
  exact fun chain way => .angular asked listed (nested_of_mem_chainsOfAll way)

/-- An array is read where it is met first, and routes that are not distinct would be told of there
only. -/
theorem Angular.tellAllOf_routeEdits (distinct : program.RoutesDistinct options)
    (asked : options.angular = true) (listed : source ∈ program.sources)
    (apart : ArraysApart source) (index : Ordered (Option String)) {front : List WrittenRoute}
    {route : WrittenRoute} (nested : Nested source (front ++ [route])) :
    TellAllOf options .angular (front.map (·.declared source)) (route.declared source)
      (Angular.routeEdits draft index source) := by
  obtain ⟨others, way⟩ := apart.ends_of_nested nested
  have here : program.Nests options .angular _ := .angular asked listed nested
  have there : program.Nests options .angular _ :=
    .angular asked listed (nested_of_mem_chainsOfAll way)
  rw [List.map_append, List.map_singleton] at here there
  have same := (distinct _ _ _ here _ _ _ there rfl).2
  rw [← (List.append_inj' same rfl).1]
  subst options_eq
  exact RouteTree.tellAllOf_editsOfAll (fun _ _ => rfl)
    (fun _ way _ one parent => madeOf_of_mem_chainsOfAll index way one parent) way

end

end CodeGraph
