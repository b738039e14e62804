import CodeGraph.Project.Pass
import CodeGraph.Proofs.Draft.DeclarationEdits
import Mathlib.Data.Set.Defs

/-!
# What routes are read as

The routes of a file are a tree in both frameworks. An edit that a route makes adds it, or links it
to what it leads to, and a link starts from a route that has been added. A link to a route below is
told as one, and no other link is.
-/

namespace CodeGraph

open Syntax Edit

/-! ## Routes -/

/-- The classifier stands for a route. -/
def Classifier.IsRoute (classifier : Classifier) : Prop :=
  classifier.hasStereotype "ReactRoute" = true ∨ classifier.hasStereotype "AngularRoute" = true

/-- The ids of the routes that edits add. -/
def Edit.routeIds (edits : List Edit) : Set String :=
  {id | ∃ file route, Edit.classifier file route ∈ edits ∧ route.IsRoute ∧ route.id = id}

namespace RouteFramework

theorem isRoute_classifier {framework : RouteFramework}
    (known : framework = .react ∨ framework = .angular) (source : Source) (node : Node)
    (name key : String) (tags : List Tag) :
    (framework.classifier source node name key tags).IsRoute := by
  rcases known with rfl | rfl
  · exact .inl rfl
  · exact .inr rfl

end RouteFramework

namespace Routes

/-- The keys of the tags that tell more about where a route leads. -/
def extraKeys : List String := ["resolveKey", "specifier"]

/-- The forms of edits that the routes of a file make, when names have these meanings and the ids in
`routes` are those of routes. -/
inductive Routed (symbols : SymbolTable) (source : Source) (routes : Set String) : Edit → Prop
  /-- A route becomes a classifier. -/
  | route {framework : RouteFramework} {node : Node} {name key : String} {tags : List Tag}
      (distinct : ("framework" :: tags.map (·.key)).Nodup) (named : Tag.Named tags)
      (known : framework = .react ∨ framework = .angular) :
      Routed symbols source routes
        (.classifier source.path (framework.classifier source node name key tags))
  /-- A route leads somewhere, and to a route if it says that this is a child. -/
  | link {routeId targetId role : String} {name discriminator : Option String} {node : Node}
      {extra : List Tag} (start : routeId ∈ routes) (child : role = "child" → targetId ∈ routes)
      (keys : ∀ tag ∈ extra, tag.key ∈ extraKeys) :
      Routed symbols source routes (.relate
        { kind := .routeTo
          sourceId := routeId
          targetId
          name
          tags := [⟨"origin", "router"⟩, ⟨"role", role⟩] ++ extra
          source := some (source.place node)
          discriminator })
  /-- What a route leads to gets a role. -/
  | stereotype {id name : String} (role : Stereotype.IsRole name) :
      Routed symbols source routes (.change id (.stereotype name))
  /-- What a route leads to gets a tag. -/
  | tag {id key value : String} (mark : Tag.IsMark key) :
      Routed symbols source routes (.change id (.tag key value))
  | find {finding : Finding} (fair : finding.Fair symbols source.path []) :
      Routed symbols source routes (.find finding)
  | giveUp : Routed symbols source routes .giveUp

section

variable {symbols : SymbolTable} {routes : Set String} {routeId : String}
  (start : routeId ∈ routes)
include start

theorem link_routed {targetId role : String} {extra : List Tag}
    (child : role = "child" → targetId ∈ routes) (keys : ∀ tag ∈ extra, tag.key ∈ extraKeys)
    (options : ExtractOptions) (node : Node) (path : String) :
    All (Routed symbols source routes)
      (link options source routeId targetId role node path extra) := by
  rw [link]
  split
  · exact .single (.link start child keys)
  · exact all_nil

theorem childLink_routed {parent : Option MadeRoute}
    (around_route : ∀ around ∈ parent, around.id ∈ routes) (options : ExtractOptions) (node : Node)
    (path : String) :
    All (Routed symbols source routes) (childLink options source parent routeId node path) := by
  cases parent with
  | none => exact all_nil
  | some around =>
      exact link_routed (around_route around rfl) (fun _ => start) (by simp) options node path

end

end Routes

namespace RouteTree

variable {α : Type} {good : α → Prop}

mutual

/-- Every route of a tree is good. -/
def Holds (good : α → Prop) : RouteTree α → Prop
  | .node route children => good route ∧ HoldsAll good children

/-- Every route of trees is good. -/
def HoldsAll (good : α → Prop) : List (RouteTree α) → Prop
  | [] => True
  | tree :: trees => Holds good tree ∧ HoldsAll good trees

end

theorem holdsAll_append {first second : List (RouteTree α)} :
    HoldsAll good (first ++ second) ↔ HoldsAll good first ∧ HoldsAll good second := by
  induction first with
  | nil => simp [HoldsAll]
  | cons tree first ih => rw [List.cons_append, HoldsAll, HoldsAll, ih, and_assoc]

mutual

theorem holds_of_forall (all : ∀ route, good route) (tree : RouteTree α) : tree.Holds good :=
  match tree with
  | .node route children => ⟨all route, holdsAll_of_forall all children⟩

theorem holdsAll_of_forall (all : ∀ route, good route) (trees : List (RouteTree α)) :
    HoldsAll good trees :=
  match trees with
  | [] => trivial
  | tree :: trees => ⟨holds_of_forall all tree, holdsAll_of_forall all trees⟩

end

variable {make : Option MadeRoute → α → MadeRoute × List Edit} {form : Edit → Prop}
  {routes : Set String} {whole : List Edit}

/-- Among edits that add the routes with these ids, a good route makes edits of a form inside of a
route that has such an id, and has one itself. -/
def MakesForm (good : α → Prop) (form : Edit → Prop) (routes : Set String) (whole : List Edit)
    (make : Option MadeRoute → α → MadeRoute × List Edit) : Prop :=
  ∀ parent route, good route → (∀ around ∈ parent, around.id ∈ routes) →
    (make parent route).2 ⊆ whole →
      All form (make parent route).2 ∧ (make parent route).1.id ∈ routes

mutual

theorem all_edits (makes : MakesForm good form routes whole make) {parent : Option MadeRoute}
    (around_route : ∀ around ∈ parent, around.id ∈ routes) (tree : RouteTree α)
    (holds : tree.Holds good) (subset : tree.edits make parent ⊆ whole) :
    All form (tree.edits make parent) :=
  match tree with
  | .node route children => by
      obtain ⟨here, below⟩ := List.append_subset.mp subset
      obtain ⟨own, made_route⟩ := makes parent route holds.1 around_route here
      refine own.append (all_editsOfAll makes ?_ children holds.2 below)
      rintro around ⟨⟩
      exact made_route

theorem all_editsOfAll (makes : MakesForm good form routes whole make)
    {parent : Option MadeRoute} (around_route : ∀ around ∈ parent, around.id ∈ routes)
    (trees : List (RouteTree α)) (holds : HoldsAll good trees)
    (subset : editsOfAll make parent trees ⊆ whole) : All form (editsOfAll make parent trees) :=
  match trees with
  | [] => all_nil
  | tree :: trees => by
      obtain ⟨here, further⟩ := List.append_subset.mp subset
      exact (all_edits makes around_route tree holds.1 here).append
        (all_editsOfAll makes around_route trees holds.2 further)

end

end RouteTree

/-! ## React routes -/

namespace React

theorem targetEdits_routed {routes : Set String} {routeId : String} (start : routeId ∈ routes)
    (components : Ordered Classifier) (routeName : String) (route : WrittenRoute) :
    All (Routes.Routed draft.symbols source routes)
      (targetEdits draft components source routeId routeName route) := by
  refine .ofMeaning (fun symbol told => ?_) .giveUp
  split
  next => exact all_nil
  next known =>
    simp only
    split
    · exact Routes.link_routed start (by simp) (by simp) ..
    · refine .single (.find (.of_tells nofun (Finding.isAbout_atLine rfl ..) told ?_))
      rintro rfl
      simpa using known

theorem makeRoute_makesForm (draft : Draft) (components : Ordered Classifier) (source : Source)
    (whole : List Edit) :
    RouteTree.MakesForm (fun _ => True) (Routes.Routed draft.symbols source (routeIds whole))
      (routeIds whole)
      whole (makeRoute draft components source) := by
  intro parent route _ around_route subset
  have made_route : (makeRoute draft components source parent route).1.id ∈ routeIds whole :=
    ⟨source.path, _, subset List.mem_cons_self,
      RouteFramework.isRoute_classifier (.inl rfl) .., rfl⟩
  refine ⟨?_, made_route⟩
  refine .append (.append (.single (.route ?_ ?_ (.inl rfl))) ?_) ?_
  · simp
  · simp [Tag.Named]
  · exact Routes.childLink_routed made_route around_route ..
  · split
    · exact all_nil
    · exact targetEdits_routed made_route ..

theorem routeEdits_routed (draft : Draft) (components : Ordered Classifier) (source : Source)
    {whole : List Edit} (subset : routeEdits draft components source ⊆ whole) :
    All (Routes.Routed draft.symbols source (routeIds whole))
      (routeEdits draft components source) :=
  RouteTree.all_editsOfAll (makeRoute_makesForm draft components source whole) (by simp) _
    (RouteTree.holdsAll_of_forall (fun _ => trivial) _) subset

end React

/-! ## Angular routes -/

namespace Angular

/-- The name is not that of a route below, and its tags tell where the route leads. -/
structure RouteTarget.Plain (target : RouteTarget) : Prop where
  role_ne : target.role ≠ "child"
  keys : ∀ tag ∈ target.extra, tag.key ∈ Routes.extraKeys

/-- All names that the route leads to are plain. -/
def WrittenRoute.Plain (route : WrittenRoute) : Prop :=
  ∀ target ∈ route.targets, target.Plain

theorem lazyTarget_plain {role : String} (role_ne : role ≠ "child") (node : Node)
    (lazy : LazyTarget) : ∀ target ∈ lazyTarget role node lazy, target.Plain := by
  intro target listed
  rw [lazyTarget] at listed
  split at listed
  · obtain rfl := List.mem_singleton.mp listed
    refine ⟨role_ne, fun tag present => ?_⟩
    obtain ⟨specifier, _, rfl⟩ := Option.map_eq_some_iff.mp (Option.mem_toList.mp present)
    simp [Routes.extraKeys]
  · exact absurd listed List.not_mem_nil

theorem resolverTargets_plain (source : Source) (object : Node) :
    ∀ target ∈ resolverTargets source object, target.Plain := by
  have plain (key name : String) (node : Node) :
      RouteTarget.Plain { role := "resolve", name, node, extra := [⟨"resolveKey", key⟩] } :=
    ⟨by simp, by simp [Routes.extraKeys]⟩
  intro target listed
  rw [resolverTargets] at listed
  split at listed
  · obtain ⟨entry, _, made⟩ := List.mem_filterMap.mp listed
    simp only at made
    split at made
    · exact Option.some.inj made ▸ plain ..
    · split at made
      · obtain ⟨name, _, rfl⟩ := Option.map_eq_some_iff.mp made
        exact plain ..
      · simp at made
  · exact absurd listed List.not_mem_nil

theorem writtenRoute_plain (source : Source) (object : Node) :
    (writtenRoute source object).Plain := by
  intro target listed
  simp only [writtenRoute, List.mem_append] at listed
  rcases listed with (((component | loaded) | loaded) | guarded) | resolved
  · obtain ⟨name, _, rfl⟩ := Option.map_eq_some_iff.mp (Option.mem_toList.mp component)
    exact ⟨by simp, by simp⟩
  · exact lazyTarget_plain (by simp) _ _ target loaded
  · exact lazyTarget_plain (by simp) _ _ target loaded
  · obtain ⟨role, role_mem, one⟩ := List.mem_flatMap.mp guarded
    obtain ⟨item, _, named⟩ := List.mem_filterMap.mp one
    obtain ⟨name, _, rfl⟩ := Option.map_eq_some_iff.mp named
    have role_ne : role ≠ "child" := by
      rintro rfl
      simp [guards] at role_mem
    exact ⟨role_ne, by simp⟩
  · cases found : (source.property? object "resolve").bind (·.unwrap?) with
    | none => simp [found] at resolved
    | some object =>
        rw [found] at resolved
        exact resolverTargets_plain source object target resolved

theorem routesOfEntries_plain (source : Source)
    {within : List Nat → Option Node → List (RouteTree WrittenRoute) × List Nat}
    (plain : ∀ read inner, RouteTree.HoldsAll WrittenRoute.Plain (within read inner).1)
    (read : List Nat) (objects : List Node) :
    RouteTree.HoldsAll WrittenRoute.Plain (routesOfEntries source within read objects).1 := by
  induction objects generalizing read with
  | nil => trivial
  | cons object objects ih => exact ⟨⟨writtenRoute_plain source object, plain _ _⟩, ih _⟩

theorem routesWithin_plain (source : Source) (fuel : Nat) (read : List Nat)
    (array : Option Node) :
    RouteTree.HoldsAll WrittenRoute.Plain (routesWithin source fuel read array).1 := by
  induction fuel generalizing read array with
  | zero => trivial
  | succ fuel ih =>
      cases array with
      | none => trivial
      | some array =>
          rw [routesWithin]
          split
          · trivial
          · exact routesOfEntries_plain source ih _ _

theorem routes_plain (source : Source) : RouteTree.HoldsAll WrittenRoute.Plain (routes source) := by
  rw [routes]
  refine List.foldlRecOn (motive := fun found : List (RouteTree WrittenRoute) × List Nat =>
    RouteTree.HoldsAll WrittenRoute.Plain found.1) _ _ trivial ?_
  intro found plain array _
  exact RouteTree.holdsAll_append.mpr ⟨plain, routesWithin_plain source _ _ _⟩

/-- A lookup that leads nowhere is for a name without a meaning, and it does not come from
outside. -/
theorem of_lookup_eq_missing {index : Ordered (Option String)} {file name : String}
    {symbol : Option Symbol} (missing : lookup draft index file name symbol = .missing) :
    symbol = none ∧ draft.symbols.isExternal file name = false := by
  unfold lookup at missing
  split at missing
  next => exact nomatch missing
  next =>
    split at missing
    next => exact nomatch missing
    next inside => exact ⟨rfl, by simpa using inside⟩

theorem missingTarget_fair {symbols : SymbolTable} {target : RouteTarget}
    (lacks : symbols.Tells source.path target.name [] none)
    (inside : symbols.isExternal source.path target.name = false) :
    (missingTarget source target).Fair symbols source.path [] := by
  unfold missingTarget
  dsimp only
  split
  · exact .of_tells nofun (Finding.isAbout_atLine rfl ..) lacks fun _ => inside
  · exact .of_tells nofun (Finding.isAbout_atLine rfl ..) lacks fun _ => inside

section

variable {routes : Set String} {routeId : String} (start : routeId ∈ routes)
include start

/-- A name is only looked up from another file than the route's if it means something there. -/
theorem targetEditsFrom_routed (index : Ordered (Option String)) (path : String)
    {target : RouteTarget} (plain : target.Plain) {file : String}
    (here : draft.symbols.Tells file target.name [] none → file = source.path) :
    All (Routes.Routed draft.symbols source routes)
      (targetEditsFrom draft index source routeId path target file) := by
  refine .ofMeaning (fun symbol told => ?_) .giveUp
  split
  · refine (Routes.link_routed start (fun child => absurd child plain.role_ne) plain.keys ..).append
      ?_
    rw [roleEdits]
    split
    · exact all_cons.mpr ⟨.stereotype ⟨by simp, by simp⟩, .single (.tag ⟨by simp, by simp⟩)⟩
    · split
      · exact all_cons.mpr ⟨.stereotype ⟨by simp, by simp⟩, .single (.tag ⟨by simp, by simp⟩)⟩
      · exact all_nil
  · exact all_nil
  next missing =>
    obtain ⟨rfl, inside⟩ := of_lookup_eq_missing missing
    obtain rfl := here told
    exact .single (.find (missingTarget_fair told inside))

theorem targetEdits_routed (index : Ordered (Option String)) (path : String)
    {target : RouteTarget} (plain : target.Plain) :
    All (Routes.Routed draft.symbols source routes)
      (targetEdits draft index source routeId path target) := by
  simp only [targetEdits]
  split
  · exact targetEditsFrom_routed start index path plain fun _ => rfl
  · split
    · refine .ofMeaning (fun symbol told => ?_) .giveUp
      cases symbol with
      | some symbol =>
          refine targetEditsFrom_routed start index path plain ?_
          rintro ⟨_, absent⟩
          exact nomatch told.symm.trans absent
      | none => exact targetEditsFrom_routed start index path plain fun _ => rfl
    · split
      · exact targetEditsFrom_routed start index path plain fun _ => rfl
      · exact all_nil

end

theorem makeRoute_makesForm (draft : Draft) (index : Ordered (Option String)) (source : Source)
    (whole : List Edit) :
    RouteTree.MakesForm WrittenRoute.Plain (Routes.Routed draft.symbols source (routeIds whole))
      (routeIds whole) whole (makeRoute draft index source) := by
  intro parent route plain around_route subset
  have made_route : (makeRoute draft index source parent route).1.id ∈ routeIds whole :=
    ⟨source.path, _, subset List.mem_cons_self,
      RouteFramework.isRoute_classifier (.inr rfl) .., rfl⟩
  refine ⟨?_, made_route⟩
  refine .append (.append (.single (.route ?_ ?_ (.inr rfl))) ?_) ?_
  · cases route.redirect <;> simp
  · cases route.redirect <;> simp [Tag.Named]
  · exact Routes.childLink_routed made_route around_route ..
  · exact .flatMap fun target listed => targetEdits_routed made_route _ _ (plain target listed)

theorem routeEdits_routed (draft : Draft) (index : Ordered (Option String)) (source : Source)
    {whole : List Edit} (subset : routeEdits draft index source ⊆ whole) :
    All (Routes.Routed draft.symbols source (routeIds whole)) (routeEdits draft index source) :=
  RouteTree.all_editsOfAll (makeRoute_makesForm draft index source whole) (by simp) _
    (routes_plain source) subset

end Angular

end CodeGraph
