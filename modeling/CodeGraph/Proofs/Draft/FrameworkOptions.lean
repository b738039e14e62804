import CodeGraph.Project.Pass
import CodeGraph.Proofs.Draft.PlainOptions

/-!
# The passes of frameworks under options that ask for less

What React and Angular find out about a draft does not depend on the options, nor do the indexes
that they build. The relations that they add do, and these are thinned one by one.
-/

namespace CodeGraph

open Draft

variable {small large : Draft} {declaration : Declaration}

/-! ## React components -/

namespace React

theorem markEdits_thins (stereotype : String) :
    Thins small large (markEdits declaration stereotype) (markEdits declaration stereotype) :=
  .change (.change .nil)

section

variable (within : Within small large)
include within

theorem propTypes_eq : propTypes large declaration = propTypes small declaration := by
  simp only [propTypes, within.classifier?]

theorem roleEdits_thins (role : String) (type : Option Syntax.Node) :
    Thins small large (roleEdits small declaration role type)
      (roleEdits large declaration role type) := by
  cases type with
  | none => exact .nil
  | some node => exact .change (.change (Links.ofType_thins within ..))

theorem descriptionEdits_thins :
    Thins small large (descriptionEdits small) (descriptionEdits large) := by
  rw [descriptionEdits, descriptionEdits, within.declarations]
  refine .append (.flatMap fun declaration _ => ?_) (.flatMap fun declaration _ => ?_)
  · simp only [componentEdits, propTypes_eq within]
    refine .append (.append (markEdits_thins _) ?_) ?_
    · exact roleEdits_thins within ..
    · exact roleEdits_thins within ..
  · refine .append (markEdits_thins _) ?_
    rw [Option.toList_map]
    exact .map_change ..

theorem componentIndex_eq : componentIndex large = componentIndex small := by
  simp only [componentIndex, within.declarations, within.classifier?]

theorem contextUse_thins (source : Syntax.Source) (owner : Declaration) (name origin : String)
    (node : Syntax.Node) :
    Thins small large (contextUse small source owner name origin node)
      (contextUse large source owner name origin node) := by
  refine within.withMeaning fun symbol => ?_
  simp only [context?, within.classifier?, within.symbols, within.nameOf]
  split
  next context _ =>
    refine within.edges fun edit present => ?_
    obtain rfl := List.mem_singleton.mp present
    exact .inl rfl
  next => exact .ite (fun _ => .nil) fun _ => .find _

theorem callEdits_thins (source : Syntax.Source) (owners : List Declaration) (node : Syntax.Node) :
    Thins small large (callEdits small source owners node)
      (callEdits large source owners node) := by
  rw [callEdits, callEdits]
  refine .ite (fun _ => ?_) fun _ => .nil
  split
  · exact .ite (fun _ => contextUse_thins within ..) fun _ => .nil
  · exact .nil

theorem unknownTag_thins (source : Syntax.Source) (owner : Declaration) (tag : String)
    (node : Syntax.Node) :
    Thins small large (unknownTag small source owner tag node)
      (unknownTag large source owner tag node) := by
  simp only [unknownTag, within.nameOf]
  refine .ite (fun _ => within.withMeaning fun symbol => ?_) fun _ => .find _
  cases symbol with
  | some => exact .nil
  | none => exact .find _

theorem rendered?_eq (index : Ordered (Option String)) (tag : String) (symbol : Option Symbol)
    (isExternal : Bool) :
    rendered? large index tag symbol isExternal = rendered? small index tag symbol isExternal := by
  have classifier?_eq : large.classifier? = small.classifier? := funext within.classifier?
  cases symbol <;> simp only [rendered?, classifier?_eq]

theorem renderEdits_thins (index : Ordered (Option String)) (source : Syntax.Source)
    (owner : Declaration) (tag : String) (node : Syntax.Node) :
    Thins small large (renderEdits small index source owner tag node)
      (renderEdits large index source owner tag node) := by
  refine within.withMeaning fun symbol => ?_
  simp only [rendered?_eq within, within.symbols]
  split
  next target _ =>
    cases component : target.kind == .component with
    | false => exact .nil
    | true =>
        simp only [Bool.true_and]
        refine within.edges fun edit present => ?_
        obtain rfl := List.mem_singleton.mp present
        exact .inl rfl
  next => exact .ite (fun _ => .nil) fun _ => unknownTag_thins within ..

theorem elementEdits_thins (index : Ordered (Option String)) (source : Syntax.Source)
    (owners : List Declaration) (node : Syntax.Node) :
    Thins small large (elementEdits small index source owners node)
      (elementEdits large index source owners node) := by
  simp only [elementEdits, within.classifier?]
  refine .ite (fun _ => .nil) fun _ => ?_
  split
  · exact .nil
  · split
    · exact contextUse_thins within ..
    · exact .ite (fun _ => renderEdits_thins within ..) fun _ => .nil

theorem useEdits_thins (index : Ordered (Option String)) (source : Syntax.Source) :
    Thins small large (useEdits small index source) (useEdits large index source) := by
  simp only [useEdits, within.declarationsIn]
  refine .flatMap fun node _ => ?_
  refine .ite (fun _ => ?_) fun _ => .ite (fun _ => ?_) fun _ => .nil
  · exact callEdits_thins within ..
  · exact elementEdits_thins within ..

end

end React

/-! ## Routes -/

namespace RouteTree

variable {α : Type} {fewer more : Option MadeRoute → α → MadeRoute × List Edit}

/-- A route is made with thinned edits, and is the same route. -/
def MakesThinned (small large : Draft) (fewer more : Option MadeRoute → α → MadeRoute × List Edit) :
    Prop :=
  ∀ parent route, (more parent route).1 = (fewer parent route).1 ∧
    Thins small large (fewer parent route).2 (more parent route).2

theorem edits_node (make : Option MadeRoute → α → MadeRoute × List Edit)
    (parent : Option MadeRoute) (route : α) (children : List (RouteTree α)) :
    (node route children).edits make parent
      = (make parent route).2 ++ editsOfAll make (some (make parent route).1) children := rfl

mutual

theorem edits_thins (makes : MakesThinned small large fewer more) (parent : Option MadeRoute)
    (tree : RouteTree α) : Thins small large (tree.edits fewer parent) (tree.edits more parent) :=
  match tree with
  | .node route children => by
      obtain ⟨made_eq, own⟩ := makes parent route
      rw [edits_node, edits_node, made_eq]
      exact own.append (editsOfAll_thins makes _ children)

theorem editsOfAll_thins (makes : MakesThinned small large fewer more) (parent : Option MadeRoute)
    (trees : List (RouteTree α)) :
    Thins small large (editsOfAll fewer parent trees) (editsOfAll more parent trees) :=
  match trees with
  | [] => .nil
  | tree :: trees => (edits_thins makes parent tree).append (editsOfAll_thins makes parent trees)

end

end RouteTree

namespace Routes

variable (within : Within small large)
include within

theorem link_thins (source : Syntax.Source) (routeId targetId role : String) (node : Syntax.Node)
    (path : String) (extra : List Tag) :
    Thins small large (link small.options source routeId targetId role node path extra)
      (link large.options source routeId targetId role node path extra) := by
  refine within.edges fun edit present => ?_
  obtain rfl := List.mem_singleton.mp present
  exact .inl rfl

theorem childLink_thins (source : Syntax.Source) (parent : Option MadeRoute) (id : String)
    (node : Syntax.Node) (path : String) :
    Thins small large (childLink small.options source parent id node path)
      (childLink large.options source parent id node path) := by
  cases parent with
  | none => exact .nil
  | some around => exact link_thins within ..

end Routes

namespace React

variable (within : Within small large)
include within

theorem routeComponents_eq : routeComponents large = routeComponents small := by
  rw [routeComponents, routeComponents, within.classifiers]

theorem targetEdits_thins (components : Ordered Classifier) (source : Syntax.Source)
    (routeId routeName : String) (route : WrittenRoute) :
    Thins small large (targetEdits small components source routeId routeName route)
      (targetEdits large components source routeId routeName route) := by
  refine within.withMeaning fun symbol => ?_
  rw [within.symbols]
  refine .ite (fun _ => .nil) fun _ => ?_
  cases symbol with
  | some symbol =>
      simp only [within.classifier?]
      split
      · exact Routes.link_thins within ..
      · exact .find _
  | none =>
      simp only
      split
      · exact Routes.link_thins within ..
      · exact .find _

theorem makeRoute_thins (components : Ordered Classifier) (source : Syntax.Source) :
    RouteTree.MakesThinned small large (makeRoute small components source)
      (makeRoute large components source) := by
  intro parent route
  refine ⟨rfl, ?_⟩
  refine .append (.append (.classifier .nil) (Routes.childLink_thins within ..)) ?_
  exact .ite (fun _ => .nil) fun _ => targetEdits_thins within ..

end React

/-! ## Angular routes -/

namespace Angular

theorem roleEdits_thins (id : String) (target : RouteTarget) :
    Thins small large (roleEdits id target) (roleEdits id target) := by
  rw [roleEdits]
  exact .ite (fun _ => .change (.change .nil)) fun _ =>
    .ite (fun _ => .change (.change .nil)) fun _ => .nil

section

variable (within : Within small large)
include within

theorem routeIndex_eq : routeIndex large = routeIndex small := by
  rw [routeIndex, routeIndex, within.classifiers]

theorem lookup_eq (index : Ordered (Option String)) (file name : String)
    (symbol : Option Symbol) :
    lookup large index file name symbol = lookup small index file name symbol := by
  rw [lookup.eq_def, lookup.eq_def, within.symbols]

theorem targetEditsFrom_thins (index : Ordered (Option String)) (source : Syntax.Source)
    (routeId path : String) (target : RouteTarget) (file : String) :
    Thins small large (targetEditsFrom small index source routeId path target file)
      (targetEditsFrom large index source routeId path target file) := by
  refine within.withMeaning fun symbol => ?_
  rw [lookup_eq within]
  split
  · exact .append (Routes.link_thins within ..) (roleEdits_thins _ target)
  · exact .nil
  · exact .find _

theorem targetEdits_thins (index : Ordered (Option String)) (source : Syntax.Source)
    (routeId path : String) (target : RouteTarget) :
    Thins small large (targetEdits small index source routeId path target)
      (targetEdits large index source routeId path target) := by
  have from_thins := targetEditsFrom_thins within index source routeId path target
  simp only [targetEdits, within.symbols]
  split
  · exact from_thins source.path
  · split
    · refine within.withMeaning fun symbol => ?_
      cases symbol with
      | some => exact from_thins _
      | none => exact from_thins source.path
    · exact .ite (fun _ => from_thins source.path) fun _ => .nil

theorem makeRoute_thins (index : Ordered (Option String)) (source : Syntax.Source) :
    RouteTree.MakesThinned small large (makeRoute small index source)
      (makeRoute large index source) := by
  intro parent route
  refine ⟨rfl, ?_⟩
  refine .append (.append (.classifier .nil) (Routes.childLink_thins within ..)) ?_
  exact .flatMap fun target _ => targetEdits_thins within ..

end

/-! ## The wiring of Angular classes -/

theorem descriptionEdits_thins (part : Part) (details : Option Syntax.Node) :
    Thins small large (descriptionEdits declaration part details)
      (descriptionEdits declaration part details) :=
  .change (.map_change ..)

section

variable (within : Within small large)
include within

theorem complain_thins (name : String) (node : Syntax.Node) (complaint : Complaint) :
    Thins small large (complain small declaration name node complaint)
      (complain large declaration name node complaint) := by
  rw [complain, complain, within.symbols, within.nameOf]
  exact .ite (fun _ => .nil) fun _ => .find _

/-- What is wired by a relation that only a framework makes, or that comes from a list. -/
theorem wire_thins {kind : RelationKind} {tags : List Tag}
    (framework : kind.isFramework = true ∨
      kind = .dependency ∧ ∃ origin ∈ listedOrigins, origin ∈ tags)
    (name : String) (node : Syntax.Node) {fewer more : List Edit}
    (unresolved : Thins small large fewer more) :
    Thins small large (wire small declaration kind name node tags fewer)
      (wire large declaration kind name node tags more) := by
  rw [wire, wire]
  refine within.withMeaningAt fun symbol => ?_
  cases symbol with
  | none => exact unresolved
  | some symbol =>
      refine within.edges fun edit present => ?_
      obtain rfl := List.mem_singleton.mp present
      exact framework

theorem parameterEdits_thins (parameter : Members.WrittenParameter) :
    Thins small large (parameterEdits small declaration parameter)
      (parameterEdits large declaration parameter) := by
  simp only [parameterEdits, within.nameOf]
  refine .ite (fun _ => .nil) fun _ => wire_thins within (.inl rfl) _ _ ?_
  exact .ite (fun _ => .nil) fun _ => complain_thins within ..

theorem constructorEdits_thins :
    Thins small large (constructorEdits small declaration)
      (constructorEdits large declaration) := by
  rw [constructorEdits, constructorEdits]
  split
  · exact .flatMap fun parameter _ => parameterEdits_thins within parameter
  · exact .nil

theorem injectCall_thins (node : Syntax.Node) :
    Thins small large (injectCall small declaration node) (injectCall large declaration node) := by
  simp only [injectCall, within.nameOf]
  refine .ite (fun _ => .ite (fun _ => .nil) fun _ => ?_) fun _ => .nil
  exact wire_thins within (.inl rfl) _ _ (complain_thins within ..)

theorem injectEdits_thins :
    Thins small large (injectEdits small declaration) (injectEdits large declaration) := by
  rw [injectEdits, injectEdits]
  split
  · exact .flatMap fun node _ => injectCall_thins within node
  · exact .nil

theorem payloadEdits_thins (member : Syntax.Node) (name typeName : String) :
    Thins small large (payloadEdits small declaration member name typeName)
      (payloadEdits large declaration member name typeName) := by
  rw [payloadEdits, payloadEdits, within.nameOf]
  refine within.withMeaningAt fun symbol => ?_
  cases symbol with
  | some symbol => exact .relate rfl
  | none => exact complain_thins within ..

omit within in
theorem payloadEdits_forDeps (draft : Draft) (member : Syntax.Node) (name typeName : String) :
    ∀ edit ∈ payloadEdits draft declaration member name typeName, edit.IsForDeps := by
  refine Links.withMeaningAt_forDeps fun symbol edit present => ?_
  cases symbol with
  | some symbol =>
      obtain rfl := List.mem_singleton.mp present
      rfl
  | none =>
      simp only [complain] at present
      split at present
      · exact absurd present List.not_mem_nil
      · obtain rfl := List.mem_singleton.mp present
        rfl

theorem bindingEdits_thins (member : Syntax.Node) (name role : String)
    (call : Option Syntax.Node) :
    Thins small large (bindingEdits small declaration member name role call)
      (bindingEdits large declaration member name role call) := by
  simp only [bindingEdits]
  refine .change ?_
  split
  next payload _ =>
    refine within.deps (.flatMap fun typeName _ => ?_) fun edit present => ?_
    · exact payloadEdits_thins within member name typeName.1
    · obtain ⟨typeName, _, made⟩ := List.mem_flatMap.mp present
      exact payloadEdits_forDeps large member name typeName.1 edit made
  next => exact .nil

theorem inputOutputEdits_thins :
    Thins small large (inputOutputEdits small declaration)
      (inputOutputEdits large declaration) := by
  rw [inputOutputEdits, inputOutputEdits]
  split
  · exact .nil
  · refine .flatMap fun member _ => .ite (fun _ => .nil) fun _ => .flatMap fun decorator _ => ?_
    dsimp only
    split
    · exact bindingEdits_thins within ..
    · exact .nil

theorem providerEdits_thins (part : Part) (details : Syntax.Node) :
    Thins small large (providerEdits small declaration part details)
      (providerEdits large declaration part details) := by
  refine .flatMap fun entry _ => ?_
  split
  · exact .nil
  · exact wire_thins within (.inl rfl) _ _ (complain_thins within ..)

theorem referenceEdits_thins (part : Part) (details : Syntax.Node) {origin : String}
    (listed : ⟨"origin", origin⟩ ∈ listedOrigins) (role : String) :
    Thins small large (referenceEdits small declaration part details origin role)
      (referenceEdits large declaration part details origin role) := by
  refine .flatMap fun entry _ => ?_
  split
  · exact .nil
  · refine wire_thins within (.inr ⟨rfl, _, listed, ?_⟩) _ _ (complain_thins within ..)
    exact List.mem_cons_self

theorem wiringEdits_thins (part : Part) (details : Option Syntax.Node) :
    Thins small large (wiringEdits small declaration part details)
      (wiringEdits large declaration part details) := by
  simp only [wiringEdits, within.classifier?]
  refine .append (.append (.append ?_ ?_) (.ite (fun _ => ?_) fun _ => .nil)) ?_
  · exact constructorEdits_thins within
  · exact injectEdits_thins within
  · exact inputOutputEdits_thins within
  · split
    · exact .nil
    · refine .append (.ite (fun _ => ?_) fun _ => .nil) ?_
      · exact providerEdits_thins within ..
      · refine .ite (fun _ => ?_) fun _ => .ite (fun _ => ?_) fun _ => .nil
        · refine .flatMap fun role _ => ?_
          exact referenceEdits_thins within part _ (by simp [listedOrigins]) role
        · exact referenceEdits_thins within part _ (by simp [listedOrigins]) "imports"

/-! ## Angular templates -/

theorem templateEdits_thins (index : TemplateIndex) (decorator : Syntax.Node) (template : String)
    (origin : Tag) :
    Thins small large (templateEdits small index declaration decorator template origin)
      (templateEdits large index declaration decorator template origin) := by
  refine within.edges fun edit present => ?_
  obtain ⟨use, _, made⟩ := List.mem_flatMap.mp present
  rw [useEdits] at made
  split at made
  · exact absurd made List.not_mem_nil
  · obtain rfl := List.mem_singleton.mp made
    exact .inl rfl

theorem componentEdits_thins (index : TemplateIndex) (decorator : Syntax.Node) :
    Thins small large (componentEdits small index declaration decorator)
      (componentEdits large index declaration decorator) := by
  simp only [componentEdits, within.program, within.nameOf]
  split
  · exact .nil
  · exact templateEdits_thins within ..
  · split
    · exact templateEdits_thins within ..
    · exact .find _

end

end Angular

end CodeGraph
