import CodeGraph.Proofs.Draft.AngularEdits
import CodeGraph.Proofs.Draft.PlainPasses
import CodeGraph.Proofs.Draft.ReactEdits

/-!
# The passes of frameworks

What React and Angular add refers only to known classifiers as well. A framework looks names up in
indexes of its own besides what they mean, so the indexes are shown to hold nothing but classifiers
of the draft. The routes of a tree are known to the routes below them.
-/

namespace CodeGraph

open Edit

variable {draft : Draft} {declaration : Declaration}

/-! ## React components -/

namespace React

theorem descriptionEdits_grounded (wellFormed : draft.WellFormed) :
    GroundedAll draft.ids (descriptionEdits draft) := by
  refine .append (.flatMap fun declaration present => ?_) (.flatMap fun declaration present => ?_)
  · have declared := wellFormed.declaration_mem declaration (List.mem_filter.mp present).1
    exact (composed_madeFor draft declaration).componentEdits.groundedFor wellFormed declared
  · have declared := wellFormed.declaration_mem declaration (List.mem_filter.mp present).1
    exact (composed_madeFor draft declaration).contextEdits.groundedFor wellFormed declared

theorem Used.grounded (wellFormed : draft.WellFormed) {source : Syntax.Source} {edit : Edit}
    (used : Used draft source edit) : edit.Grounded draft.ids := by
  cases used with
  | context owned found =>
      exact ⟨wellFormed.declaration_mem _ owned, Draft.mem_ids_of_classifier? wellFormed found⟩
  | render owned _ _ found =>
      exact ⟨wellFormed.declaration_mem _ owned, Draft.mem_ids_of_classifier? wellFormed found⟩
  | find | giveUp => trivial

end React

/-! ## Routes -/

namespace RouteTree

variable {α : Type} {make : Option MadeRoute → α → MadeRoute × List Edit} {ids : Set String}

/-- A route can be made where the route around it is known, and is known afterwards. -/
def MakesGrounded (ids : Set String) (make : Option MadeRoute → α → MadeRoute × List Edit) : Prop :=
  ∀ known parent route, ids ⊆ known → (∀ around, parent = some around → around.id ∈ known) →
    GroundedAll known (make parent route).2 ∧
      (make parent route).1.id ∈ knownAfterAll known (make parent route).2

mutual

theorem edits_grounded (makes : MakesGrounded ids make) {known : Set String}
    {parent : Option MadeRoute} (ids_known : ids ⊆ known)
    (around_known : ∀ around, parent = some around → around.id ∈ known) (tree : RouteTree α) :
    GroundedAll known (tree.edits make parent) :=
  match tree with
  | .node route children => by
      obtain ⟨own, made_known⟩ := makes known parent route ids_known around_known
      refine groundedAll_append_iff.mpr ⟨own, ?_⟩
      refine editsOfAll_grounded makes ?_ ?_ children
      · exact Set.Subset.trans ids_known (subset_knownAfterAll known _)
      · exact fun around same => Option.some.inj same ▸ made_known

theorem editsOfAll_grounded (makes : MakesGrounded ids make) {known : Set String}
    {parent : Option MadeRoute} (ids_known : ids ⊆ known)
    (around_known : ∀ around, parent = some around → around.id ∈ known)
    (trees : List (RouteTree α)) : GroundedAll known (editsOfAll make parent trees) :=
  match trees with
  | [] => trivial
  | tree :: trees =>
      (edits_grounded makes ids_known around_known tree).append
        (editsOfAll_grounded makes ids_known around_known trees)

end

end RouteTree

namespace Routes

variable {known : Set String} {routeId : String}

theorem link_grounded {targetId : String} (route_known : routeId ∈ known)
    (target_known : targetId ∈ known) (options : ExtractOptions) (source : Syntax.Source)
    (role : String) (node : Syntax.Node) (path : String) (extra : List Tag) :
    GroundedAll known (link options source routeId targetId role node path extra) := by
  rw [link]
  split <;> simp [route_known, target_known]

theorem childLink_grounded {parent : Option MadeRoute}
    (around_known : ∀ around, parent = some around → around.id ∈ known)
    (route_known : routeId ∈ known) (options : ExtractOptions) (source : Syntax.Source)
    (node : Syntax.Node) (path : String) :
    GroundedAll known (childLink options source parent routeId node path) := by
  cases parent with
  | none => trivial
  | some around => exact link_grounded (around_known around rfl) route_known ..

/-- A route is made by its classifier, which its links may refer to. -/
theorem made_grounded {file : String} {classifier : Classifier} {links : List Edit}
    (owned : classifier.packageId = some (packageId (PackageMap.directoryOf file)))
    (grounded : ∀ more, known ⊆ more → classifier.id ∈ more → GroundedAll more links) :
    GroundedAll known ([.classifier file classifier] ++ links) ∧
      classifier.id ∈ knownAfterAll known ([.classifier file classifier] ++ links) := by
  have known_subset := Set.subset_insert classifier.id known
  have made_known := Set.mem_insert classifier.id known
  constructor
  · exact groundedAll_classifier_cons.mpr ⟨owned, grounded _ known_subset made_known⟩
  · exact subset_knownAfterAll (insert classifier.id known) links made_known

end Routes

namespace React

/-- The components that routes can name are classifiers of the draft. -/
theorem mem_values_of_routeComponents {name : String} {component : Classifier}
    (found : (routeComponents draft).get? name = some component) :
    component ∈ Ordered.values draft.classifiers := by
  have listed : ∀ entry ∈ routeComponents draft, entry.2 ∈ Ordered.values draft.classifiers := by
    refine List.foldlRecOn (motive := fun (index : Ordered Classifier) => ∀ entry ∈ index,
      entry.2 ∈ Ordered.values draft.classifiers) _ _ (by simp) ?_
    intro index index_listed classifier classifier_mem
    have set_listed : ∀ entry ∈ Ordered.set index classifier.name classifier,
        entry.2 ∈ Ordered.values draft.classifiers := by
      intro entry present
      rcases Ordered.mem_of_mem_set present with rfl | old
      · exact classifier_mem
      · exact index_listed entry old
    split
    · split
      · exact set_listed
      · split
        · exact set_listed
        · exact index_listed
    · exact index_listed
  exact listed _ (Ordered.mem_of_get? found)

section

variable (wellFormed : draft.WellFormed)
include wellFormed

theorem targetEdits_grounded {known : Set String} (ids_known : draft.ids ⊆ known) {routeId : String}
    (route_known : routeId ∈ known) (source : Syntax.Source) (routeName : String)
    (route : WrittenRoute) :
    GroundedAll known
      (targetEdits draft (routeComponents draft) source routeId routeName route) := by
  refine wellFormed.withMeaning ids_known fun symbol _ => ?_
  cases symbol with
  | some symbol =>
      simp only [Option.isNone_some, Bool.false_and, Bool.false_eq_true, if_false]
      split
      next component found =>
        obtain ⟨named, _⟩ := Option.filter_eq_some_iff.mp found
        have component_mem := Draft.mem_ids_of_classifier? wellFormed named
        exact Routes.link_grounded route_known (ids_known component_mem) ..
      next => simp
  | none =>
      simp only [Option.isNone_none, Bool.true_and]
      split
      · trivial
      · split
        next component found =>
          obtain ⟨named, _⟩ := Option.filter_eq_some_iff.mp found
          have component_mem := Draft.mem_ids_of_mem_values wellFormed
            (mem_values_of_routeComponents named)
          exact Routes.link_grounded route_known (ids_known component_mem) ..
        next => simp

theorem makeRoute_grounded (source : Syntax.Source) :
    RouteTree.MakesGrounded draft.ids (makeRoute draft (routeComponents draft) source) := by
  intro known parent route ids_known around_known
  simp only [makeRoute, List.append_assoc]
  refine Routes.made_grounded rfl fun more known_subset made_known => .append ?_ ?_
  · refine Routes.childLink_grounded (fun around same => ?_) made_known ..
    exact known_subset (around_known around same)
  · by_cases aimless : route.target.isEmpty = true
    · rw [if_pos aimless]
      trivial
    · rw [if_neg aimless]
      exact targetEdits_grounded wellFormed (Set.Subset.trans ids_known known_subset) made_known ..

end

end React

namespace Angular

/-! ## Angular routes -/

/-- The index of routes leads to classifiers of the draft. -/
theorem mem_ids_of_routeIndex (wellFormed : draft.WellFormed) {name id : String}
    (found : (routeIndex draft).get? name = some (some id)) : id ∈ draft.ids := by
  have listed : ∀ entry ∈ routeIndex draft, ∀ id, entry.2 = some id → id ∈ draft.ids := by
    refine List.foldlRecOn (motive := fun (index : Ordered (Option String)) => ∀ entry ∈ index,
      ∀ id, entry.2 = some id → id ∈ draft.ids) _ _ (by simp) ?_
    intro index index_listed classifier classifier_mem
    split
    · exact index_listed
    · intro entry present id id_eq
      rcases Ordered.mem_of_mem_set present with rfl | old
      · simp only at id_eq
        split at id_eq
        · simp at id_eq
        · exact Option.some.inj id_eq ▸ Draft.mem_ids_of_mem_values wellFormed classifier_mem
      · exact index_listed entry old id id_eq
  exact listed _ (Ordered.mem_of_get? found) id rfl

theorem mem_known_of_lookup (wellFormed : draft.WellFormed) {known : Set String}
    (ids_known : draft.ids ⊆ known) {file name id : String} {symbol : Option Symbol}
    (meant : ∀ meant, symbol = some meant → meant.classifierId ∈ known)
    (found : lookup draft (routeIndex draft) file name symbol = .target id) : id ∈ known := by
  cases symbol with
  | some symbol =>
      obtain rfl : symbol.classifierId = id := by simpa [lookup] using found
      exact meant symbol rfl
  | none =>
      simp only [lookup] at found
      split at found
      · simp at found
      · split at found
        next named present =>
          obtain rfl : named = id := by simpa using found
          cases entry : (routeIndex draft).get? (Text.lastPiece '.' name) with
          | none => simp [entry] at present
          | some index_entry =>
              obtain rfl : index_entry = some named := by simpa [entry] using present
              exact ids_known (mem_ids_of_routeIndex wellFormed entry)
        next => simp at found

theorem roleEdits_grounded (known : Set String) (id : String) (target : RouteTarget) :
    GroundedAll known (roleEdits id target) := by
  rw [roleEdits]
  split
  · simp
  · split <;> simp

section

variable (wellFormed : draft.WellFormed) {known : Set String} (ids_known : draft.ids ⊆ known)
  {routeId : String} (route_known : routeId ∈ known)
include wellFormed ids_known route_known

theorem targetEditsFrom_grounded (source : Syntax.Source) (path : String) (target : RouteTarget)
    (file : String) :
    GroundedAll known
      (targetEditsFrom draft (routeIndex draft) source routeId path target file) := by
  refine wellFormed.withMeaning ids_known fun symbol meant => ?_
  split
  next id found =>
    have target_known := mem_known_of_lookup wellFormed ids_known meant found
    exact (Routes.link_grounded route_known target_known ..).append
      (roleEdits_grounded known id target)
  next => trivial
  next => simp

theorem targetEdits_grounded (source : Syntax.Source) (path : String) (target : RouteTarget) :
    GroundedAll known (targetEdits draft (routeIndex draft) source routeId path target) := by
  have from_grounded := targetEditsFrom_grounded wellFormed ids_known route_known source path target
  simp only [targetEdits]
  split
  · exact from_grounded source.path
  · split
    · refine wellFormed.withMeaning ids_known fun symbol _ => ?_
      cases symbol with
      | some => exact from_grounded _
      | none => exact from_grounded source.path
    · split
      · exact from_grounded source.path
      · trivial

end

theorem makeRoute_grounded (wellFormed : draft.WellFormed) (source : Syntax.Source) :
    RouteTree.MakesGrounded draft.ids (makeRoute draft (routeIndex draft) source) := by
  intro known parent route ids_known around_known
  simp only [makeRoute, List.append_assoc]
  refine Routes.made_grounded rfl fun more known_subset made_known => .append ?_ ?_
  · refine Routes.childLink_grounded (fun around same => ?_) made_known ..
    exact known_subset (around_known around same)
  · exact .flatMap fun target _ => targetEdits_grounded wellFormed
      (Set.Subset.trans ids_known known_subset) made_known source route.path target

/-! ## Angular templates -/

namespace TemplateIndex

/-- The shapes of the classes that templates use. -/
def shapes : List Shape := [.angularPipe, .angularComponent, .angularDirective]

/-- Everything that the index leads to is good for its shape. -/
structure Holds (good : Shape → Classifier → Prop) (index : TemplateIndex) : Prop where
  pipes : ∀ entry ∈ index.pipes, good .angularPipe entry.2
  elements : ∀ entry ∈ index.elements, good .angularComponent entry.2
  attributes : ∀ entry ∈ index.attributes, good .angularDirective entry.2

variable {good : Shape → Classifier → Prop} {index : TemplateIndex} {classifier : Classifier}

theorem forall_addNames {property : Classifier → Prop} {table : List (String × Classifier)}
    (all : ∀ entry ∈ table, property entry.2) (names : List String)
    (here : property classifier) :
    ∀ entry ∈ addNames table names classifier, property entry.2 := by
  refine List.foldlRecOn (motive := fun (done : List (String × Classifier)) => ∀ entry ∈ done,
    property entry.2) names _ all ?_
  intro done done_all name _
  split
  · exact done_all
  · exact List.forall_mem_append.mpr ⟨done_all, List.forall_mem_singleton.mpr here⟩

theorem Holds.insert (holds : index.Holds good) {shape : Shape} (here : good shape classifier) :
    (index.insert shape classifier).Holds good := by
  obtain ⟨pipes, elements, attributes⟩ := holds
  simp only [TemplateIndex.insert]
  split
  · exact ⟨forall_addNames pipes _ here, elements, attributes⟩
  · exact ⟨pipes, forall_addNames elements _ here, attributes⟩
  · exact ⟨pipes, elements, forall_addNames attributes _ here⟩
  · exact ⟨pipes, elements, attributes⟩

theorem ofClassifiers_holds {classifiers : List (Shape × Classifier)}
    (all : ∀ entry ∈ classifiers, good entry.1 entry.2) :
    (ofClassifiers classifiers).Holds good := by
  refine List.foldlRecOn (motive := Holds good) classifiers _ ⟨by simp, by simp, by simp⟩ ?_
  exact fun index holds entry present => holds.insert (all entry present)

theorem Holds.of_get? (holds : index.Holds good) {use : TemplateUse}
    (found : index.get? use = some classifier) : ∃ shape ∈ shapes, good shape classifier := by
  rw [TemplateIndex.get?] at found
  split at found
  · exact ⟨.angularPipe, by simp [shapes], holds.pipes _ (Ordered.mem_of_get? found)⟩
  · exact ⟨.angularComponent, by simp [shapes], holds.elements _ (Ordered.mem_of_get? found)⟩
  · exact ⟨.angularDirective, by simp [shapes], holds.attributes _ (Ordered.mem_of_get? found)⟩
  · exact ⟨.angularDirective, by simp [shapes], holds.attributes _ (Ordered.mem_of_get? found)⟩

end TemplateIndex

theorem Applied.grounded {index : TemplateIndex}
    (index_known : index.Holds fun _ classifier => classifier.id ∈ draft.ids)
    (declared : declaration.classifierId ∈ draft.ids) {edit : Edit}
    (applied : Applied draft index declaration edit) : edit.Grounded draft.ids := by
  cases applied with
  | use found =>
      obtain ⟨_, _, known⟩ := index_known.of_get? found
      exact ⟨declared, known⟩
  | find => trivial

end Angular

/-! ## The passes -/

namespace Draft

theorem WellFormed.addReact (wellFormed : draft.WellFormed) : draft.addReact.WellFormed := by
  obtain ⟨described, _⟩ := wellFormed.applyAll (React.descriptionEdits_grounded wellFormed)
  refine (described.applyAll (.flatMap fun source _ => ?_)).1
  exact ((React.useEdits_used ..).mono fun _ => React.Used.grounded described).grounded

theorem WellFormed.addReactRoutes (wellFormed : draft.WellFormed) :
    draft.addReactRoutes.WellFormed := by
  refine (wellFormed.applyAll (.flatMap fun source _ => ?_)).1
  exact RouteTree.editsOfAll_grounded (React.makeRoute_grounded wellFormed source)
    (Set.Subset.refl _) (by simp) _

theorem WellFormed.addAngularRoutes (wellFormed : draft.WellFormed) :
    draft.addAngularRoutes.WellFormed := by
  refine (wellFormed.applyAll (.flatMap fun source _ => ?_)).1
  exact RouteTree.editsOfAll_grounded (Angular.makeRoute_grounded wellFormed source)
    (Set.Subset.refl _) (by simp) _

/-- Describing and wiring a decorated class leaves a draft well-formed, and it keeps its
classifiers. -/
theorem WellFormed.addDecorated (wellFormed : draft.WellFormed)
    (declared : declaration.classifierId ∈ draft.ids) :
    (draft.addDecorated declaration).WellFormed ∧
      draft.ids ⊆ (draft.addDecorated declaration).ids := by
  rw [Draft.addDecorated]
  split
  · exact ⟨wellFormed, Set.Subset.refl _⟩
  next decorator _ =>
    split
    · exact ⟨wellFormed, Set.Subset.refl _⟩
    next part _ =>
      let details := Angular.metadata? declaration.source decorator
      have description := Angular.descriptionEdits_madeFor draft declaration part details
      obtain ⟨described, described_ids⟩ :=
        wellFormed.applyAll (description.groundedFor wellFormed declared)
      have wiring := Angular.wiringEdits_madeFor
        (draft.applyAll (Angular.descriptionEdits declaration part details)) declaration part
        details
      obtain ⟨wired, wired_ids⟩ :=
        described.applyAll (wiring.groundedFor described (described_ids declared))
      exact ⟨wired, Set.Subset.trans described_ids wired_ids⟩

theorem WellFormed.addAngular (wellFormed : draft.WellFormed) : draft.addAngular.WellFormed := by
  -- The classes are wired in a draft that grows, which keeps their classifiers known.
  have run : draft.addAngular.WellFormed ∧ draft.ids ⊆ draft.addAngular.ids := by
    refine List.foldlRecOn (motive := fun (grown : Draft) =>
      grown.WellFormed ∧ draft.ids ⊆ grown.ids) draft.declarations _
        ⟨wellFormed, Set.Subset.refl _⟩ ?_
    rintro grown ⟨grown_wellFormed, kept⟩ declaration present
    have declared := kept (wellFormed.declaration_mem declaration present)
    obtain ⟨wired, wired_ids⟩ := grown_wellFormed.addDecorated declared
    exact ⟨wired, Set.Subset.trans kept wired_ids⟩
  exact run.1

theorem templateIndex_known (wellFormed : draft.WellFormed) :
    draft.templateIndex.Holds fun _ classifier => classifier.id ∈ draft.ids := by
  refine Angular.TemplateIndex.ofClassifiers_holds ?_
  intro entry present
  obtain ⟨⟨declaration, _⟩, _, entry_eq⟩ := List.mem_filterMap.mp present
  obtain ⟨classifier, found, rfl⟩ := Option.map_eq_some_iff.mp entry_eq
  exact mem_ids_of_classifier? wellFormed found

theorem WellFormed.addAngularTemplates (wellFormed : draft.WellFormed) :
    draft.addAngularTemplates.WellFormed := by
  refine (wellFormed.applyAll (.flatMap fun entry present => ?_)).1
  have decorated := Angular.mem_decorated.mp (List.mem_filter.mp present).1
  have declared := wellFormed.declaration_mem entry.1 decorated.1
  exact ((Angular.componentEdits_applied ..).mono fun _ =>
    Angular.Applied.grounded (templateIndex_known wellFormed) declared).grounded

end Draft

end CodeGraph
