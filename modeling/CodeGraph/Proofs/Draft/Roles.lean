import CodeGraph.Proofs.Draft.FileModules
import CodeGraph.Proofs.Draft.Integrity

/-!
# What classifiers are in the end

A pass looks up what a classifier is before it makes a link to it, and classifiers only grow. So a
kind or a role that is found on the way is there in the end. A class that is declared with a
decorator gets the role of its part whenever decorators are read, and what is added as a route
stays one unless another element has its id.
-/

namespace CodeGraph

open Syntax Edit

/-! ## Properties that last -/

namespace Classifier

/-- Classifiers that grow keep the property. -/
def Lasting (property : Classifier → Prop) : Prop :=
  ∀ before after, Classifier.Grows before after → property before → property after

theorem lasting_kind (kind : ClassifierKind) : Lasting (·.kind = kind) :=
  fun _ _ growth same => growth.kind_eq.trans same

theorem lasting_stereotype (name : String) : Lasting (·.hasStereotype name = true) := by
  intro before after growth plays
  obtain ⟨role, role_mem, same⟩ := List.any_eq_true.mp plays
  exact List.any_eq_true.mpr ⟨role, growth.stereotypes_prefix.subset role_mem, same⟩

theorem lasting_isRoute : Lasting IsRoute :=
  fun before after growth => Or.imp (lasting_stereotype _ before after growth)
    (lasting_stereotype _ before after growth)

theorem hasStereotype_addStereotype (classifier : Classifier) (name : String) :
    (classifier.addStereotype name).hasStereotype name = true := by
  rw [addStereotype]
  split
  next plays => exact plays
  next => simp [hasStereotype]

end Classifier

namespace Draft

/-- The id is that of a classifier with a property. -/
def Has (draft : Draft) (id : String) (property : Classifier → Prop) : Prop :=
  ∃ classifier, draft.classifier? id = some classifier ∧ property classifier

theorem Has.grows {before after : Draft} {id : String} {property : Classifier → Prop}
    (has : before.Has id property) (lasting : Classifier.Lasting property)
    (growth : before.Grows after) : after.Has id property := by
  obtain ⟨classifier, found, here⟩ := has
  obtain ⟨later, later_found, further⟩ := growth.classifier_kept id classifier found
  exact ⟨later, later_found, lasting classifier later further here⟩

variable {draft : Draft} {edits : List Edit}

/-- A role that one of many edits gives to a known classifier is there in the end. -/
theorem Regular.has_of_change_mem (regular : draft.Regular) (fit : All Fits edits)
    {id name : String} (known : id ∈ draft.ids)
    (present : Edit.change id (.stereotype name) ∈ edits) :
    (draft.applyAll edits).Has id (·.hasStereotype name = true) := by
  induction edits generalizing draft with
  | nil => exact absurd present List.not_mem_nil
  | cons edit edits ih =>
      obtain ⟨here, further⟩ := all_cons.mp fit
      have growth := regular.grows_apply edit
      have regular := regular.apply here
      obtain ⟨old, found⟩ : ∃ old, draft.classifier? id = some old :=
        Option.isSome_iff_exists.mp (Ordered.isSome_get?_iff.mpr known)
      rcases List.mem_cons.mp present with rfl | later
      · have given : (draft.apply (.change id (.stereotype name))).Has id
            (·.hasStereotype name = true) := by
          refine ⟨old.addStereotype name, ?_, old.hasStereotype_addStereotype name⟩
          rw [Draft.apply, changeClassifier, found]
          exact Ordered.get?_set_self ..
        exact given.grows (Classifier.lasting_stereotype name) (regular.grows_applyAll further)
      · obtain ⟨kept, kept_found, _⟩ := growth.classifier_kept id old found
        exact ih regular further (Ordered.isSome_get?_iff.mp (Option.isSome_of_eq_some kept_found))
          later

end Draft

/-! ## Decorated classes -/

namespace Declaring

variable {options : ExtractOptions} {source : Source} {candidate : Candidate}

/-- A decorator that is kept with a class gives it its part, and decorators are read. -/
theorem part_of_classShape {decorator : Node}
    (kept : (classShape options source candidate).2 = some decorator) :
    options.angular = true ∧ ∃ part, Angular.partOf? source decorator = some part ∧
      (classShape options source candidate).1 = part.shape := by
  simp only [classShape] at kept ⊢
  split at kept
  next part _ decorated =>
    obtain rfl := Option.some.inj kept
    split at decorated
    next asked =>
      obtain ⟨_, _, found⟩ := List.exists_of_findSome?_eq_some decorated
      obtain ⟨part, part_eq, same⟩ := Option.map_eq_some_iff.mp found
      obtain ⟨rfl, rfl⟩ := Prod.mk.inj same
      exact ⟨asked, part, part_eq, rfl⟩
    next => cases decorated
  next =>
    split at kept
    · cases kept
    · split at kept <;> cases kept

/-- No decorator is kept with anything but a class. -/
theorem decorator_eq_none {item : Declared} (written : item ∈ declared options source candidate)
    (other : candidate.node.isOneOf classKinds = false) : item.decorator = none := by
  have listed := (List.mem_filter.mp written).1
  rw [if_neg (by simp [other])] at listed
  split at listed
  · rw [List.mem_singleton.mp listed]
  · split at listed
    · rw [List.mem_singleton.mp listed]
    · split at listed
      · rw [List.mem_singleton.mp listed]
      · split at listed
        · rw [List.mem_singleton.mp listed]
        · split at listed
          · obtain ⟨declarator, _, found⟩ := List.mem_filterMap.mp listed
            split at found
            · split at found
              · obtain ⟨_, _, rfl⟩ := Option.map_eq_some_iff.mp found
                rfl
              · cases found
            · cases found
          · cases listed

theorem part_of_mem_declared {item : Declared} (written : item ∈ declared options source candidate)
    {decorator : Node} (kept : item.decorator = some decorator) :
    options.angular = true ∧ ∃ part, Angular.partOf? source decorator = some part ∧
      item.shape = part.shape := by
  cases isClass : candidate.node.isOneOf classKinds with
  | true =>
      have listed := (List.mem_filter.mp written).1
      rw [if_pos isClass] at listed
      obtain rfl := List.mem_singleton.mp listed
      exact part_of_classShape kept
  | false => exact absurd kept (by simp [decorator_eq_none written isClass])

end Declaring

namespace Draft

variable {draft : Draft} {declaration : Declaration} {decorator : Node}

/-- A declaration with a decorator has the shape of the part that the decorator gives. -/
theorem part_of_mem_declarations {program : Program} {options : ExtractOptions} {reporting : Bool}
    (present : declaration ∈ (start program options reporting).declareAll.declarations)
    (kept : declaration.decorator = some decorator) :
    options.angular = true ∧ ∃ part, Angular.partOf? declaration.source decorator = some part ∧
      declaration.shape = part.shape := by
  obtain ⟨source, _, candidate, _, item, written, rfl⟩ := mem_declarations_declareAll.mp present
  exact Declaring.part_of_mem_declared written kept

/-- Reading decorators gives each decorated class the role of its part. -/
theorem change_mem_angularEdits {part : Angular.Part} {declarations : List Declaration}
    (present : declaration ∈ declarations) (kept : declaration.decorator = some decorator)
    (part_eq : Angular.partOf? declaration.source decorator = some part) :
    Edit.change declaration.classifierId (.stereotype part.stereotype)
      ∈ draft.angularEdits declarations := by
  induction declarations generalizing draft with
  | nil => exact absurd present List.not_mem_nil
  | cons first declarations ih =>
      rw [angularEdits]
      rcases List.mem_cons.mp present with rfl | later
      · refine List.mem_append_left _ ?_
        rw [decoratedEdits, kept]
        simp only [part_eq]
        exact List.mem_append_left _ List.mem_cons_self
      · exact List.mem_append_right _ (ih later)

end Draft

/-! ## Routes -/

instance : DecidablePred Classifier.IsRoute :=
  fun _ => inferInstanceAs (Decidable (_ ∨ _))

/-- The classifier that an edit adds. -/
def Edit.classifier? : Edit → Option Classifier
  | .classifier _ added => some added
  | _ => none

/-- What is added under the id of a route is a route. -/
def Classifier.RoutesApart (added : List Classifier) : Prop :=
  ∀ route ∈ added, route.IsRoute → ∀ other ∈ added, other.id = route.id → other.IsRoute

instance (added : List Classifier) : Decidable (Classifier.RoutesApart added) :=
  inferInstanceAs (Decidable (∀ _ ∈ added, _ → ∀ _ ∈ added, _ → _))

namespace Draft

variable {draft : Draft} {edits whole : List Edit}

/-- What stands under the ids of routes are routes. -/
def RoutesKept (routes : Set String) (draft : Draft) : Prop :=
  ∀ id ∈ routes, ∀ classifier, draft.classifier? id = some classifier → classifier.IsRoute

theorem RoutesKept.apply (apart : Classifier.RoutesApart (whole.filterMap Edit.classifier?))
    (kept : RoutesKept (routeIds whole) draft) {edit : Edit} (present : edit ∈ whole) :
    RoutesKept (routeIds whole) (draft.apply edit) := by
  intro id route_id classifier found
  rcases classifier?_of_apply found with ⟨old, old_found, growth⟩ | ⟨file, rfl, same⟩
  · exact Classifier.lasting_isRoute old classifier growth (kept id route_id old old_found)
  · obtain ⟨path, route, route_mem, isRoute, rfl⟩ := route_id
    exact apart route (List.mem_filterMap.mpr ⟨_, route_mem, rfl⟩) isRoute classifier
      (List.mem_filterMap.mpr ⟨_, present, rfl⟩) same

/-- The routes that edits add to an empty draft are there in the end, unless an element that is no
route has the id of one. -/
theorem Regular.has_route (regular : draft.Regular) (empty : draft.classifiers = [])
    (fit : All Fits edits) (apart : Classifier.RoutesApart (edits.filterMap Edit.classifier?)) :
    ∀ id ∈ routeIds edits, (draft.applyAll edits).Has id Classifier.IsRoute := by
  have start_kept : RoutesKept (routeIds edits) draft := by
    intro id _ classifier found
    simp [classifier?, empty] at found
  have kept : RoutesKept (routeIds edits) (draft.applyAll edits) :=
    List.foldlRecOn (motive := RoutesKept (routeIds edits)) edits Draft.apply start_kept
      fun _ kept _ present => kept.apply apart present
  intro id route_id
  have route_kept := kept id route_id
  obtain ⟨file, route, route_mem, _, rfl⟩ := route_id
  obtain ⟨classifier, found⟩ := regular.exists_classifier_of_mem fit route_mem
  exact ⟨classifier, found, route_kept classifier found⟩

end Draft

end CodeGraph
