import CodeGraph.Proofs.Draft.Entries
import CodeGraph.Proofs.Draft.PassEdits
import CodeGraph.Proofs.Draft.Roles

/-!
# Components are declared

Files and routes become modules, and whatever else is added to a draft is declared along with it. So
the components of a draft that passes reach are all among what its declarations stand for.
-/

namespace CodeGraph

open Syntax Edit

/-! ## What edits add -/

namespace Edit

/-- A classifier that the edit adds is a module. -/
def AddsModules (edit : Edit) : Prop :=
  ∀ file added, edit = .classifier file added → added.kind = .module

/-- A component that the edits add is declared by them. -/
def DeclareComponents (edits : List Edit) : Prop :=
  ∀ file added, .classifier file added ∈ edits → added.kind = .component →
    ∃ scopedName declaration, .declare scopedName declaration ∈ edits ∧
      declaration.classifierId = added.id

variable {first second edits : List Edit} {edit : Edit}

theorem DeclareComponents.append (left : DeclareComponents first)
    (right : DeclareComponents second) : DeclareComponents (first ++ second) := by
  intro file added present component
  rcases List.mem_append.mp present with here | there
  · obtain ⟨scopedName, declaration, declared, same⟩ := left file added here component
    exact ⟨scopedName, declaration, List.mem_append_left _ declared, same⟩
  · obtain ⟨scopedName, declaration, declared, same⟩ := right file added there component
    exact ⟨scopedName, declaration, List.mem_append_right _ declared, same⟩

theorem DeclareComponents.flatMap {α : Type} {items : List α} {edits : α → List Edit}
    (each : ∀ item ∈ items, DeclareComponents (edits item)) :
    DeclareComponents (items.flatMap edits) := by
  intro file added present component
  obtain ⟨item, item_mem, here⟩ := List.mem_flatMap.mp present
  obtain ⟨scopedName, declaration, declared, same⟩ := each item item_mem file added here component
  exact ⟨scopedName, declaration, List.mem_flatMap.mpr ⟨item, item_mem, declared⟩, same⟩

theorem DeclareComponents.of_modules (all : All AddsModules edits) : DeclareComponents edits := by
  intro file added present component
  have isModule := all.of_mem _ present file added rfl
  exact absurd (component.symm.trans isModule) (by decide)

theorem MadeFor.addsModules {reader : Draft} {links : RelationKind → List Tag → Prop}
    {declaration : Declaration} (made : edit.MadeFor reader links declaration) :
    edit.AddsModules := by
  rintro file added rfl
  cases made

end Edit

theorem React.Used.addsModules {draft : Draft} {source : Source} {edit : Edit}
    (used : React.Used draft source edit) : edit.AddsModules := by
  rintro file added rfl
  cases used

theorem Routes.Routed.addsModules {symbols : SymbolTable} {source : Source} {routes : Set String}
    {edit : Edit} (routed : Routes.Routed symbols source routes edit) : edit.AddsModules := by
  rintro file added rfl
  cases routed with
  | route => rfl

theorem Angular.Applied.addsModules {draft : Draft} {index : Angular.TemplateIndex}
    {declaration : Declaration} {edit : Edit}
    (applied : Angular.Applied draft index declaration edit) : edit.AddsModules := by
  rintro file added rfl
  cases applied

theorem Modules.Joined.addsModules {resolver : ModuleResolver} {source : Source} {edit : Edit}
    (joined : Modules.Joined resolver source edit) : edit.AddsModules := by
  rintro file added rfl
  cases joined with
  | origin | target => rfl

/-! ## Passes -/

namespace Draft

variable {program : Program} {draft : Draft}

/-- What a file declares is added and then declared. -/
theorem declareComponents_declarations (program : Program) (options : ExtractOptions) :
    DeclareComponents (Declaring.edits program options) := by
  intro file added present _
  obtain ⟨_, _, bind⟩ | ⟨source, listed, candidate, stands, item, written, declares⟩ :=
    Declaring.mem_edits.mp present
  · cases bind
  · cases declares
    exact ⟨_, _, Declaring.declare_mem_edits listed stands written, rfl⟩

theorem descriptionEdits_addModules (draft : Draft) :
    All AddsModules (React.descriptionEdits draft) :=
  draft.reactDescription_madeFor.mono fun _ ⟨_, _, made⟩ => made.addsModules

theorem addsModules_of_makes {pass : Pass} (later : pass ≠ .declarations) {routes : Set String}
    {edit : Edit} (makes : pass.Makes draft routes edit) : edit.AddsModules := by
  cases makes with
  | bind | declares => exact absurd rfl later
  | members _ made | described _ made | wired _ made => exact made.addsModules
  | used _ used => exact used.addsModules
  | routed _ _ routed => exact routed.addsModules
  | applied _ _ _ applied => exact applied.addsModules
  | joined _ joined => exact joined.addsModules

/-- A pass adds no component without declaring it. -/
theorem declareComponents_edits (draft : Draft) (pass : Pass) :
    DeclareComponents (pass.edits draft) := by
  by_cases first : pass = .declarations
  · subst first
    exact declareComponents_declarations draft.program draft.options
  · exact .of_modules ((pass.edits_make draft (List.Subset.refl _)).mono
      fun _ => addsModules_of_makes first)

theorem declareComponents_runEdits (draft : Draft) (passes : List Pass) :
    DeclareComponents (draft.runEdits passes) := by
  induction passes generalizing draft with
  | nil => simp [DeclareComponents, runEdits]
  | cons pass passes ih => exact (declareComponents_edits draft pass).append (ih _)

/-- Each component of the draft is declared. -/
def ComponentsDeclared (draft : Draft) : Prop :=
  ∀ id classifier, (id, classifier) ∈ draft.classifiers → classifier.kind = .component →
    ∃ declaration ∈ draft.declarations, declaration.classifierId = id

theorem ComponentsDeclared.applyAll (declared : draft.ComponentsDeclared) {edits : List Edit}
    (declare : DeclareComponents edits) : (draft.applyAll edits).ComponentsDeclared := by
  -- what is declared in the end does not change while the edits are applied
  let ends := (draft.applyAll edits).declarations
  let ofClassifier := fun (id : String) (classifier : Classifier) =>
    classifier.kind = .component → ∃ declaration ∈ ends, declaration.classifierId = id
  have start : draft.Throughout ofClassifier fun _ _ => True := by
    refine ⟨fun id classifier present component => ?_, fun _ _ _ => trivial⟩
    obtain ⟨declaration, listed, same⟩ := declared id classifier present component
    exact ⟨declaration, declarations_subset_applyAll draft edits listed, same⟩
  have preserve : All (Edit.Preserves ofClassifier fun _ _ => True) edits := by
    refine ⟨fun edit present => ?_⟩
    cases edit with
    | classifier file added =>
        intro component
        obtain ⟨scopedName, declaration, here, same⟩ := declare file added present component
        exact ⟨declaration, mem_declarations_applyAll.mpr (.inr ⟨scopedName, here⟩), same⟩
    | change id change =>
        intro classifier good component
        exact good ((ClassifierChange.grows_apply classifier change).kind_eq.symm.trans component)
    | relate => exact ⟨fun _ => trivial, fun _ _ => trivial⟩
    | bind | declare | find | giveUp => trivial
  exact (preserve.keeps (fun _ _ all preserves => all.apply preserves) start).of_classifier

/-- Whatever passes run, each component of the draft is declared. -/
theorem runPasses_componentsDeclared (program : Program) (options : ExtractOptions)
    (reporting : Bool) (passes : List Pass) :
    ((start program options reporting).runPasses passes).ComponentsDeclared := by
  rw [runPasses_eq]
  refine ComponentsDeclared.applyAll ?_ (declareComponents_runEdits _ passes)
  intro id classifier present
  simp [start] at present

end Draft

end CodeGraph
