import CodeGraph.Draft.Declaring
import CodeGraph.Draft.Members
import CodeGraph.Modules.ImportGraph
import CodeGraph.Proofs.Draft.DeclarationEdits
import CodeGraph.Proofs.Draft.WellFormed

/-!
# The passes of every extraction

The edits that declare classifiers, add their members and connect files refer only to classifiers
that are known: to those of declarations, to what names mean, and to those that the same edits have
added before.
-/

namespace CodeGraph

open Edit

variable {draft : Draft} {declaration : Declaration}

/-! ## Members -/

namespace Edit

theorem All.grounded {known : Set String} {edits : List Edit}
    (all : All (Grounded known) edits) : GroundedAll known edits := by
  induction edits with
  | nil => trivial
  | cons edit edits ih =>
      obtain ⟨here, further⟩ := all_cons.mp all
      exact ⟨here, (ih further).mono (subset_knownAfter known edit)⟩

/-- What is made for a declaration leads from its classifier to what is declared. -/
theorem MadeFor.grounded (wellFormed : draft.WellFormed)
    (declared : declaration.classifierId ∈ draft.ids) {links : RelationKind → List Tag → Prop}
    {edit : Edit} (made : edit.MadeFor draft links declaration) :
    edit.Grounded draft.ids := by
  cases made with
  | link meant =>
      obtain ⟨place, declares⟩ := meant
      exact ⟨declared, wellFormed.symbol_mem place _ declares⟩
  | stereotype | tag | «attribute» | operation | role | binding | find | giveUp => trivial

theorem All.groundedFor (wellFormed : draft.WellFormed)
    (declared : declaration.classifierId ∈ draft.ids) {links : RelationKind → List Tag → Prop}
    {edits : List Edit} (all : All (MadeFor draft links declaration) edits) :
    GroundedAll draft.ids edits :=
  (all.mono fun _ => MadeFor.grounded wellFormed declared).grounded

end Edit

/-! ## Declarations -/

namespace Declaring

/-- A name is declared behind the classifier that it declares. -/
theorem declareEdits_grounded (known : Set String) (source : Syntax.Source)
    (exportedNames : List String) (candidate : Candidate) (item : Declared) :
    GroundedAll known (declareEdits source exportedNames candidate item) := by
  cases tag : shapeTag? item.shape with
  | none => simp [declareEdits, tag]
  | some tag_eq => simp [declareEdits, tag]

theorem edits_grounded (known : Set String) (program : Program) (options : ExtractOptions) :
    GroundedAll known (edits program options) := by
  refine .append ?_ ?_
  · rw [List.map_eq_flatMap]
    exact .flatMap fun source _ => by simp
  · exact .flatMap fun source _ => .flatMap fun candidate _ => .flatMap fun item _ =>
      declareEdits_grounded known source _ candidate item

end Declaring

/-! ## The import graph -/

namespace Modules.ModuleReference

theorem edits_grounded (known : Set String) (reference : ModuleReference)
    (resolver : ModuleResolver) (source : Syntax.Source) :
    GroundedAll known (reference.edits resolver source) := by
  rw [edits]
  split
  · simp [linkEdits, Draft.fileModule]
  · split <;> simp

end Modules.ModuleReference

/-! ## The passes -/

namespace Draft

theorem WellFormed.declareAll (wellFormed : draft.WellFormed) : draft.declareAll.WellFormed :=
  (wellFormed.applyAll (Declaring.edits_grounded _ _ _)).1

theorem WellFormed.addMembers (wellFormed : draft.WellFormed) : draft.addMembers.WellFormed := by
  refine (wellFormed.applyAll (.flatMap fun declaration present => ?_)).1
  exact (Members.declarationEdits_madeFor draft declaration).groundedFor wellFormed
    (wellFormed.declaration_mem declaration present)

theorem WellFormed.addImportGraph (wellFormed : draft.WellFormed) :
    draft.addImportGraph.WellFormed := by
  refine (wellFormed.applyAll (.flatMap fun source _ => .flatMap fun reference _ => ?_)).1
  exact Modules.ModuleReference.edits_grounded _ reference _ source

end Draft

end CodeGraph
