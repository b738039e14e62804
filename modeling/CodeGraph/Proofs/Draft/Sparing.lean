import CodeGraph.Proofs.Draft.FileModules
import CodeGraph.Proofs.Draft.Roles

/-!
# What passes leave to the import graph

All passes but that of the import graph spare files: they add no module of a file, make nothing a
source file and tell of no import. What they tell of other names is fair.
-/

namespace CodeGraph

open Edit

/-- The classifier stands for no file. -/
structure Classifier.NoFile (id : String) (classifier : Classifier) : Prop where
  id_ne : ∀ file, id ≠ moduleId file
  no_role : classifier.hasStereotype "SourceFile" = false

namespace Edit

/-- The edit makes nothing a source file, and what it tells is fair to a name in the file and the
scope in which that name is `asked` for. -/
def Spares (symbols : SymbolTable) (asked : Finding → String → List String → Prop) : Edit → Prop
  | .classifier _ added => added.NoFile added.id
  | .change _ (.stereotype name) => name ≠ "SourceFile"
  | .find finding => ∃ file scope, asked finding file scope ∧ finding.Fair symbols file scope
  | .bind _ _ | .change _ _ | .declare _ _ | .relate _ | .giveUp => True

variable {draft : Draft} {symbols : SymbolTable} {asked : Finding → String → List String → Prop}

/-! ## Forms of edits -/

theorem MadeFor.spares {links : RelationKind → List Tag → Prop} {declaration : Declaration}
    {edit : Edit} (made : edit.MadeFor draft links declaration)
    (here : ∀ finding, draft.Owns declaration finding →
      asked finding declaration.file declaration.scope) : edit.Spares draft.symbols asked := by
  cases made with
  | stereotype role => exact role.ne_file
  | find owned fair => exact ⟨_, _, here _ owned, fair⟩
  | link | tag | «attribute» | operation | role | binding | giveUp => trivial

end Edit

section

variable {symbols : SymbolTable} {asked : Finding → String → List String → Prop} {edit : Edit}

theorem Declaring.Declares.spares {source : Syntax.Source} {exportedNames : List String}
    {candidate : Candidate} {item : Declared}
    (declares : Declares source exportedNames candidate item edit) :
    edit.Spares symbols asked := by
  cases declares with
  | classifier => exact ⟨classifierId_ne_moduleId _ _, rfl⟩
  | tag | declare => trivial

theorem React.Used.spares {draft : Draft} {source : Syntax.Source}
    (used : React.Used draft source edit)
    (here : ∀ owner ∈ draft.declarationsIn source.path, ∀ finding, draft.Owns owner finding →
      asked finding source.path owner.scope) :
    edit.Spares draft.symbols asked := by
  cases used with
  | find present owned fair => exact ⟨_, _, here _ present _ owned, fair⟩
  | context | render | giveUp => trivial

theorem Routes.Routed.spares {source : Syntax.Source} {routes : Set String}
    (routed : Routes.Routed symbols source routes edit)
    (here : ∀ finding, asked finding source.path []) : edit.Spares symbols asked := by
  cases routed with
  | route _ _ known =>
      refine ⟨classifierId_ne_moduleId _ _, ?_⟩
      rcases known with rfl | rfl <;> rfl
  | stereotype role => exact role.ne_file
  | find fair => exact ⟨_, _, here _, fair⟩
  | link | tag | giveUp => trivial

theorem Angular.Applied.spares {draft : Draft} {index : Angular.TemplateIndex}
    {declaration : Declaration} (applied : Angular.Applied draft index declaration edit)
    (here : ∀ finding, draft.Owns declaration finding →
      asked finding declaration.file declaration.scope) : edit.Spares symbols asked := by
  cases applied with
  | use => trivial
  | find owned remark => exact ⟨_, _, here _ owned, .of_note remark⟩

end

/-! ## Passes -/

namespace Draft

variable {draft : Draft}

/-- The file and the scope are those of the declaration that the finding names as its owner. -/
def OwnerScope (draft : Draft) (finding : Finding) (file : String) (scope : List String) : Prop :=
  ∃ owner ∈ draft.declarations, draft.Owns owner finding ∧ owner.file = file ∧ owner.scope = scope

/-- Where a pass looks up the name that a finding is about: in no namespace for what routes lead to,
and in the scope of the finding's owner for all else. -/
def Asks (draft : Draft) : Pass → Finding → String → List String → Prop
  | .reactRoutes | .angularRoutes => fun _ _ scope => scope = []
  | .declarations | .members | .react | .angular | .angularTemplates | .imports => draft.OwnerScope

theorem ownerScope_of_mem {declaration : Declaration} (present : declaration ∈ draft.declarations)
    (finding : Finding) (owned : draft.Owns declaration finding) :
    draft.OwnerScope finding declaration.file declaration.scope :=
  ⟨declaration, present, owned, rfl, rfl⟩

/-- What passes make, that of the import graph apart, spares files. -/
theorem spares_of_makes {pass : Pass} (other : pass ≠ .imports) {routes : Set String} {edit : Edit}
    (makes : pass.Makes draft routes edit) : edit.Spares draft.symbols (draft.Asks pass) := by
  cases makes with
  | bind => trivial
  | declares _ _ declares => exact declares.spares
  | members present made | described present made | wired present made =>
      exact made.spares (ownerScope_of_mem present)
  | used _ used =>
      have same := sameNames_reactDescription draft
      rw [← same.symbols]
      refine used.spares fun owner here finding owned => ?_
      obtain ⟨present, file_eq⟩ := React.mem_declarationsIn.mp here
      exact ⟨owner, declarations_reactDescription present, same.owns owned, file_eq, rfl⟩
  | routed router _ routed =>
      rcases router with rfl | rfl
      · exact routed.spares fun _ => rfl
      · exact routed.spares fun _ => rfl
  | applied present _ _ applied => exact applied.spares (ownerScope_of_mem present)
  | joined => exact absurd rfl other

/-- All passes but the import graph spare files. -/
theorem edits_spare (draft : Draft) {pass : Pass} (other : pass ≠ .imports) :
    All (Spares draft.symbols (draft.Asks pass)) (pass.edits draft) :=
  (pass.edits_make draft (List.Subset.refl _)).mono fun _ => spares_of_makes other

end Draft

/-! ## Runs without the import graph -/

variable {symbols : SymbolTable} {asked : Finding → String → List String → Prop}

/-- A change that makes nothing a source file leaves a classifier that is none. -/
theorem Classifier.NoFile.apply {id : String} {classifier : Classifier}
    (noFile : classifier.NoFile id) {change : ClassifierChange}
    (spares : (Edit.change id change).Spares symbols asked) :
    (change.apply classifier).NoFile id := by
  refine ⟨noFile.id_ne, ?_⟩
  cases change with
  | stereotype name =>
      rw [ClassifierChange.apply, Classifier.addStereotype]
      split
      · exact noFile.no_role
      · have other : name ≠ "SourceFile" := spares
        have none_there := noFile.no_role
        rw [Classifier.hasStereotype] at none_there ⊢
        rw [List.any_append, none_there]
        simpa using other
  | tag | role | binding => exact noFile.no_role
  | «attribute» =>
      rw [ClassifierChange.apply, Classifier.addAttribute]
      split <;> exact noFile.no_role
  | operation =>
      rw [ClassifierChange.apply, Classifier.addOperation]
      split <;> exact noFile.no_role

theorem Edit.Spares.preserves {edit : Edit} (spares : edit.Spares symbols asked) :
    edit.Preserves (fun id classifier => classifier.NoFile id) fun _ _ => True := by
  cases edit with
  | classifier => exact spares
  | change => exact fun _ noFile => noFile.apply spares
  | relate => exact ⟨fun _ => trivial, fun _ _ => trivial⟩
  | bind | declare | find | giveUp => trivial

namespace Draft

variable {draft : Draft}

/-- No classifier stands for a file, and no finding tells of an import. -/
structure Spared (draft : Draft) : Prop where
  classifiers : ∀ id classifier, (id, classifier) ∈ draft.classifiers → classifier.NoFile id
  findings : ∀ finding ∈ draft.findings, finding.kind ≠ .unresolvedImport

theorem start_spared (program : Program) (options : ExtractOptions) (reporting : Bool) :
    (start program options reporting).Spared := by
  constructor <;> simp [start]

theorem Spared.apply (spared : draft.Spared) {edit : Edit} (spares : edit.Spares symbols asked) :
    (draft.apply edit).Spared := by
  have all : draft.Throughout (fun id classifier => classifier.NoFile id) fun _ _ => True :=
    ⟨spared.classifiers, fun _ _ _ => trivial⟩
  refine ⟨(all.apply spares.preserves).of_classifier, fun finding present => ?_⟩
  rcases mem_findings_of_apply present with old | rfl
  · exact spared.findings finding old
  · obtain ⟨_, _, _, fair⟩ := spares
    exact fair.kind_ne

/-- A run without the import graph leaves files alone. -/
theorem Spared.runPasses (spared : draft.Spared) {passes : List Pass} (others : .imports ∉ passes) :
    (draft.runPasses passes).Spared := by
  induction passes generalizing draft with
  | nil => exact spared
  | cons pass passes ih =>
      have here := edits_spare draft (Ne.symm (List.ne_of_not_mem_cons others))
      have next : (pass.run draft).Spared := by
        rw [Pass.run_eq]
        exact here.keeps (fun _ _ spared spares => spared.apply spares) spared
      exact ih next (List.not_mem_of_not_mem_cons others)

end Draft

end CodeGraph
