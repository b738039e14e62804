import CodeGraph.Proofs.Draft.Comparison
import CodeGraph.Proofs.Draft.Growth

/-!
# Files as modules

A file that is joined to another one becomes a module with an id of its own kind, and whatever is
added later leaves that module in place. A reference from one file to another makes a dependency
between their modules, which stays there too. So each file's references are edges of the graph of
modules.
-/

namespace CodeGraph

open Edit

/-! ## Modules of files -/

/-- The id of a declared classifier or a route is never that of a module. -/
theorem classifierId_ne_moduleId (kind : ClassifierKind) (qualifiedName file : String) :
    classifierId kind qualifiedName ≠ moduleId file := by
  intro same
  have chars := congrArg String.toList same
  simp [classifierId, classifierIdOf, moduleId, IdKey.id, IdKey.ofClassifier, IdKey.ofModule,
    digestId] at chars

/-- The classifier is the module that stands for a file. -/
structure Classifier.IsModuleOf (file : String) (classifier : Classifier) : Prop where
  kind_eq : classifier.kind = .module
  qualifiedName_eq : classifier.qualifiedName = some file
  isSourceFile : { name := "SourceFile" } ∈ classifier.stereotypes

theorem Draft.fileModule_isModuleOf (file : String) : (Draft.fileModule file).IsModuleOf file :=
  ⟨rfl, rfl, List.mem_singleton.mpr rfl⟩

/-- A module stays the module of its file. -/
theorem Classifier.IsModuleOf.grows {file : String} {before after : Classifier}
    (isModule : before.IsModuleOf file) (growth : before.Grows after) : after.IsModuleOf file :=
  ⟨growth.kind_eq.trans isModule.kind_eq, growth.qualifiedName_eq.trans isModule.qualifiedName_eq,
    growth.stereotypes_prefix.subset isModule.isSourceFile⟩

namespace Modules.ModuleReference

/-- The dependency that a reference makes when it leads to a file. -/
def dependency (reference : ModuleReference) (source : Syntax.Source) (target : String) : Link :=
  { kind := .dependency
    sourceId := moduleId source.path
    targetId := moduleId target
    tags := [⟨"origin", reference.origin.label⟩, ⟨"specifier", reference.specifier⟩]
    source := some (source.place reference.node)
    discriminator := some (reference.origin.label ++ ":" ++ reference.specifier) }

theorem linkEdits_eq (reference : ModuleReference) (source : Syntax.Source) (target : String) :
    reference.linkEdits source target
      = [.classifier source.path (Draft.fileModule source.path),
          .classifier target (Draft.fileModule target),
          .relate (reference.dependency source target)] := rfl

end Modules.ModuleReference

namespace Program

/-- The modules of different files have different ids. -/
def ModulesApart (program : Program) : Prop :=
  ∀ first ∈ program.paths, ∀ second ∈ program.paths,
    moduleId first = moduleId second → first = second

theorem mem_paths_of_mem_sources {program : Program} {source : Syntax.Source}
    (listed : source ∈ program.sources) : source.path ∈ program.paths :=
  List.mem_map.mpr ⟨source, (List.mem_filter.mp listed).1, rfl⟩

end Program

namespace Draft

variable {program : Program} {draft : Draft}

/-- A classifier that stands when one has been added was there before or is this one. -/
theorem classifier?_of_addClassifier {added classifier : Classifier} {id : String}
    (present : (draft.addClassifier added).classifier? id = some classifier) :
    draft.classifier? id = some classifier ∨ added = classifier ∧ added.id = id := by
  rw [addClassifier] at present
  split at present
  · exact .inl present
  next =>
    rw [classifier?, Ordered.get?_append] at present
    cases early : draft.classifiers.get? id with
    | some old =>
        rw [early, Option.some_or] at present
        exact .inl (early.trans present)
    | none =>
        rw [early, Option.none_or, Ordered.get?_cons] at present
        split at present
        next same => exact .inr ⟨Option.some.inj present, same.symm⟩
        next => simp at present

/-- A classifier that stands after a change has grown. -/
theorem classifier?_of_changeClassifier {other id : String} {change : ClassifierChange}
    {classifier : Classifier}
    (present : (draft.changeClassifier other change).classifier? id = some classifier) :
    ∃ old, draft.classifier? id = some old ∧ old.Grows classifier := by
  rw [changeClassifier] at present
  split at present
  next old found =>
    by_cases same : id = other
    · subst same
      obtain rfl : change.apply old = classifier := by
        simpa [classifier?] using present
      exact ⟨old, found, ClassifierChange.grows_apply old change⟩
    · have untouched := (Ordered.get?_set_of_ne _ _ same).symm.trans present
      exact ⟨classifier, untouched, .refl classifier⟩
  next => exact ⟨classifier, present, .refl classifier⟩

/-- A classifier after an edit was there before and has grown, or the edit adds it. -/
theorem classifier?_of_apply {edit : Edit} {id : String} {classifier : Classifier}
    (present : (draft.apply edit).classifier? id = some classifier) :
    (∃ old, draft.classifier? id = some old ∧ old.Grows classifier) ∨
      ∃ file, edit = .classifier file classifier ∧ classifier.id = id := by
  have unchanged (same : draft.classifier? id = some classifier) :
      ∃ old, draft.classifier? id = some old ∧ old.Grows classifier :=
    ⟨classifier, same, .refl classifier⟩
  cases edit with
  | bind | declare | giveUp => exact .inl (unchanged present)
  | find | relate =>
      simp only [apply, relate] at present
      split at present <;> exact .inl (unchanged present)
  | classifier file added =>
      rcases classifier?_of_addClassifier present with same | ⟨rfl, id_eq⟩
      · exact .inl (unchanged same)
      · exact .inr ⟨file, rfl, id_eq⟩
  | change => exact .inl (classifier?_of_changeClassifier present)

/-- Where a module stands under the id of a file of the program, it is that of the file. -/
def ModulesKept (program : Program) (draft : Draft) : Prop :=
  ∀ file ∈ program.paths, ∀ classifier, draft.classifier? (moduleId file) = some classifier →
    classifier.IsModuleOf file

theorem start_modulesKept (program : Program) (options : ExtractOptions) (reporting : Bool) :
    ModulesKept program (start program options reporting) := by
  intro file _ classifier present
  simp [start, classifier?] at present

/-- A classifier that passes add under the id of a file's module is the module of this file. -/
theorem isModuleOf_of_made (apart : program.ModulesApart) {path file : String}
    {added : Classifier} (made : Made program (.classifier path added))
    (listed : file ∈ program.paths) (same : added.id = moduleId file) :
    added.IsModuleOf file := by
  cases made with
  | declares _ _ one =>
      cases Declaring.mem_declareEdits.mp one
      -- Ids of what is declared, and of routes below, begin otherwise than those of modules.
      exact (classifierId_ne_moduleId _ _ _ same).elim
  | ofDeclaration _ made => cases made
  | fileModule source_listed =>
      obtain rfl := apart _ (Program.mem_paths_of_mem_sources source_listed) _ listed same
      exact fileModule_isModuleOf _
  | route => exact (classifierId_ne_moduleId _ _ _ same).elim

theorem ModulesKept.apply (kept : ModulesKept program draft) (apart : program.ModulesApart)
    {edit : Edit} (made : Made program edit) : ModulesKept program (draft.apply edit) := by
  intro file listed classifier present
  rcases classifier?_of_apply present with ⟨old, old_present, growth⟩ | ⟨path, rfl, same⟩
  · exact (kept file listed old old_present).grows growth
  · exact isModuleOf_of_made apart made listed same

theorem ModulesKept.applyAll (kept : ModulesKept program draft) (apart : program.ModulesApart)
    {edits : List Edit} (made : All (Made program) edits) :
    ModulesKept program (draft.applyAll edits) :=
  made.keeps (fun _ _ kept made => kept.apply apart made) kept

/-! ## What edits leave -/

/-- A classifier that one of many edits adds is there in the end, or what had its id before. -/
theorem Regular.exists_classifier_of_mem (regular : draft.Regular) {edits : List Edit}
    (fit : All Fits edits) {file : String} {added : Classifier}
    (present : Edit.classifier file added ∈ edits) :
    ∃ classifier, (draft.applyAll edits).classifier? added.id = some classifier := by
  induction edits generalizing draft with
  | nil => exact absurd present List.not_mem_nil
  | cons edit edits ih =>
      obtain ⟨here, further⟩ := all_cons.mp fit
      rcases List.mem_cons.mp present with rfl | later
      · have added_mem : added.id ∈ (draft.apply (.classifier file added)).ids :=
          knownAfter_subset_ids draft (.classifier file added) (Set.mem_insert _ _)
        obtain ⟨early, early_eq⟩ := Option.isSome_iff_exists.mp
          (Ordered.isSome_get?_iff.mpr added_mem)
        have growth := (regular.apply here).grows_applyAll further
        obtain ⟨last, last_eq, _⟩ := growth.classifier_kept _ early early_eq
        exact ⟨last, last_eq⟩
      · exact ih (regular.apply here) further later

/-! ## The graph of modules -/

/-- The module that stands for a file is in the draft. -/
def HasModule (draft : Draft) (file : String) : Prop :=
  ∃ classifier, draft.classifier? (moduleId file) = some classifier ∧ classifier.IsModuleOf file

/-- The modules of two files are in the draft, and one depends on the other. -/
structure ModuleEdge (draft : Draft) (first second : String) : Prop where
  first_module : draft.HasModule first
  second_module : draft.HasModule second
  dependency : ∃ relation ∈ draft.edges, relation.kind = .dependency ∧
    relation.sourceId = moduleId first ∧ relation.targetId = moduleId second

variable {edits : List Edit}

/-- A file's module that edits add is there in the end. -/
theorem hasModule_of_mem (regular : draft.Regular) (kept : ModulesKept program draft)
    (apart : program.ModulesApart) (made : All (Made program) edits) {file : String}
    (listed : file ∈ program.paths)
    (present : Edit.classifier file (fileModule file) ∈ edits) :
    (draft.applyAll edits).HasModule file := by
  obtain ⟨classifier, found⟩ :=
    regular.exists_classifier_of_mem (made.mono fun _ => Made.fits) present
  exact ⟨classifier, found, kept.applyAll apart made file listed classifier found⟩

/-- A reference from one file to another is an edge in the end. -/
theorem moduleEdge_of_mem (empty : draft.relations = []) (regular : draft.Regular)
    (kept : ModulesKept program draft) (apart : program.ModulesApart)
    (made : All (Made program) edits) (free : Link.CollisionFree (edits.filterMap Edit.link?))
    {source : Syntax.Source} {target : String} (source_listed : source.path ∈ program.paths)
    (target_listed : target ∈ program.paths) (other : target ≠ source.path)
    {reference : Modules.ModuleReference} (present : reference.linkEdits source target ⊆ edits) :
    (draft.applyAll edits).ModuleEdge source.path target := by
  simp only [Modules.ModuleReference.linkEdits_eq, List.cons_subset, List.nil_subset,
    and_true] at present
  obtain ⟨source_mem, target_mem, link_mem⟩ := present
  refine ⟨hasModule_of_mem regular kept apart made source_listed source_mem,
    hasModule_of_mem regular kept apart made target_listed target_mem, ?_⟩
  have said : (reference.dependency source target).isVoid = false := by
    have ids_ne : moduleId source.path ≠ moduleId target := fun same =>
      other (apart _ source_listed _ target_listed same).symm
    simp [Link.isVoid, Modules.ModuleReference.dependency, ids_ne]
  have added : reference.dependency source target ∈ edits.filterMap Edit.link? :=
    List.mem_filterMap.mpr ⟨_, link_mem, by simp [Edit.link?, said]⟩
  obtain ⟨relation, relation_mem, kind, from_first, to_second, _⟩ :=
    Link.exists_relation_of_mem free added
  refine ⟨relation, ?_, kind, from_first, to_second⟩
  rw [edges, relations_applyAll, empty]
  exact relation_mem

end Draft

end CodeGraph
