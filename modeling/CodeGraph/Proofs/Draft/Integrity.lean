import CodeGraph.Project.Extraction
import CodeGraph.Proofs.Draft.FrameworkPasses

/-!
# Drafts are intact

Each pass leaves a draft well-formed, so every draft that passes reach from the empty one is. Such
a draft refers to nothing that it does not have, and the check that ends an extraction accepts it.
-/

namespace CodeGraph.Draft

variable {draft : Draft}

/-- The draft has every element that it refers to. -/
structure Intact (draft : Draft) : Prop where
  /-- Relations lead from classifiers to classifiers. -/
  relation_ends : ∀ relation ∈ Ordered.values draft.relations,
    relation.sourceId ∈ Ordered.keys draft.classifiers ∧
      relation.targetId ∈ Ordered.keys draft.classifiers
  /-- Every classifier is owned by a package. -/
  classifier_package : ∀ classifier ∈ Ordered.values draft.classifiers,
    ∃ package ∈ Ordered.values draft.packages, classifier.packageId = some package.id
  /-- A package that lies in another one lies in a package. -/
  package_parent : ∀ package ∈ Ordered.values draft.packages, ∀ parent,
    package.parentId = some parent → ∃ above ∈ Ordered.values draft.packages, above.id = parent
  /-- Names mean classifiers. -/
  symbol_classifier : ∀ entry ∈ draft.symbols.declared,
    entry.2.classifierId ∈ Ordered.keys draft.classifiers

/-- Every directory of closed packages has a package with its id. -/
theorem exists_package_of_mem_keys {packages : PackageMap} (closed : packages.Closed)
    {directory : String} (present : directory ∈ Ordered.keys packages) :
    ∃ package ∈ Ordered.values packages, package.id = packageId directory := by
  obtain ⟨⟨_, package⟩, entry_mem, rfl⟩ := List.mem_map.mp present
  exact ⟨package, List.mem_map.mpr ⟨_, entry_mem, rfl⟩, closed.id_eq _ package entry_mem⟩

theorem WellFormed.intact (wellFormed : draft.WellFormed) : draft.Intact := by
  have closed := wellFormed.packages_closed
  refine ⟨?_, ?_, ?_, fun entry present => wellFormed.symbol_mem entry.1 entry.2 present⟩
  · intro relation present
    obtain ⟨⟨id, _⟩, entry_mem, rfl⟩ := List.mem_map.mp present
    exact wellFormed.ends_mem id _ entry_mem
  · intro classifier present
    obtain ⟨⟨id, _⟩, entry_mem, rfl⟩ := List.mem_map.mp present
    obtain ⟨directory, directory_mem, owner⟩ := wellFormed.packaged id _ entry_mem
    obtain ⟨package, package_mem, id_eq⟩ := exists_package_of_mem_keys closed directory_mem
    exact ⟨package, package_mem, by rw [owner, id_eq]⟩
  · intro package present parent parent_eq
    obtain ⟨⟨directory, _⟩, entry_mem, rfl⟩ := List.mem_map.mp present
    obtain ⟨above, above_mem, rfl⟩ := closed.parent_mem directory _ parent entry_mem parent_eq
    exact exists_package_of_mem_keys closed above_mem

/-- The classifiers of a model made from a draft have the ids that they stand under. -/
theorem WellFormed.mem_model_ids (wellFormed : draft.WellFormed) {id : String}
    (present : id ∈ Ordered.keys draft.classifiers) :
    id ∈ draft.toModel.classifiers.map (·.id) := by
  obtain ⟨⟨_, classifier⟩, entry_mem, rfl⟩ := List.mem_map.mp present
  refine List.mem_map.mpr ⟨classifier, List.mem_map.mpr ⟨_, entry_mem, rfl⟩, ?_⟩
  exact wellFormed.keyed _ classifier entry_mem

/-- The model of a well-formed draft refers to nothing that it does not have. -/
theorem WellFormed.danglingRefs_eq_nil (wellFormed : draft.WellFormed) :
    draft.toModel.danglingRefs = [] := by
  obtain ⟨relation_ends, classifier_package, package_parent, _⟩ := wellFormed.intact
  simp only [Model.danglingRefs, List.append_eq_nil_iff, List.flatMap_eq_nil_iff,
    List.filterMap_eq_nil_iff, List.contains_iff_mem]
  refine ⟨⟨?_, ?_⟩, ?_⟩
  · intro relation present
    obtain ⟨source_mem, target_mem⟩ := relation_ends relation present
    exact ⟨if_pos (wellFormed.mem_model_ids source_mem),
      if_pos (wellFormed.mem_model_ids target_mem)⟩
  · intro classifier present
    obtain ⟨package, package_mem, owner⟩ := classifier_package classifier present
    simp only [owner]
    exact if_pos (List.mem_map.mpr ⟨package, package_mem, rfl⟩)
  · intro package present
    cases parent_eq : package.parentId with
    | none => rfl
    | some parent =>
        obtain ⟨above, above_mem, id_eq⟩ := package_parent package present parent parent_eq
        exact if_pos (List.mem_map.mpr ⟨above, above_mem, id_eq⟩)

/-- Each pass leaves a draft well-formed. -/
theorem WellFormed.run (wellFormed : draft.WellFormed) (pass : Pass) :
    (pass.run draft).WellFormed := by
  cases pass with
  | declarations => exact wellFormed.declareAll
  | members => exact wellFormed.addMembers
  | react => exact wellFormed.addReact
  | reactRoutes => exact wellFormed.addReactRoutes
  | angular => exact wellFormed.addAngular
  | angularRoutes => exact wellFormed.addAngularRoutes
  | angularTemplates => exact wellFormed.addAngularTemplates
  | imports => exact wellFormed.addImportGraph

theorem WellFormed.runPasses (wellFormed : draft.WellFormed) (passes : List Pass) :
    (draft.runPasses passes).WellFormed := by
  induction passes generalizing draft with
  | nil => exact wellFormed
  | cons pass passes ih => exact ih (wellFormed.run pass)

/-- Whatever passes run, in whatever order, the draft that they reach has every element that it
refers to, and the check that ends an extraction finds nothing missing. -/
theorem runPasses_intact (program : Program) (options : ExtractOptions) (reporting : Bool)
    (passes : List Pass) :
    ((start program options reporting).runPasses passes).Intact ∧
      ((start program options reporting).runPasses passes).toModel.isIntact = true ∧
      ∀ refs, Project.intactModel ((start program options reporting).runPasses passes)
        ≠ .error (.dangling refs) := by
  have wellFormed := (start_wellFormed program options reporting).runPasses passes
  have intact : ((start program options reporting).runPasses passes).toModel.isIntact = true := by
    rw [Model.isIntact, wellFormed.danglingRefs_eq_nil, List.isEmpty_nil]
  refine ⟨wellFormed.intact, intact, fun refs failed => ?_⟩
  simp only [Project.intactModel, intact] at failed
  split at failed
  · cases failed
  · split at failed <;> simp at failed

end CodeGraph.Draft
