import CodeGraph.Proofs.Draft.Integrity
import CodeGraph.Proofs.Draft.Sparing
import CodeGraph.Proofs.Modules.Occurrences

/-!
# What the import graph adds

The import graph makes a module of every file that an occurrence of a specifier leads from or to,
and one dependency for each joint that leads to another file. It tells of every relative occurrence
that leads nowhere. Whatever passes have run before, they have left nothing of the sort, so all of
this comes behind what is there.
-/

namespace CodeGraph

open Syntax Modules Edit

/-! ## Modules of files -/

/-- The entry of a file's module. -/
def Draft.moduleEntry (file : String) : String × Classifier :=
  (moduleId file, fileModule file)

theorem Ordered.values_modules (files : List String) :
    Ordered.values (files.map Draft.moduleEntry) = files.map Draft.fileModule := by
  rw [Ordered.values, List.map_map]
  rfl

/-- A file's module is added once, behind what stands for no file. -/
theorem Classifier.foldl_addTo_fileModule {base : Ordered Classifier}
    (spared : ∀ file, moduleId file ∉ Ordered.keys base) {files more : List String}
    (apart : ∀ first ∈ files ++ more, ∀ second ∈ files ++ more,
      moduleId first = moduleId second → first = second) :
    (more.map Draft.fileModule).foldl addTo (base ++ files.map Draft.moduleEntry)
      = base ++ (more.foldl addLast files).map Draft.moduleEntry := by
  induction more generalizing files with
  | nil => rfl
  | cons file more ih =>
      let known : Ordered Classifier := base ++ files.map Draft.moduleEntry
      have known_iff : (known.get? (moduleId file)).isSome ↔ file ∈ files := by
        rw [Ordered.isSome_get?_iff, Ordered.keys, List.map_append, List.mem_append, List.map_map]
        constructor
        · rintro (old | new)
          · exact absurd old (spared file)
          · obtain ⟨other, other_mem, same⟩ := List.mem_map.mp new
            exact apart other (by simp [other_mem]) file (by simp) same ▸ other_mem
        · exact fun present => .inr (List.mem_map.mpr ⟨file, present, rfl⟩)
      have step : addTo known (Draft.fileModule file)
          = base ++ (addLast files file).map Draft.moduleEntry := by
        rw [addTo, addLast]
        by_cases present : file ∈ files
        · rw [if_pos present]
          exact if_pos (known_iff.mpr present)
        · rw [if_neg present, List.map_append, ← List.append_assoc]
          exact if_neg (mt known_iff.mp present)
      rw [List.map_cons, List.foldl_cons, List.foldl_cons, step]
      refine ih fun first first_mem second second_mem => apart first ?_ second ?_
      all_goals simp_all [mem_addLast, or_assoc]

/-! ## Drafts -/

namespace Program

variable (program : Program)

/-- How specifiers lead to files of a program. -/
def resolver : ModuleResolver :=
  { root := program.root
    options := program.options
    files := program.paths }

/-- The occurrences in all files with code. -/
def occurrences : List Occurrence :=
  program.sources.flatMap fun source => (references source).map fun reference => ⟨source, reference⟩

end Program

/-- Links with the same id have the same kind, the same ends and the same word that tells them apart
from others. -/
def Link.Distinct (links : List Link) : Prop :=
  ∀ first ∈ links, ∀ second ∈ links, first.id = second.id →
    first.kind = second.kind ∧ first.sourceId = second.sourceId ∧
      first.targetId = second.targetId ∧ first.discriminator = second.discriminator

instance (links : List Link) : Decidable (Link.Distinct links) :=
  inferInstanceAs (Decidable (∀ _ ∈ links, ∀ _ ∈ links, _ → _))

namespace Draft

/-- The later draft is the earlier one with the import graph of the program. -/
structure GainsImportGraph (program : Program) (before after : Draft) : Prop where
  /-- What was there stands for no file. -/
  classifier_noFile : ∀ classifier ∈ before.toModel.classifiers, classifier.NoFile classifier.id
  /-- The files that occurrences lead from and to become modules, each one once. -/
  modules : ∃ files : List String, files.Nodup ∧
    (∀ file, file ∈ files ↔ ∃ occurrence ∈ program.occurrences, ∃ joint,
      occurrence.joint? program.resolver = some joint ∧
        (file = joint.file ∨ file = joint.target)) ∧
    after.toModel.classifiers = before.toModel.classifiers ++ files.map fileModule
  /-- What was there joins no modules of files. -/
  relation_noFile : ∀ relation ∈ before.toModel.relations, ∀ file,
    relation.sourceId ≠ moduleId file ∧ relation.targetId ≠ moduleId file
  /-- The joints that lead to another file become dependencies, one for each. -/
  dependencies : ∃ (joints : List Joint) (relations : List Relation), joints.Nodup ∧
    (∀ joint, joint ∈ joints ↔ joint.IsProper ∧
      ∃ occurrence ∈ program.occurrences, occurrence.joint? program.resolver = some joint) ∧
    (relations.map (·.id)).Nodup ∧
    List.Forall₂ (fun joint =>
        joint.Makes (Occurrence.placesOf program.resolver program.occurrences joint))
      joints relations ∧
    after.toModel.relations = before.toModel.relations ++ relations
  /-- What was told is about no import. -/
  finding_noImport : ∀ finding ∈ before.findings, finding.kind ≠ .unresolvedImport
  /-- Every lost occurrence is told of, once. -/
  findings : after.findings = before.findings ++ if before.reporting then
    (program.occurrences.filter (·.isLost program.resolver)).map (·.finding) else []

/-- The import graph makes the edits of the occurrences. -/
theorem edits_imports (draft : Draft) :
    Pass.edits draft .imports
      = draft.program.occurrences.flatMap (·.edits draft.symbols.resolver) := by
  simp only [Pass.edits, Program.occurrences, List.flatMap_assoc, List.flatMap_map]
  rfl

theorem resolver_runPasses (program : Program) (options : ExtractOptions) (reporting : Bool)
    (passes : List Pass) :
    ((start program options reporting).runPasses passes).symbols.resolver = program.resolver := by
  rw [runPasses_eq, (sameTask_applyAll ..).resolver]
  rfl

end Draft

namespace Program

variable {program : Program} {occurrence : Occurrence} {joint : Joint}

/-- Joints join files of the program. -/
theorem paths_of_joint (listed : occurrence ∈ program.occurrences)
    (found : occurrence.joint? program.resolver = some joint) :
    joint.file ∈ program.paths ∧ joint.target ∈ program.paths := by
  obtain ⟨target, located, rfl⟩ := Option.map_eq_some_iff.mp found
  obtain ⟨source, source_mem, reference, _, rfl⟩ := by
    simpa only [occurrences, List.mem_flatMap, List.mem_map] using listed
  exact ⟨mem_paths_of_mem_sources source_mem, ModuleResolver.mem_files_of_resolve? located⟩

theorem links_occurrences (apart : program.ModulesApart) :
    (program.occurrences.flatMap (·.edits program.resolver)).filterMap Edit.link?
      = Occurrence.links program.resolver program.occurrences := by
  rw [List.filterMap_flatMap, Occurrence.links, List.filterMap_eq_flatMap_toList]
  refine List.flatMap_congr fun occurrence listed => ?_
  refine Occurrence.links_edits fun joint found => ?_
  obtain ⟨file_mem, target_mem⟩ := paths_of_joint listed found
  exact apart _ file_mem _ target_mem

/-- The files that become modules, each one as often as an occurrence leads from or to it. -/
def ends (program : Program) : List String :=
  program.occurrences.flatMap (·.ends program.resolver)

theorem mem_ends {file : String} :
    file ∈ program.ends ↔ ∃ occurrence ∈ program.occurrences, ∃ joint,
      occurrence.joint? program.resolver = some joint ∧
        (file = joint.file ∨ file = joint.target) := by
  rw [ends, List.mem_flatMap]
  refine exists_congr fun occurrence => and_congr_right fun _ => ?_
  rw [Occurrence.ends]
  cases occurrence.joint? program.resolver <;> simp

theorem paths_of_ends {file : String} (present : file ∈ program.ends) : file ∈ program.paths := by
  obtain ⟨occurrence, listed, joint, found, same⟩ := mem_ends.mp present
  obtain ⟨file_mem, target_mem⟩ := paths_of_joint listed found
  rcases same with rfl | rfl
  · exact file_mem
  · exact target_mem

theorem classifiers_occurrences :
    (program.occurrences.flatMap (·.edits program.resolver)).filterMap Edit.classifier?
      = program.ends.map Draft.fileModule := by
  rw [List.filterMap_flatMap, ends, List.map_flatMap]
  exact List.flatMap_congr fun _ _ => Occurrence.classifiers_edits

theorem findings_occurrences :
    (program.occurrences.flatMap (·.edits program.resolver)).filterMap Edit.finding?
      = (program.occurrences.filter (·.isLost program.resolver)).map (·.finding) := by
  rw [List.filterMap_flatMap]
  induction program.occurrences with
  | nil => rfl
  | cons occurrence occurrences ih =>
      rw [List.flatMap_cons, ih, Occurrence.findings_edits, List.filter_cons]
      cases occurrence.isLost program.resolver <;> rfl

end Program

namespace Draft

variable {program : Program} {draft : Draft}

/-- No id in the draft is that of a file's module. -/
theorem Spared.moduleId_not_mem (spared : draft.Spared) (file : String) :
    moduleId file ∉ Ordered.keys draft.classifiers := by
  intro present
  obtain ⟨⟨_, classifier⟩, entry_mem, same⟩ := List.mem_map.mp present
  exact (spared.classifiers _ classifier entry_mem).id_ne file same

/-- The files that occurrences lead from and to become modules. -/
theorem classifiers_imports (apart : program.ModulesApart) (spared : draft.Spared) :
    (draft.applyAll (program.occurrences.flatMap (·.edits program.resolver))).toModel.classifiers
      = draft.toModel.classifiers ++ (program.ends.foldl addLast []).map fileModule := by
  have steady : ∀ edit ∈ program.occurrences.flatMap (·.edits program.resolver),
      edit.IsSteady := by
    intro edit present
    obtain ⟨occurrence, _, made⟩ := List.mem_flatMap.mp present
    exact Occurrence.isSteady_of_mem_edits made
  have apart_ends : ∀ first ∈ [] ++ program.ends, ∀ second ∈ [] ++ program.ends,
      moduleId first = moduleId second → first = second :=
    fun first first_mem second second_mem =>
      apart first (Program.paths_of_ends first_mem) second (Program.paths_of_ends second_mem)
  have table_eq := classifiers_applyAll draft steady
  have modules := Classifier.foldl_addTo_fileModule spared.moduleId_not_mem apart_ends
  rw [List.map_nil, List.append_nil] at modules
  rw [Program.classifiers_occurrences, modules] at table_eq
  have values_eq := congrArg Ordered.values table_eq
  rwa [Ordered.values_append, Ordered.values_modules] at values_eq

/-- A relation of the draft joins no modules of files. -/
theorem Spared.ends_ne (spared : draft.Spared) (wellFormed : draft.WellFormed)
    {relation : Relation} (present : relation ∈ draft.toModel.relations) (file : String) :
    relation.sourceId ≠ moduleId file ∧ relation.targetId ≠ moduleId file := by
  obtain ⟨source_mem, target_mem⟩ := wellFormed.intact.relation_ends relation present
  constructor
  · exact fun same => spared.moduleId_not_mem file (same ▸ source_mem)
  · exact fun same => spared.moduleId_not_mem file (same ▸ target_mem)

/-- Where ids do not collide, joints are told apart by their ids. -/
theorem jointsApart (apart : program.ModulesApart)
    (distinct : Link.Distinct (Occurrence.links program.resolver program.occurrences)) :
    Occurrence.JointsApart program.resolver program.occurrences := by
  intro first first_mem second second_mem same_id
  obtain ⟨_, _, one_mem, one_found⟩ := Occurrence.mem_joints.mp first_mem
  obtain ⟨_, _, other_mem, other_found⟩ := Occurrence.mem_joints.mp second_mem
  obtain ⟨first_file, first_target⟩ := Program.paths_of_joint one_mem one_found
  obtain ⟨second_file, second_target⟩ := Program.paths_of_joint other_mem other_found
  obtain ⟨_, one_link⟩ := Occurrence.exists_link first_mem
  obtain ⟨_, other_link⟩ := Occurrence.exists_link second_mem
  obtain ⟨_, sources, targets, words⟩ := distinct _ one_link _ other_link same_id
  obtain ⟨origins, specifiers⟩ := ReferenceOrigin.label_append_inj (Option.some.inj words)
  have files := apart _ first_file _ second_file sources
  have leads := apart _ first_target _ second_target targets
  cases first
  cases second
  simp_all

/-- Where ids do not collide, the dependencies of occurrences are new. -/
theorem fresh_links (spared : draft.Spared) (wellFormed : draft.WellFormed) {known : List Link}
    (made : draft.relations = Link.table known)
    (distinct : Link.Distinct (known ++ Occurrence.links program.resolver program.occurrences)) :
    ∀ link ∈ Occurrence.links program.resolver program.occurrences,
      link.id ∉ Ordered.keys draft.relations := by
  intro link link_mem present
  obtain ⟨_, _, joint, _, rfl⟩ := Occurrence.mem_links.mp link_mem
  obtain ⟨⟨id, relation⟩, entry_mem, same_id⟩ := List.mem_map.mp present
  have sums := (Link.tabulates_table known).sums id relation (made ▸ entry_mem)
  obtain ⟨other, other_mem, other_id, _, other_source, _⟩ := sums.from_link
  obtain ⟨_, sources, _⟩ := distinct other (List.mem_append_left _ other_mem) _
    (List.mem_append_right known link_mem) (other_id.trans same_id)
  have listed : relation ∈ draft.toModel.relations := List.mem_map.mpr ⟨_, entry_mem, rfl⟩
  exact (spared.ends_ne wellFormed listed joint.file).1 (other_source.symm.trans sources)

/-- The dependencies of occurrences stand behind the relations that are there. -/
theorem relations_imports (apart : program.ModulesApart)
    (fresh : ∀ link ∈ Occurrence.links program.resolver program.occurrences,
      link.id ∉ Ordered.keys draft.relations) :
    (draft.applyAll (program.occurrences.flatMap (·.edits program.resolver))).toModel.relations
      = draft.toModel.relations
        ++ Ordered.values (Link.table (Occurrence.links program.resolver program.occurrences)) := by
  have table_eq := relations_applyAll draft
    (program.occurrences.flatMap (·.edits program.resolver))
  have behind := Link.foldl_addTo_of_fresh fresh []
  rw [List.append_nil] at behind
  rw [Program.links_occurrences apart, behind] at table_eq
  exact (congrArg Ordered.values table_eq).trans (Ordered.values_append ..)

/-- Whatever passes have run before, where ids do not collide the import graph adds exactly the
modules that occurrences lead from and to, a dependency for each joint that leads to another file,
and a finding for each lost occurrence. -/
theorem gains_addImportGraph (program : Program) (options : ExtractOptions) (reporting : Bool)
    (passes : List Pass) (others : .imports ∉ passes) (apart : program.ModulesApart)
    (distinct : Link.Distinct
      (((start program options reporting).runEdits (passes ++ [.imports])).filterMap Edit.link?)) :
    let before := (start program options reporting).runPasses passes
    GainsImportGraph program before before.addImportGraph := by
  intro before
  have spared : before.Spared := (start_spared program options reporting).runPasses others
  have wellFormed : before.WellFormed :=
    (start_wellFormed program options reporting).runPasses passes
  have about : before.About program := runPasses_about program options reporting passes
  let known := ((start program options reporting).runEdits passes).filterMap Edit.link?
  let edits := program.occurrences.flatMap (·.edits program.resolver)
  have edits_eq : Pass.edits before .imports = edits := by
    rw [edits_imports, about.program_eq, resolver_runPasses]
  have after_eq : before.addImportGraph = before.applyAll edits :=
    edits_eq ▸ Pass.run_eq .imports before
  have made : before.relations = Link.table known := by
    rw [show before = _ from runPasses_eq .., relations_applyAll]
    rfl
  have links_eq : ((start program options reporting).runEdits (passes ++ [.imports])).filterMap
      Edit.link? = known ++ Occurrence.links program.resolver program.occurrences := by
    rw [runEdits_append, List.filterMap_append, runEdits, runEdits, List.append_nil, edits_eq,
      Program.links_occurrences apart]
  rw [links_eq] at distinct
  have jointsApart := jointsApart apart fun first first_mem second second_mem =>
    distinct first (List.mem_append_right _ first_mem) second (List.mem_append_right _ second_mem)
  have fresh := fresh_links spared wellFormed made distinct
  exact
    { classifier_noFile := fun classifier present => by
        obtain ⟨⟨id, _⟩, entry_mem, rfl⟩ := List.mem_map.mp present
        exact wellFormed.keyed id _ entry_mem ▸ spared.classifiers id _ entry_mem
      modules :=
        ⟨program.ends.foldl addLast [], nodup_foldl_addLast List.nodup_nil,
          fun file => by rw [mem_foldl_addLast, ← Program.mem_ends]; simp,
          after_eq ▸ classifiers_imports apart spared⟩
      relation_noFile := fun relation present file => spared.ends_ne wellFormed present file
      dependencies :=
        ⟨_, _, nodup_foldl_addLast List.nodup_nil, fun joint => Occurrence.mem_joints,
          (Link.keyed_nil.foldl _).nodup_ids, Occurrence.makes_table jointsApart,
          after_eq ▸ relations_imports apart fresh⟩
      finding_noImport := spared.findings
      findings := by rw [after_eq, findings_applyAll, Program.findings_occurrences] }

/-- A file that imports a module twice and requires it as well, and that imports itself, a missing
file and a library. -/
def repeatingFile : Source :=
  { path := "main.ts"
    bytes := ("import './shelf';\nrequire('./shelf');\nimport './shelf';\nimport './main';\n"
      ++ "import './gone';\nimport 'lib';").toUTF8
    root :=
      ⟨none, "program", true, 0, 103,
        [⟨none, "import_statement", true, 0, 17, [⟨some "source", "string", true, 7, 16, []⟩]⟩,
          ⟨none, "expression_statement", true, 18, 37,
            [⟨none, "call_expression", true, 18, 36,
                [⟨some "function", "identifier", true, 18, 25, []⟩,
                  ⟨some "arguments", "arguments", true, 25, 36,
                    [⟨none, "string", true, 26, 35, []⟩]⟩]⟩]⟩,
          ⟨none, "import_statement", true, 38, 55, [⟨some "source", "string", true, 45, 54, []⟩]⟩,
          ⟨none, "import_statement", true, 56, 72, [⟨some "source", "string", true, 63, 71, []⟩]⟩,
          ⟨none, "import_statement", true, 73, 89, [⟨some "source", "string", true, 80, 88, []⟩]⟩,
          ⟨none, "import_statement", true, 90, 103,
            [⟨some "source", "string", true, 97, 102, []⟩]⟩]⟩ }

/-- The program of this file and the module, which refers to nothing. -/
def repeatingProgram : Program :=
  { tree := { top := .directory [] }
    root := .absolute ["project"]
    files :=
      [repeatingFile,
        { path := "shelf.ts", bytes := "".toUTF8, root := Program.emptyTree }] }

/-- Importing and requiring the module are two dependencies, each written where it comes first; the
file is a module without a dependency on itself, and only the missing file is told of. -/
theorem repeatingProgram_gains :
    let before := (start repeatingProgram {} true).runPasses [.declarations, .members]
    let after := before.addImportGraph
    after.toModel.classifiers.map (·.name) = ["main.ts", "shelf.ts"] ∧
      after.toModel.relations.map (fun relation =>
          (relation.tags.map (·.value), relation.source.bind (·.line)))
        = [(["import", "./shelf"], some 1), (["require", "./shelf"], some 2)] ∧
      after.findings.map (·.message) = ["Unresolved import './gone' from main.ts"] ∧
      GainsImportGraph repeatingProgram before after := by
  intro before after
  have facts : after.toModel.classifiers.map (·.name) = ["main.ts", "shelf.ts"] ∧
      after.toModel.relations.map (fun relation =>
          (relation.tags.map (·.value), relation.source.bind (·.line)))
        = [(["import", "./shelf"], some 1), (["require", "./shelf"], some 2)] ∧
      after.findings.map (·.message) = ["Unresolved import './gone' from main.ts"] ∧
      ((∀ first ∈ repeatingProgram.paths, ∀ second ∈ repeatingProgram.paths,
          moduleId first = moduleId second → first = second) ∧
        Link.Distinct (((start repeatingProgram {} true).runEdits
          ([.declarations, .members] ++ [.imports])).filterMap Edit.link?)) := by decide +kernel
  obtain ⟨names, relations, told, apart, distinct⟩ := facts
  exact ⟨names, relations, told, gains_addImportGraph repeatingProgram {} true
    [.declarations, .members] (by decide) apart distinct⟩

end Draft

end CodeGraph
