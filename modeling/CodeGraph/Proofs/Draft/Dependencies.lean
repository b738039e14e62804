import CodeGraph.Project.Extraction
import CodeGraph.Proofs.Draft.Comparison
import CodeGraph.Proofs.Draft.PassForms
import CodeGraph.Proofs.Model.Packages
import CodeGraph.Proofs.Resolution.Moves

/-!
# Runs with and without dependencies

The option for dependencies adds dependencies, modules for files and findings about what it looks
up, and changes nothing else. It does so in two ways: passes that run anyway make more edits, and a
further pass adds the import graph, unless the mode asks for that one in any case. All files of a
program have their packages from the start, so the modules of files need no further ones.
-/

namespace CodeGraph

namespace ExtractOptions

/-- The options with or without dependencies. The import graph is asked for with them, and always
in the mode for plain JavaScript. -/
def withDeps (options : ExtractOptions) (mode : Mode) (deps : Bool) : ExtractOptions :=
  { options with includeDeps := deps, importGraph := mode == .js || deps }

end ExtractOptions

/-- This is what asking for dependencies in a request comes to. -/
theorem Project.resolveOptions_withDeps (request : ExtractRequest) (mode : Mode)
    (program : Program) (manifest : Frameworks.Manifest) (deps : Bool) :
    Project.resolveOptions { request with includeDeps := deps } mode program manifest
      = (Project.resolveOptions request mode program manifest).withDeps mode deps := by
  cases mode <;> rfl

namespace Draft

/-! ## The import graph -/

/-- The edit adds the module of a file in one of the packages, or a dependency, or the finding about
an import that leads nowhere. -/
def JoinsFiles (packages : PackageMap) : Edit → Prop
  | .classifier file added =>
      added = fileModule file ∧ PackageMap.directoryOf file ∈ Ordered.keys packages
  | .relate link => link.kind = .dependency
  | .find finding => finding.kind = .unresolvedImport
  | _ => False

theorem joinsFiles_of_joined {packages : PackageMap} {resolver : ModuleResolver}
    {source : Syntax.Source} {edit : Edit}
    (source_known : PackageMap.directoryOf source.path ∈ Ordered.keys packages)
    (files_known : ∀ file ∈ resolver.files, PackageMap.directoryOf file ∈ Ordered.keys packages)
    (joined : Modules.Joined resolver source edit) : JoinsFiles packages edit := by
  cases joined with
  | origin => exact ⟨rfl, source_known⟩
  | target found => exact ⟨rfl, files_known _ (ModuleResolver.mem_files_of_resolve? found)⟩
  | link kind_eq | find kind_eq => exact kind_eq

/-- Edits lose no package. -/
theorem keys_packages_subset (draft : Draft) (edits : List Edit) :
    Ordered.keys draft.packages ⊆ Ordered.keys (draft.applyAll edits).packages := by
  rw [packages_applyAll]
  have isPrefix := List.foldlRecOn (motive := fun after => draft.packages <+: after)
    (edits.filterMap Edit.file?) PackageMap.ensureFile List.prefix_rfl
    fun packages kept file _ => kept.trans (PackageMap.isPrefix_ensureFile packages file)
  exact PackageMap.keys_subset isPrefix.subset

/-- The import graph of a program joins its files, whatever passes have run before. -/
theorem imports_joinFiles (program : Program) (options : ExtractOptions) (reporting : Bool)
    (passes : List Pass) :
    let draft := (start program options reporting).runPasses passes
    ∀ edit ∈ Pass.imports.edits draft, JoinsFiles draft.packages edit := by
  intro draft edit present
  have draft_eq : draft = (start program options reporting).applyAll _ := runPasses_eq _ passes
  have task := sameTask_applyAll (start program options reporting)
    ((start program options reporting).runEdits passes)
  rw [← draft_eq] at task
  have known : ∀ file ∈ program.paths,
      PackageMap.directoryOf file ∈ Ordered.keys draft.packages := by
    intro file present
    rw [draft_eq]
    exact keys_packages_subset _ _ ((PackageMap.ofFiles_spec program.paths).2 file present)
  cases (Pass.imports.edits_make draft (List.Subset.refl _)).of_mem edit present with
  | routed router => simp at router
  | joined listed joined =>
      refine joinsFiles_of_joined (known _ ?_) (fun file present => ?_) joined
      · rw [task.program] at listed
        exact List.mem_map_of_mem (List.mem_filter.mp listed).1
      · rw [task.resolver] at present
        exact known file present

/-- Nothing but modules of files was added to the packages and classifiers. -/
structure FilesAdded (before after : Draft) : Prop where
  /-- The packages are the same. -/
  packages : after.packages = before.packages
  /-- New classifiers stand behind the others, and they are modules of files. -/
  classifiers : ∃ modules, after.classifiers = before.classifiers ++ modules ∧
    ∀ entry ∈ modules, ∃ file, entry.2 = fileModule file

theorem FilesAdded.refl (draft : Draft) : draft.FilesAdded draft :=
  ⟨rfl, [], (List.append_nil _).symm, by simp⟩

theorem FilesAdded.trans {first second third : Draft} (left : first.FilesAdded second)
    (right : second.FilesAdded third) : first.FilesAdded third := by
  obtain ⟨packages, modules, classifiers, are_modules⟩ := left
  obtain ⟨packages', modules', classifiers', are_modules'⟩ := right
  refine ⟨packages'.trans packages, modules ++ modules', ?_, ?_⟩
  · rw [classifiers', classifiers, List.append_assoc]
  · exact List.forall_mem_append.mpr ⟨are_modules, are_modules'⟩

theorem Alike.filesAdded {small large : Draft} (alike : Alike small large) :
    small.FilesAdded large :=
  ⟨alike.packages, [], by rw [alike.classifiers, List.append_nil], by simp⟩

/-- An edit that joins files adds at most the module of a file. -/
theorem filesAdded_apply {draft : Draft} {edit : Edit} (joins : JoinsFiles draft.packages edit) :
    draft.FilesAdded (draft.apply edit) := by
  cases edit with
  | bind | change | declare | giveUp => exact joins.elim
  | relate | find =>
      simp only [apply, relate]
      split <;> exact ⟨rfl, [], (List.append_nil _).symm, by simp⟩
  | classifier file added =>
      obtain ⟨rfl, known⟩ := joins
      have same : draft.packages.ensureFile file = draft.packages :=
        if_pos (Ordered.isSome_get?_iff.mpr known)
      simp only [apply, addClassifier, same]
      split
      · exact ⟨rfl, [], (List.append_nil _).symm, by simp⟩
      · exact ⟨rfl, [_], rfl, by simp⟩

theorem filesAdded_applyAll {draft : Draft} {edits : List Edit}
    (joins : ∀ edit ∈ edits, JoinsFiles draft.packages edit) :
    draft.FilesAdded (draft.applyAll edits) := by
  induction edits generalizing draft with
  | nil => exact .refl draft
  | cons edit edits ih =>
      obtain ⟨here, further⟩ := List.forall_mem_cons.mp joins
      have added := filesAdded_apply here
      refine added.trans (ih ?_)
      rwa [added.packages]

/-! ## Two runs -/

/-- The edit is made where dependencies or the import graph are asked for. -/
def IsDependencyEdit : Edit → Prop
  | .relate link => link.kind = .dependency
  | .find finding => finding.kind = .unresolvedImport ∨ finding.kind = .unresolvedType
  | .classifier file added => added = fileModule file
  | .giveUp => True
  | _ => False

theorem isDependencyEdit_of_isForDeps {edit : Edit} (deps : edit.IsForDeps) :
    IsDependencyEdit edit := by
  cases edit with
  | relate | giveUp => exact deps
  | find => exact .inr deps
  | bind | classifier | change | declare => exact deps.elim

theorem isDependencyEdit_of_joinsFiles {packages : PackageMap} {edit : Edit}
    (joins : JoinsFiles packages edit) : IsDependencyEdit edit := by
  cases edit with
  | relate => exact joins
  | find => exact .inl joins
  | classifier => exact joins.1
  | bind | change | declare | giveUp => exact joins.elim

/-- The second draft is the first one with dependencies and what belongs to them. -/
structure DependenciesAdded (bare full : Draft) : Prop where
  /-- The packages are the same. -/
  packages : full.packages = bare.packages
  /-- The classifiers are the same, with modules for source files behind them. -/
  classifiers : ∃ modules, full.classifiers = bare.classifiers ++ modules ∧
    ∀ entry ∈ modules, entry.2.kind = .module ∧ entry.2.stereotypes = [{ name := "SourceFile" }]
  /-- Relations that are no dependencies are the same, with all that they have. -/
  others : full.edges.filter (·.kind != .dependency) = bare.edges.filter (·.kind != .dependency)
  /-- Each relation is in the second draft, perhaps with further tags. -/
  completed : ∀ relation ∈ bare.edges, ∃ other ∈ full.edges, relation.CompletedBy other
  /-- The findings are the same apart from further ones about imports and types. -/
  findings : Thinning (fun _ => True)
    (fun finding => finding.kind = .unresolvedImport ∨ finding.kind = .unresolvedType)
    bare.findings full.findings
  /-- A search that is given up in the first draft is given up in the second one. -/
  givenUp : bare.givenUp = true → full.givenUp = true

/-- The passes in front of the import graph. -/
def earlyPasses (options : ExtractOptions) : List Pass :=
  [.declarations, .members]
    ++ (if options.react then [.react, .reactRoutes] else [])
    ++ (if options.angular then [.angular, .angularRoutes, .angularTemplates] else [])

theorem scheduled_withDeps (options : ExtractOptions) (mode : Mode) (deps : Bool) :
    Pass.scheduled (options.withDeps mode deps)
      = earlyPasses options ++ if mode == .js || deps then [.imports] else [] := rfl

section

variable (program : Program) (options : ExtractOptions) (mode : Mode) (reporting : Bool)

/-- Two drafts whose options differ in asking for dependencies. -/
theorem within_withDeps :
    Within (start program (options.withDeps mode false) reporting)
      (start program (options.withDeps mode true) reporting) :=
  ⟨⟨rfl, rfl, rfl, rfl, rfl⟩, rfl, rfl, fun asked => asked, fun _ => rfl⟩

/-- Passes that run with and without dependencies make more edits with them. -/
theorem runEdits_withDeps (passes : List Pass) :
    Thinning (fun _ => True) IsDependencyEdit
      ((start program (options.withDeps mode false) reporting).runEdits passes)
      ((start program (options.withDeps mode true) reporting).runEdits passes) := by
  have within := within_withDeps program options mode reporting
  refine (within.runEdits_thins passes).mono (fun _ _ => trivial) fun edit goes => ?_
  rcases goes with ⟨off, on, _⟩ | ⟨_, _, deps⟩
  · exact absurd (off.symm.trans on) Bool.false_ne_true
  · exact isDependencyEdit_of_isForDeps deps

/-- The edits of the whole run without dependencies are those with them, thinned, whether or not
the import graph is asked for in any case. -/
theorem completeEdits_withDeps :
    Thinning (fun _ => True) IsDependencyEdit
      (start program (options.withDeps mode false) reporting).completeEdits
      (start program (options.withDeps mode true) reporting).completeEdits := by
  change Thinning _ _
    ((start program (options.withDeps mode false) reporting).runEdits
      (Pass.scheduled (options.withDeps mode false)))
    ((start program (options.withDeps mode true) reporting).runEdits
      (Pass.scheduled (options.withDeps mode true)))
  rw [scheduled_withDeps, scheduled_withDeps]
  cases mode == .js with
  | true => exact runEdits_withDeps program options mode reporting _
  | false =>
      -- The import graph is asked for in the second run alone, so all of its edits go.
      have early := runEdits_withDeps program options mode reporting (earlyPasses options)
      have joins := imports_joinFiles program (options.withDeps mode true) reporting
        (earlyPasses options)
      have imports : Thinning (fun _ => True) IsDependencyEdit [] _ :=
        .none fun edit present => isDependencyEdit_of_joinsFiles (joins edit present)
      have whole := early.append imports
      simpa [runEdits_append, runEdits] using whole

/-- The whole run with dependencies adds nothing but modules of files to the elements. -/
theorem filesAdded_complete :
    (start program (options.withDeps mode false) reporting).complete.FilesAdded
      (start program (options.withDeps mode true) reporting).complete := by
  change ((start program (options.withDeps mode false) reporting).runPasses
      (Pass.scheduled (options.withDeps mode false))).FilesAdded
    ((start program (options.withDeps mode true) reporting).runPasses
      (Pass.scheduled (options.withDeps mode true)))
  have within := within_withDeps program options mode reporting
  rw [scheduled_withDeps, scheduled_withDeps]
  cases mode == .js with
  | true => exact (within.runPasses _).toAlike.filesAdded
  | false =>
      have joins := imports_joinFiles program (options.withDeps mode true) reporting
        (earlyPasses options)
      have early := (within.runPasses (earlyPasses options)).toAlike.filesAdded
      have whole := early.trans (filesAdded_applyAll joins)
      rw [← Pass.run_eq] at whole
      simpa [runPasses, List.foldl_append] using whole

/-- Asking for dependencies adds dependencies with what belongs to them and changes nothing else,
as long as ids do not collide. -/
theorem complete_withDeps
    (free : Link.CollisionFree
      (start program (options.withDeps mode true) reporting).completeLinks) :
    DependenciesAdded (start program (options.withDeps mode false) reporting).complete
      (start program (options.withDeps mode true) reporting).complete := by
  have edits := completeEdits_withDeps program options mode reporting
  have links : Thinning _ _ (start program (options.withDeps mode false) reporting).completeLinks
    (start program (options.withDeps mode true) reporting).completeLinks := edits.links
  obtain ⟨packages, modules, classifiers, are_modules⟩ :=
    filesAdded_complete program options mode reporting
  refine ⟨packages, ⟨modules, classifiers, fun entry present => ?_⟩, ?_, ?_, ?_, ?_⟩
  · obtain ⟨file, module_eq⟩ := are_modules entry present
    rw [module_eq]
    exact ⟨rfl, rfl⟩
  · rw [edges_complete, edges_complete]
    exact filter_table_eq_of_thinning links free (· != .dependency) fun link goes =>
      bne_eq_false_iff_eq.mpr goes
  · rw [edges_complete, edges_complete]
    exact fun relation present => exists_completedBy links free present
  · rw [findings_complete, findings_complete]
    split
    · exact edits.findings
    · exact .nil
  · rw [givenUp_complete, givenUp_complete, List.any_eq_true, List.any_eq_true]
    exact fun ⟨edit, present, gives⟩ => ⟨edit, edits.sublist.subset present, gives⟩

end

/-- A file that imports a class, which it uses as a type, and a module that is not there. -/
def shelfFile : Syntax.Source :=
  { path := "shelf.ts"
    bytes := ("import \x7b Items \x7d from './items'; import './gone'; "
      ++ "class Shelf \x7b items: Items \x7d").toUTF8
    root :=
      ⟨none, "program", true, 0, 78,
        [⟨none, "import_statement", true, 0, 32,
            [⟨none, "import_clause", true, 7, 16,
                [⟨none, "named_imports", true, 7, 16,
                    [⟨none, "import_specifier", true, 9, 14,
                        [⟨some "name", "identifier", true, 9, 14, []⟩]⟩]⟩]⟩,
              ⟨some "source", "string", true, 22, 31, []⟩]⟩,
          ⟨none, "import_statement", true, 33, 49, [⟨some "source", "string", true, 40, 48, []⟩]⟩,
          ⟨none, "class_declaration", true, 50, 78,
            [⟨some "name", "type_identifier", true, 56, 61, []⟩,
              ⟨some "body", "class_body", true, 62, 78,
                [⟨none, "public_field_definition", true, 64, 76,
                    [⟨some "name", "property_identifier", true, 64, 69, []⟩,
                      ⟨some "type", "type_annotation", true, 69, 76,
                        [⟨none, "type_identifier", true, 71, 76, []⟩]⟩]⟩]⟩]⟩]⟩ }

/-- The file that declares this class. -/
def itemsFile : Syntax.Source :=
  { path := "items.ts"
    bytes := "export class Items \x7b\x7d".toUTF8
    root :=
      ⟨none, "program", true, 0, 21,
        [⟨none, "export_statement", true, 0, 21,
            [⟨some "declaration", "class_declaration", true, 7, 21,
                [⟨some "name", "type_identifier", true, 13, 18, []⟩,
                  ⟨some "body", "class_body", true, 19, 21, []⟩]⟩]⟩]⟩ }

/-- The program of both files. -/
def shelfProgram : Program :=
  { tree := { top := .directory [] }
    root := .absolute ["project"]
    files := [itemsFile, shelfFile] }

/-- The classes are associated in any case. With dependencies both files become modules, of which
one depends on the other, and the missing module is found. -/
theorem shelfProgram_withDeps :
    let bare := (start shelfProgram (ExtractOptions.withDeps {} .auto false) true).complete
    let full := (start shelfProgram (ExtractOptions.withDeps {} .auto true) true).complete
    (bare.classifiers.map (·.2.name), bare.edges.map (·.kind), bare.findings.map (·.kind))
        = (["Items", "Shelf"], [.association], []) ∧
      (full.classifiers.map (·.2.name), full.edges.map (·.kind), full.findings.map (·.kind))
        = (["Items", "Shelf", "shelf.ts", "items.ts"], [.association, .dependency, .dependency],
          [.unresolvedImport]) ∧
      DependenciesAdded bare full := by
  -- All that is evaluated is one statement, so that no digest is worked out again.
  refine and_assoc.mp (.imp_right (complete_withDeps shelfProgram {} .auto true) ?_)
  decide +kernel

end Draft

end CodeGraph
