import CodeGraph.Project.Pass
import CodeGraph.Proofs.Draft.Thinning
import CodeGraph.Proofs.Files.Depth
import CodeGraph.Proofs.Modules.RelativePaths

/-!
# Files that templates are read from

The template of a component stands in its decorator or in a file whose URL is given there. The pass
over the templates reads the files at these URLs and no others, and it tells of each one that is not
there. A URL is followed from the directory of the component to wherever it leads: the file stays
inside of the project exactly if the URL is relative and does not go above the project's root.
-/

namespace CodeGraph

open Syntax PathText

/-- A component whose decorator gives the URL of its template. -/
structure TemplateFile where
  /-- The component. -/
  declaration : Declaration
  /-- Its decorator. -/
  decorator : Node
  /-- The URL in the decorator. -/
  url : String

namespace TemplateFile

/-- The path of the file from the project's root. -/
def path (file : TemplateFile) : String :=
  Angular.templatePath file.declaration.source file.url

/-- The file of a decorated class, if it is a component whose decorator gives the URL. -/
def ofDecorated? (entry : Declaration × Node) : Option TemplateFile :=
  match entry.1.shape, Angular.templatePlace? entry.1.source entry.2 with
  | .angularComponent, some (.file url) => some ⟨entry.1, entry.2, url⟩
  | _, _ => none

end TemplateFile

namespace Angular

variable {source : Source} {url : String}

/-- The directory of a file in the project has a relative path. -/
theorem not_isAbsolute_directory (source : Source) : ¬ IsAbsolute source.directory := by
  have proper : ∀ piece ∈ (Path.ofText source.path).parent.segments,
      piece ≠ "" ∧ '/' ∉ piece.toList := by
    intro piece present
    obtain ⟨written, kept⟩ := List.mem_filter.mp (List.dropLast_subset _ present)
    simp only [Bool.and_eq_true, bne_iff_ne] at kept
    exact ⟨kept.1, Text.not_mem_of_mem_split '/' written⟩
  unfold Source.directory
  generalize (Path.ofText source.path).parent.segments = pieces at proper
  intro absolute
  obtain ⟨rest, several, split⟩ := isAbsolute_iff.mp absolute
  by_cases none : pieces = []
  · rw [none] at split
    exact several (List.cons.inj split).2.symm
  · rw [segments_ofSegments_of_plain none fun piece present => (proper piece present).2] at split
    exact (proper "" (by simp [split])).1 rfl

/-- The file of a template stays inside of the project exactly if its URL is relative and does not
go above the project's root on the way from the directory of the component. -/
theorem staysInside_templatePath_iff :
    StaysInside (templatePath source url) ↔ ¬ IsAbsolute url ∧
      (depthAfter? 0 (segments source.directory ++ segments url)).isSome := by
  rw [templatePath, staysInside_normalize_iff]
  by_cases absolute : IsAbsolute url
  · have joined : join source.directory url = url := if_pos absolute
    rw [joined]
    exact iff_of_false (fun stays => stays.1 absolute) fun stays => stays.1 absolute
  · have joined := not_isAbsolute_join (not_isAbsolute_directory source) absolute
    rw [depthAfter?_segments_join _ absolute, and_iff_right joined, and_iff_right absolute]

end Angular

namespace Draft

variable {draft : Draft} {tree : FileTree}

/-- The files of the templates, one for each component whose decorator gives a URL. -/
def templateFiles (draft : Draft) : List TemplateFile :=
  draft.decorated.filterMap TemplateFile.ofDecorated?

/-- The text of the file at a path from the project's root. -/
def textAt? (draft : Draft) (path : String) : Option String :=
  (draft.program.tree.file? (draft.program.root.below path)).map (·.lenientText)

/-- The finding about a template that is not there. -/
def missingTemplate (draft : Draft) (file : TemplateFile) : Finding :=
  Finding.atLine .note ("Component templateUrl not found: " ++ file.url)
    file.declaration.file (file.declaration.source.lineOf file.decorator)
    [("owner", draft.nameOf file.declaration.classifierId), ("templateUrl", file.url)]

/-- The draft of the same program in another tree. -/
def inTree (draft : Draft) (tree : FileTree) : Draft :=
  { draft with program := { draft.program with tree } }

/-! ## Other trees -/

theorem apply_inTree (draft : Draft) (tree : FileTree) (edit : Edit) :
    (draft.inTree tree).apply edit = (draft.apply edit).inTree tree := by
  cases edit with
  | bind | declare | giveUp => rfl
  | classifier =>
      rw [apply, apply, addClassifier, addClassifier, apply_ite (inTree · tree)]
      rfl
  | relate =>
      rw [apply, apply, relate, relate, apply_ite (inTree · tree)]
      rfl
  | find =>
      rw [apply, apply, apply_ite (inTree · tree)]
      rfl
  | change id change =>
      have same : (draft.inTree tree).classifier? id = draft.classifier? id := rfl
      rw [apply, apply, changeClassifier, changeClassifier, same]
      cases draft.classifier? id <;> rfl

theorem applyAll_inTree (draft : Draft) (tree : FileTree) (edits : List Edit) :
    (draft.inTree tree).applyAll edits = (draft.applyAll edits).inTree tree := by
  induction edits generalizing draft with
  | nil => rfl
  | cons edit edits ih => rw [applyAll_cons, applyAll_cons, apply_inTree, ih]

theorem nameOf_inTree (draft : Draft) (tree : FileTree) (id : String) :
    (draft.inTree tree).nameOf id = draft.nameOf id := rfl

theorem templateEdits_inTree (index : Angular.TemplateIndex) (declaration : Declaration)
    (decorator : Node) (template : String) (origin : Tag) :
    Angular.templateEdits (draft.inTree tree) index declaration decorator template origin
      = Angular.templateEdits draft index declaration decorator template origin := rfl

/-! ## Edits of one component -/

theorem findings_templateEdits (index : Angular.TemplateIndex) (declaration : Declaration)
    (decorator : Node) (template : String) (origin : Tag) :
    (Angular.templateEdits draft index declaration decorator template origin).filterMap
      Edit.finding? = [] := by
  rw [List.filterMap_eq_nil_iff]
  intro edit present
  unfold Angular.templateEdits at present
  split at present
  · obtain ⟨use, _, present⟩ := List.mem_flatMap.mp present
    unfold Angular.useEdits at present
    split at present
    · exact absurd present List.not_mem_nil
    · obtain rfl := List.mem_singleton.mp present
      rfl
  · exact absurd present List.not_mem_nil

/-- A component is told of exactly if its template is to be read from a file that is not there. -/
theorem findings_componentEdits (index : Angular.TemplateIndex) {entry : Declaration × Node}
    (component : entry.1.shape = .angularComponent) :
    (Angular.componentEdits draft index entry.1 entry.2).filterMap Edit.finding?
      = ((TemplateFile.ofDecorated? entry).toList.filter fun file =>
          (draft.textAt? file.path).isNone).map draft.missingTemplate := by
  unfold Angular.componentEdits TemplateFile.ofDecorated?
  rw [component]
  cases Angular.templatePlace? entry.1.source entry.2 with
  | none => rfl
  | some place =>
      cases place with
      | inline template => exact findings_templateEdits ..
      | file url =>
          dsimp only
          rw [Option.toList_some, List.filter_singleton, textAt?, Option.isNone_map,
            TemplateFile.path]
          split
          next found => rw [found]; exact findings_templateEdits ..
          next absent => rw [absent]; rfl

theorem componentEdits_inTree (index : Angular.TemplateIndex) {entry : Declaration × Node}
    (component : entry.1.shape = .angularComponent)
    (same : ∀ file ∈ TemplateFile.ofDecorated? entry,
      (draft.inTree tree).textAt? file.path = draft.textAt? file.path) :
    Angular.componentEdits (draft.inTree tree) index entry.1 entry.2
      = Angular.componentEdits draft index entry.1 entry.2 := by
  unfold TemplateFile.ofDecorated? at same
  rw [component] at same
  unfold Angular.componentEdits
  cases placed : Angular.templatePlace? entry.1.source entry.2 with
  | none => rfl
  | some place =>
      cases place with
      | inline template => rfl
      | file url =>
          rw [placed] at same
          have same := same ⟨entry.1, entry.2, url⟩ rfl
          dsimp only [textAt?, TemplateFile.path] at same ⊢
          split
          next content found =>
            rw [found] at same
            obtain ⟨content', found', text_eq⟩ := Option.map_eq_some_iff.mp same.symm
            dsimp only at text_eq
            rw [found', templateEdits_inTree, ← text_eq]
          next absent =>
            rw [absent] at same
            rw [Option.map_eq_none_iff.mp same.symm, nameOf_inTree]

/-! ## The whole pass -/

theorem findings_flatMap_componentEdits (index : Angular.TemplateIndex)
    {entries : List (Declaration × Node)}
    (components : ∀ entry ∈ entries, entry.1.shape = .angularComponent) :
    (entries.flatMap fun entry =>
        Angular.componentEdits draft index entry.1 entry.2).filterMap Edit.finding?
      = ((entries.filterMap TemplateFile.ofDecorated?).filter fun file =>
          (draft.textAt? file.path).isNone).map draft.missingTemplate := by
  induction entries with
  | nil => rfl
  | cons entry entries ih =>
      obtain ⟨component, components⟩ := List.forall_mem_cons.mp components
      rw [List.flatMap_cons, List.filterMap_append, findings_componentEdits _ component,
        ih components, List.filterMap_cons]
      cases TemplateFile.ofDecorated? entry with
      | none => rfl
      | some file =>
          rw [Option.toList_some, ← List.map_append, ← List.filter_append]
          rfl

/-- The components among the decorated classes. -/
def components (draft : Draft) : List (Declaration × Node) :=
  draft.decorated.filter fun entry => entry.1.shape == .angularComponent

theorem shape_of_mem_components {entry : Declaration × Node} (present : entry ∈ draft.components) :
    entry.1.shape = .angularComponent := by
  simpa using (List.mem_filter.mp present).2

theorem templateFiles_eq (draft : Draft) :
    draft.templateFiles = draft.components.filterMap TemplateFile.ofDecorated? := by
  rw [components, List.filterMap_filter, templateFiles]
  congr 1
  funext entry
  split
  next => rfl
  next other =>
    unfold TemplateFile.ofDecorated?
    split
    next component _ => exact absurd (by simpa using component) other
    next => rfl

theorem addAngularTemplates_eq (draft : Draft) :
    draft.addAngularTemplates = draft.applyAll (draft.components.flatMap fun entry =>
      Angular.componentEdits draft draft.templateIndex entry.1 entry.2) := rfl

theorem addAngularTemplates_inTree
    (same : ∀ file ∈ draft.templateFiles,
      (draft.inTree tree).textAt? file.path = draft.textAt? file.path) :
    (draft.inTree tree).addAngularTemplates = draft.addAngularTemplates.inTree tree := by
  have edits_eq : (draft.inTree tree).components.flatMap (fun entry =>
        Angular.componentEdits (draft.inTree tree) (draft.inTree tree).templateIndex entry.1
          entry.2)
      = draft.components.flatMap fun entry =>
        Angular.componentEdits draft draft.templateIndex entry.1 entry.2 := by
    refine List.flatMap_congr fun entry present => ?_
    refine componentEdits_inTree _ (shape_of_mem_components present) fun file file_eq => ?_
    refine same file ?_
    rw [templateFiles_eq]
    exact List.mem_filterMap.mpr ⟨entry, present, file_eq⟩
  rw [addAngularTemplates_eq, addAngularTemplates_eq, edits_eq, applyAll_inTree]

theorem findings_addAngularTemplates (draft : Draft) :
    draft.addAngularTemplates.findings = draft.findings ++
      if draft.reporting then
        (draft.templateFiles.filter fun file => (draft.textAt? file.path).isNone).map
          draft.missingTemplate
      else [] := by
  rw [addAngularTemplates_eq, findings_applyAll, templateFiles_eq,
    findings_flatMap_componentEdits _ fun _ => shape_of_mem_components]

/-- The pass over the templates reads the files of the templates and no others: in a tree in which
these files are the same it does the same, and it tells of those that are not there. Each of them
stays inside of the project exactly if its URL is relative and does not go above the project's root
on the way from the directory of the component. -/
theorem addAngularTemplates_reads (draft : Draft) :
    (∀ tree : FileTree, (∀ file ∈ draft.templateFiles,
        (draft.inTree tree).textAt? file.path = draft.textAt? file.path) →
      (draft.inTree tree).addAngularTemplates = draft.addAngularTemplates.inTree tree) ∧
    (draft.addAngularTemplates.findings = draft.findings ++
      if draft.reporting then
        (draft.templateFiles.filter fun file => (draft.textAt? file.path).isNone).map
          draft.missingTemplate
      else []) ∧
    ∀ file ∈ draft.templateFiles, StaysInside file.path ↔ ¬ IsAbsolute file.url ∧
      (depthAfter? 0 (segments file.declaration.source.directory ++ segments file.url)).isSome :=
  ⟨fun _ => addAngularTemplates_inTree, findings_addAngularTemplates draft,
    fun _ _ => Angular.staysInside_templatePath_iff⟩

/-- A file at the project's root with a component whose template is in the directory above. -/
def strayFile : Source :=
  { path := "a.ts"
    bytes := "@Component(\x7btemplateUrl: '../t.html'\x7d) class A \x7b\x7d".toUTF8
    root :=
      ⟨none, "program", true, 0, 49,
        [⟨none, "class_declaration", true, 0, 49,
            [⟨none, "decorator", true, 0, 38,
                [⟨none, "call_expression", true, 1, 38,
                    [⟨some "function", "identifier", true, 1, 10, []⟩,
                      ⟨some "arguments", "arguments", true, 10, 38,
                        [⟨none, "object", true, 11, 37,
                            [⟨none, "pair", true, 12, 36,
                                [⟨some "key", "property_identifier", true, 12, 23, []⟩,
                                  ⟨some "value", "string", true, 25, 36, []⟩]⟩]⟩]⟩]⟩]⟩,
              ⟨some "name", "type_identifier", true, 45, 46, []⟩,
              ⟨some "body", "class_body", true, 47, 49, []⟩]⟩]⟩ }

/-- A tree in which the template is there, beside the project's directory with these entries. -/
def strayTree (entries : List (String × Entry)) : FileTree where
  top := .directory [("project", .directory entries), ("t.html", .file (.ofText "<b>"))]

/-- The program of this file alone. -/
def strayProgram : Program :=
  { tree := strayTree [("a.ts", .file (.ofText ""))]
    root := .absolute ["project"]
    files := [strayFile] }

/-- The template is read from outside of the project: what is in the project's directory does not
matter, and nothing is told of. -/
theorem strayProgram_reads :
    let draft := (start strayProgram { angular := true } true).runPasses [.declarations]
    draft.templateFiles.map (fun file => (file.url, file.path)) = [("../t.html", "../t.html")] ∧
      ¬ StaysInside "../t.html" ∧ draft.addAngularTemplates.findings.map (·.message) = [] ∧
      ((draft.inTree { top := .directory [] }).addAngularTemplates.findings.map (·.message)
        = ["Component templateUrl not found: ../t.html"]) ∧
      (draft.inTree (strayTree [])).addAngularTemplates
        = draft.addAngularTemplates.inTree (strayTree []) := by
  intro draft
  have facts : draft.templateFiles.map (fun file => (file.url, file.path))
        = [("../t.html", "../t.html")] ∧
      ¬ StaysInside "../t.html" ∧ draft.addAngularTemplates.findings.map (·.message) = [] ∧
      ((draft.inTree { top := .directory [] }).addAngularTemplates.findings.map (·.message)
        = ["Component templateUrl not found: ../t.html"]) := by
    decide +kernel
  obtain ⟨files, outside, found, missed⟩ := facts
  refine ⟨files, outside, found, missed, (addAngularTemplates_reads draft).1 (strayTree []) ?_⟩
  intro file present
  have placed : (file.url, file.path) ∈ [("../t.html", "../t.html")] :=
    files ▸ List.mem_map_of_mem present
  obtain ⟨-, path_eq⟩ := Prod.mk.inj (List.mem_singleton.mp placed)
  have same : (draft.inTree (strayTree [])).textAt? "../t.html" = draft.textAt? "../t.html" := by
    decide +kernel
  rw [path_eq, same]

end Draft

end CodeGraph
