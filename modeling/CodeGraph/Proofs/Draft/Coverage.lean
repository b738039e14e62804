import CodeGraph.Proofs.Draft.FileModules
import CodeGraph.Proofs.Modules.Specifiers

/-!
# The import graph covers the meaning of names

A search for what a name means leaves a file only through a module that a name of the file is bound
to. Where specifiers are plain, the file refers to this module, so the graph of modules has an edge
to the file that is searched next. From edge to edge, the module of the file in which a name is used
reaches the module of the file in which it is declared.
-/

namespace CodeGraph

open Edit

/-! ## Files that are asked -/

namespace Question

/-- The file that is asked. -/
def file : Question → String
  | .name file _ _ => file
  | .exported query => query.file

end Question

namespace Bindings

theorem From.mono {known more : String → Prop} {bindings : Bindings}
    (fromKnown : bindings.From known) (further : ∀ specifier, known specifier → more specifier) :
    bindings.From more where
  imported name binding present := further _ (fromKnown.imported name binding present)
  reexported name reexport present := further _ (fromKnown.reexported name reexport present)
  starred specifier present := further _ (fromKnown.starred specifier present)

end Bindings

namespace SymbolTable

/-- A step stays in its file or follows a specifier that the file binds names to. -/
theorem Step.stays_or_follows {table : SymbolTable} {first second : Question}
    (step : table.Step first second) {known : String → Prop}
    (fromKnown : (table.bindingsOf first.file).From known) :
    second.file = first.file ∨
      ∃ specifier, known specifier ∧
        table.resolver.resolve? specifier first.file = some second.file := by
  cases step with
  | imported _ bound _ located | whole _ bound _ located | member _ bound _ located =>
      exact .inr ⟨_, fromKnown.imported _ _ (Ordered.mem_of_get? bound), located⟩
  | localName => exact .inl rfl
  | reexported _ passed located | memberOfReexported _ passed located =>
      exact .inr ⟨_, fromKnown.reexported _ _ (Ordered.mem_of_get? passed), located⟩
  | star _ _ _ listed located => exact .inr ⟨_, fromKnown.starred _ listed, located⟩

/-- Where every specifier that a file with code binds names to leads along an edge, a search that
begins in such a file follows edges. -/
theorem files_of_path {table : SymbolTable} {edge : String → String → Prop}
    (covered : ∀ file, Syntax.isDeclarationPath file = false →
      (table.bindingsOf file).From fun specifier => ∀ target,
        table.resolver.resolve? specifier file = some target → target = file ∨ edge file target)
    {first last : Question} (path : Relation.ReflTransGen table.Step first last)
    (code : Syntax.isDeclarationPath first.file = false) :
    Syntax.isDeclarationPath last.file = false ∧
      Relation.ReflTransGen edge first.file last.file := by
  -- Only files with code are resolved to, so every file on the way has edges for its specifiers.
  induction path with
  | refl => exact ⟨code, .refl⟩
  | @tail middle last path step ih =>
      obtain ⟨middle_code, chain⟩ := ih
      rcases step.stays_or_follows (covered middle.file middle_code) with
        same | ⟨specifier, leads, located⟩
      · exact same ▸ ⟨middle_code, chain⟩
      · refine ⟨ModuleResolver.isDeclarationPath_of_resolve? located, ?_⟩
        rcases leads last.file located with same | here
        · exact same ▸ chain
        · exact chain.tail here

end SymbolTable

/-! ## The graph of a program -/

namespace Draft

variable (program : Program) (options : ExtractOptions) (reporting : Bool)

/-- The draft with what a program declares and with the graph of its modules. -/
def joined : Draft :=
  (start program options reporting).runPasses [.declarations, .imports]

/-- The edits that lead to it. -/
def joinedEdits : List Edit :=
  (start program options reporting).runEdits [.declarations, .imports]

theorem joined_eq :
    joined program options reporting
      = (start program options reporting).applyAll (joinedEdits program options reporting) :=
  runPasses_eq ..

theorem joinedEdits_made : All (Made program) (joinedEdits program options reporting) :=
  (start_about program options reporting).runEdits_made _

theorem joined_resolver :
    (joined program options reporting).symbols.resolver
      = (start program options reporting).symbols.resolver :=
  joined_eq program options reporting ▸ (sameTask_applyAll ..).resolver

variable {program} {options} {reporting}

/-- A reference that leads to a file makes its edits. -/
theorem linkEdits_subset {source : Syntax.Source} (listed : source ∈ program.sources)
    {reference : Modules.ModuleReference} (present : reference ∈ Modules.references source)
    {target : String} (located : (joined program options reporting).symbols.resolver.resolve?
      reference.specifier source.path = some target) :
    reference.linkEdits source target ⊆ joinedEdits program options reporting := by
  have task := sameTask_applyAll (start program options reporting)
    (Declaring.edits program options)
  let declared := (start program options reporting).applyAll (Declaring.edits program options)
  have edits_eq : reference.edits declared.symbols.resolver source
      = reference.linkEdits source target := by
    rw [joined_resolver] at located
    rw [Modules.ModuleReference.edits, task.resolver, located]
  intro edit one
  have here : edit ∈ Pass.edits declared .imports := by
    refine List.mem_flatMap.mpr ⟨source, ?_, List.mem_flatMap.mpr ⟨reference, present, ?_⟩⟩
    · exact task.program ▸ listed
    · exact edits_eq ▸ one
  exact List.mem_append_right _ (List.mem_append_left _ here)

/-- Every reference of a file that leads to another one is an edge. -/
theorem joined_edge (apart : program.ModulesApart)
    (free : Link.CollisionFree ((joinedEdits program options reporting).filterMap Edit.link?))
    {source : Syntax.Source} (listed : source ∈ program.sources)
    {reference : Modules.ModuleReference} (present : reference ∈ Modules.references source)
    {target : String} (other : target ≠ source.path)
    (located : (joined program options reporting).symbols.resolver.resolve?
      reference.specifier source.path = some target) :
    (joined program options reporting).ModuleEdge source.path target := by
  have known := (runPasses_about program options reporting _).files_eq ▸
    ModuleResolver.mem_files_of_resolve? located
  have linked := linkEdits_subset listed present located
  rw [joined_eq]
  exact moduleEdge_of_mem rfl (start_regular ..) (start_modulesKept _ _ _) apart
    (joinedEdits_made ..) free (Program.mem_paths_of_mem_sources listed) known other linked

/-- Every specifier that a file with code binds names to leads along an edge. -/
theorem joined_covered (plain : ∀ source ∈ program.sources, source.plainSpecifiers = true)
    (apart : program.ModulesApart)
    (free : Link.CollisionFree ((joinedEdits program options reporting).filterMap Edit.link?))
    (file : String) (code : Syntax.isDeclarationPath file = false) :
    ((joined program options reporting).symbols.bindingsOf file).From fun specifier => ∀ target,
      (joined program options reporting).symbols.resolver.resolve? specifier file = some target →
        target = file ∨ (joined program options reporting).ModuleEdge file target := by
  rw [SymbolTable.bindingsOf]
  cases found : (joined program options reporting).symbols.bindings.get? file with
  | none => exact Bindings.from_empty
  | some bindings =>
      obtain ⟨source, source_mem, rfl, rfl⟩ :=
        (runPasses_about program options reporting _).bound file bindings
          (Ordered.mem_of_get? found)
      have listed : source ∈ program.sources :=
        List.mem_filter.mpr ⟨source_mem, by simpa [Syntax.Source.isDeclaration] using code⟩
      refine (Syntax.Source.bindings_from_references (plain source listed)).mono ?_
      rintro specifier ⟨reference, present, rfl⟩ target located
      by_cases same : target = source.path
      · exact .inl same
      · exact .inr (joined_edge apart free listed present same located)

/-- Where specifiers are plain and ids do not collide, a name that is used in a file with code and
means a symbol is declared in a file whose module is reached from the module of the first file by
dependencies: the file in which the search ends, and so the only file that declares the symbol if
there is but one. -/
theorem joined_covers_resolution (program : Program) (options : ExtractOptions)
    (reporting : Bool) (plain : ∀ source ∈ program.sources, source.plainSpecifiers = true)
    (apart : program.ModulesApart)
    (free : Link.CollisionFree ((joinedEdits program options reporting).filterMap Edit.link?))
    (file name : String) (scope : List String) (symbol : Symbol)
    (code : Syntax.isDeclarationPath file = false)
    (found : (joined program options reporting).symbols.resolve file name scope = .found symbol) :
    let draft := joined program options reporting
    (∃ home parts around,
        Relation.ReflTransGen draft.symbols.Step (.ofName file name scope)
          (.name home parts around) ∧
        draft.symbols.Answers (.name home parts around) symbol ∧
        (home ≠ file → Relation.TransGen draft.ModuleEdge file home)) ∧
      ∀ home declaredName, draft.symbols.lookup? home declaredName = some symbol →
        (∀ other otherName, draft.symbols.lookup? other otherName = some symbol → other = home) →
          home ≠ file → Relation.TransGen draft.ModuleEdge file home := by
  intro draft
  obtain ⟨last, path, answer⟩ := SymbolTable.reaches_of_found found
  have covered := joined_covered plain apart free
  have chain := (SymbolTable.files_of_path covered path code).2
  have reached : last.file ≠ file → Relation.TransGen draft.ModuleEdge file last.file := by
    intro other
    rcases Relation.reflTransGen_iff_eq_or_transGen.mp chain with same | edges
    · exact absurd same other
    · exact edges
  cases answer with
  | @innermost last first rest around outer _ enclosing declared inside =>
      have answers := SymbolTable.Answers.innermost enclosing declared inside
      refine ⟨⟨last, first :: rest, around, path, answers, reached⟩, ?_⟩
      intro home declaredName _ only other
      obtain rfl := only last _ declared
      exact reached other

/-- A file that sets a variable to a required module. -/
def requiringFile : Syntax.Source :=
  { path := "main.ts"
    bytes := "const shelf = require('./shelf');".toUTF8
    root :=
      ⟨none, "program", true, 0, 33,
        [⟨none, "lexical_declaration", true, 0, 33,
            [⟨none, "variable_declarator", true, 6, 32,
                [⟨some "name", "identifier", true, 6, 11, []⟩,
                  ⟨some "value", "call_expression", true, 14, 32,
                    [⟨some "function", "identifier", true, 14, 21, []⟩,
                      ⟨some "arguments", "arguments", true, 21, 32,
                        [⟨none, "string", true, 22, 31, []⟩]⟩]⟩]⟩]⟩]⟩ }

/-- This module, which passes a class on. -/
def passingFile : Syntax.Source :=
  { path := "shelf.ts"
    bytes := "export { Item } from './items';".toUTF8
    root :=
      ⟨none, "program", true, 0, 31,
        [⟨none, "export_statement", true, 0, 31,
            [⟨none, "export_clause", true, 7, 15,
                [⟨none, "export_specifier", true, 9, 13,
                    [⟨some "name", "identifier", true, 9, 13, []⟩]⟩]⟩,
              ⟨some "source", "string", true, 21, 30, []⟩]⟩]⟩ }

/-- The file that declares the class. -/
def declaringFile : Syntax.Source :=
  { path := "items.ts"
    bytes := "export class Item {}".toUTF8
    root :=
      ⟨none, "program", true, 0, 20,
        [⟨none, "export_statement", true, 0, 20,
            [⟨some "declaration", "class_declaration", true, 7, 20,
                [⟨some "name", "type_identifier", true, 13, 17, []⟩,
                  ⟨some "body", "class_body", true, 18, 20, []⟩]⟩]⟩]⟩ }

/-- The program of these files. -/
def chainProgram : Program :=
  { tree := { top := .directory [] }
    root := .absolute ["project"]
    files := [declaringFile, requiringFile, passingFile] }

/-- The class is used through the module that passes it on, so a chain of two dependencies leads
from the module that uses it to the module that declares it. -/
theorem chainProgram_covers_resolution :
    let draft := joined chainProgram {} true
    let symbol : Symbol := ⟨classifierId .classType "items.Item", .classType⟩
    draft.symbols.resolve "main.ts" "shelf.Item" [] = .found symbol ∧
      draft.symbols.declared = [(("items.ts", "Item"), symbol)] ∧
      draft.edges.map (fun relation => (relation.kind, relation.sourceId, relation.targetId))
        = [(.dependency, moduleId "main.ts", moduleId "shelf.ts"),
          (.dependency, moduleId "shelf.ts", moduleId "items.ts")] ∧
      Relation.TransGen draft.ModuleEdge "main.ts" "items.ts" := by
  intro draft symbol
  have facts : draft.symbols.resolve "main.ts" "shelf.Item" [] = .found symbol ∧
      draft.symbols.declared = [(("items.ts", "Item"), symbol)] ∧
      draft.edges.map (fun relation => (relation.kind, relation.sourceId, relation.targetId))
        = [(.dependency, moduleId "main.ts", moduleId "shelf.ts"),
          (.dependency, moduleId "shelf.ts", moduleId "items.ts")] ∧
      (chainProgram.sources.all (·.plainSpecifiers) = true ∧
        (∀ first ∈ chainProgram.paths, ∀ second ∈ chainProgram.paths,
          moduleId first = moduleId second → first = second) ∧
        Link.CollisionFree ((joinedEdits chainProgram {} true).filterMap Edit.link?)) := by
    decide +kernel
  obtain ⟨found, declared, edges_eq, plain, apart, free⟩ := facts
  refine ⟨found, declared, edges_eq, ?_⟩
  refine (joined_covers_resolution chainProgram {} true (List.all_eq_true.mp plain) apart free
    "main.ts" "shelf.Item" [] symbol (by decide +kernel) found).2 "items.ts" "Item" ?_ ?_
    (by decide)
  · rw [SymbolTable.lookup?, declared, List.lookup_cons, beq_self_eq_true]
  · intro other otherName present
    rw [SymbolTable.lookup?, declared, List.lookup_cons] at present
    split at present
    next same => exact congrArg Prod.fst (beq_iff_eq.mp same)
    next => simp at present

end Draft

end CodeGraph
