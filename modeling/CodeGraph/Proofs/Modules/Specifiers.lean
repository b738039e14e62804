import CodeGraph.Modules.ImportGraph
import CodeGraph.Proofs.Syntax.Nodes

/-!
# Bound modules are referred to

A file's syntax is read twice: for the names that it binds, statement by statement, and for the
modules that it refers to, node by node. Where the specifiers at its top are plain string literals,
every module that a name is bound to is a module that the file refers to.
-/

namespace CodeGraph

open Syntax

/-! ## Plain specifiers -/

namespace Syntax.Source

/-- A required module is named by the first argument, and what is called is the plain name
`require`. -/
def plainRequire (source : Source) (declarator : Node) : Bool :=
  (declarator.childIn? "value").all fun call =>
    (source.requiredModule? call).isNone
      || ((call.childIn? "function").all (·.kind == "identifier")
        && (Modules.leadingArgument? call).any (·.kind == "string"))

/-- The modules in an import, an export or a declaration of variables are named by plain string
literals. -/
def plainStatement (source : Source) (statement : Node) : Bool :=
  if statement.isOneOf ["import_statement", "export_statement"] then
    (statement.childIn? "source").all (·.kind == "string")
      && (statement.namedChildren.filter (·.kind == "import_require_clause")).all fun clause =>
        (clause.childIn? "source").all (·.kind == "string")
  else if statement.isOneOf variableKinds then
    (statement.namedChildren.filter (·.kind == "variable_declarator")).all source.plainRequire
  else
    true

/-- The modules at the top of a file are named by plain string literals. -/
def plainSpecifiers (source : Source) : Bool :=
  source.root.namedChildren.all source.plainStatement

end Syntax.Source

/-! ## Bindings to known modules -/

namespace Bindings

/-- Every specifier of the bindings is known. -/
structure From (known : String → Prop) (bindings : Bindings) : Prop where
  /-- Names are imported from known modules. -/
  imported : ∀ name binding, (name, binding) ∈ bindings.imports → known binding.specifier
  /-- Names are passed on from known modules. -/
  reexported : ∀ name reexport, (name, reexport) ∈ bindings.reexports → known reexport.specifier
  /-- Modules that are passed on are known. -/
  starred : ∀ specifier ∈ bindings.starExports, known specifier

variable {known : String → Prop} {bindings : Bindings}

theorem from_empty : From known {} :=
  ⟨by simp, by simp, by simp⟩

theorem From.addImport (fromKnown : bindings.From known) {binding : ImportBinding}
    (new : known binding.specifier) : (bindings.addImport binding).From known := by
  refine ⟨fun name other present => ?_, fromKnown.reexported, fromKnown.starred⟩
  rcases Ordered.mem_of_mem_set present with same | old
  · obtain ⟨rfl, rfl⟩ := Prod.mk.inj same
    exact new
  · exact fromKnown.imported name other old

theorem From.addImports (fromKnown : bindings.From known) {imports : List ImportBinding}
    (new : ∀ binding ∈ imports, known binding.specifier) :
    (imports.foldl Bindings.addImport bindings).From known :=
  List.foldlRecOn imports Bindings.addImport fromKnown
    fun _ before binding present => before.addImport (new binding present)

theorem From.addExport (fromKnown : bindings.From known) (exported localName : String) :
    (bindings.addExport exported localName).From known :=
  ⟨fromKnown.imported, fromKnown.reexported, fromKnown.starred⟩

theorem From.addAllExports (fromKnown : bindings.From known) (exports : List (String × String)) :
    (exports.foldl (fun bindings (exported, name) => bindings.addExport exported name)
      bindings).From known :=
  List.foldlRecOn exports _ fromKnown
    fun _ before entry _ => before.addExport entry.1 entry.2

theorem From.addReexport (fromKnown : bindings.From known) {reexport : Reexport}
    (new : known reexport.specifier) (exported : String) :
    (bindings.addReexport exported reexport).From known := by
  refine ⟨fromKnown.imported, fun name other present => ?_, fromKnown.starred⟩
  rcases Ordered.mem_of_mem_set present with same | old
  · obtain ⟨rfl, rfl⟩ := Prod.mk.inj same
    exact new
  · exact fromKnown.reexported name other old

theorem From.addStar (fromKnown : bindings.From known) {specifier : String}
    (new : known specifier) :
    From known { bindings with starExports := bindings.starExports ++ [specifier] } :=
  ⟨fromKnown.imported, fromKnown.reexported,
    List.forall_mem_append.mpr ⟨fromKnown.starred, by simpa using new⟩⟩

end Bindings

/-! ## Statements -/

namespace Modules

/-- The file refers to a module with this specifier. -/
def RefersTo (source : Source) (specifier : String) : Prop :=
  ∃ reference ∈ references source, reference.specifier = specifier

theorem refersTo_of_referenceOf? {source : Source} {node : Node} {reference : ModuleReference}
    (below : node ∈ source.root.preorder) (found : referenceOf? source node = some reference) :
    RefersTo source reference.specifier :=
  ⟨reference, List.mem_filterMap.mpr ⟨node, below, found⟩, rfl⟩

end Modules

namespace Syntax.Source

open Modules

variable {source : Source} {statement : Node} {bindings : Bindings}

theorem mem_namedChildren_of_namedOf? {node child : Node} {kind : String}
    (found : node.namedOf? kind = some child) : child ∈ node.namedChildren ∧ child.kind = kind :=
  ⟨List.mem_of_find?_eq_some found, by simpa using List.find?_some found⟩

/-- An import or export from elsewhere refers to its module. -/
theorem refersTo_source (below : statement ∈ source.root.preorder)
    (joins : statement.isOneOf ["import_statement", "export_statement"] = true) {literal : Node}
    (found : statement.childIn? "source" = some literal) (plain : literal.kind = "string") :
    RefersTo source (source.unquoted literal) := by
  have reference_eq : referenceOf? source statement
      = some { specifier := source.unquoted literal, origin := .imported, node := statement } := by
    simp [referenceOf?, joins, found, plainString?, plain]
  exact refersTo_of_referenceOf? below reference_eq

/-- An import assignment refers to its module. -/
theorem refersTo_assigned {clause literal : Node} (below : clause ∈ source.root.preorder)
    (assigns : clause.kind = "import_require_clause")
    (found : assignedModule? clause = some literal)
    (plain : (clause.childIn? "source").all (·.kind == "string") = true) :
    RefersTo source (source.unquoted literal) := by
  have literal_plain : literal.kind = "string" := by
    rw [assignedModule?] at found
    cases field : clause.childIn? "source" with
    | some named =>
        obtain rfl : named = literal := by simpa [field] using found
        simpa [field] using plain
    | none => exact (mem_namedChildren_of_namedOf? (by simpa [field] using found)).2
  have reference_eq : referenceOf? source clause
      = some { specifier := source.unquoted literal, origin := .required, node := clause } := by
    rw [assignedModule?] at found
    simp [referenceOf?, Node.isOneOf, assigns, found, plainString?, literal_plain]
  exact refersTo_of_referenceOf? below reference_eq

/-- A variable that is set to a required module refers to it. -/
theorem refersTo_required {declarator call : Node} {specifier : String}
    (below : call ∈ source.root.preorder) (value : declarator.childIn? "value" = some call)
    (required : source.requiredModule? call = some specifier)
    (plain : source.plainRequire declarator = true) : RefersTo source specifier := by
  have leading : (call.childIn? "function").all (·.kind == "identifier") = true ∧
      (leadingArgument? call).any (·.kind == "string") = true := by
    simpa [plainRequire, value, required] using plain
  obtain ⟨callee_plain, leading_plain⟩ := leading
  obtain ⟨argument, argument_eq, argument_plain⟩ := (Option.any_eq_true _ _).mp leading_plain
  rw [requiredModule?] at required
  split at required
  next calls =>
    rw [Bool.and_eq_true, beq_iff_eq] at calls
    obtain ⟨callee, callee_eq, callee_text⟩ := (Option.any_eq_true _ _).mp calls.2
    obtain ⟨arguments, arguments_eq, first_eq⟩ := Option.bind_eq_some_iff.mp argument_eq
    split at required
    next literal literals =>
      obtain rfl : source.unquoted literal = specifier := Option.some.inj required
      -- The first argument is a string, and there is only one string among the arguments.
      have argument_mem : argument ∈ arguments.namedChildren.filter (·.kind == "string") := by
        have content_mem := List.mem_of_mem_head? first_eq
        exact List.mem_filter.mpr ⟨(List.mem_filter.mp content_mem).1, argument_plain⟩
      have only : arguments.namedChildren.filter (·.kind == "string") = [literal] := by
        simpa [arguments_eq] using literals
      obtain rfl : argument = literal := List.mem_singleton.mp (only ▸ argument_mem)
      have origin_eq : callOrigin? source call = some .required := by
        simp_all [callOrigin?]
      have reference_eq : referenceOf? source call
          = some { specifier := source.unquoted argument, origin := .required, node := call } := by
        simp_all [referenceOf?, Node.isOneOf, plainString?]
      exact refersTo_of_referenceOf? below reference_eq
    next => simp at required
  next => simp at required

/-- All names of an import clause are imported from the module of the statement. -/
theorem specifier_of_mem_clauseImports {specifier : String} {line : Nat} {part : Node}
    {binding : ImportBinding} (present : binding ∈ source.clauseImports specifier line part) :
    binding.specifier = specifier := by
  rw [clauseImports] at present
  split at present
  · rw [List.mem_singleton.mp present]
  · split at present
    · obtain ⟨name, _, rfl⟩ := Option.map_eq_some_iff.mp (Option.mem_toList.mp present)
      rfl
    · split at present
      · obtain ⟨entry, _, rfl⟩ := List.mem_map.mp present
        rfl
      · simp at present

/-- The names that a declaration of variables binds to modules come from modules that one of its
variables is set to. -/
theorem exists_required_of_mem_requiresOf {binding : ImportBinding}
    (present : binding ∈ source.requiresOf statement) :
    ∃ declarator ∈ statement.namedChildren.filter (·.kind == "variable_declarator"),
      (declarator.childIn? "value").bind source.requiredModule? = some binding.specifier := by
  obtain ⟨declarator, declarator_mem, bound⟩ := List.mem_flatMap.mp present
  refine ⟨declarator, declarator_mem, ?_⟩
  split at bound
  next specifier name required _ =>
    dsimp only at bound
    split at bound
    · rw [List.mem_singleton.mp bound, required]
    · split at bound
      · obtain ⟨entry, _, one⟩ := List.mem_flatMap.mp bound
        split at one
        · rw [List.mem_singleton.mp one, required]
        · split at one
          · split at one
            · split at one
              · rw [List.mem_singleton.mp one, required]
              · simp at one
            · simp at one
          · simp at one
      · simp at bound
  next => simp at bound

/-- A clause passes names on from the module that it names. -/
theorem from_addClause_some {known : String → Prop} (before : bindings.From known)
    {specifier : String} (new : known specifier) (clause : Node) :
    (source.addClause (some specifier) clause bindings).From known :=
  List.foldlRecOn _ _ before fun _ earlier _ _ => earlier.addReexport new _

/-- A clause without a module exports names of the file. -/
theorem from_addClause_none {known : String → Prop} (before : bindings.From known)
    (clause : Node) : (source.addClause none clause bindings).From known :=
  List.foldlRecOn _ _ before fun _ earlier _ _ => earlier.addExport ..

section

variable (listed : statement ∈ source.root.namedChildren)
  (plain : source.plainStatement statement = true)
include listed

theorem below_of_mem_children {child : Node} (present : child ∈ statement.children) :
    child ∈ source.root.preorder :=
  Node.preorder_subset_of_mem_children (Node.mem_children_of_mem_namedChildren listed)
    (Node.preorder_subset_of_mem_children present child.mem_preorder_self)

theorem statement_below : statement ∈ source.root.preorder :=
  Node.preorder_subset_of_mem_children (Node.mem_children_of_mem_namedChildren listed)
    statement.mem_preorder_self

include plain

/-- The modules of an import statement are referred to. -/
theorem importsOf_refersTo (imports : statement.kind = "import_statement") :
    ∀ binding ∈ source.importsOf statement, RefersTo source binding.specifier := by
  have joins : statement.isOneOf ["import_statement", "export_statement"] = true := by
    simp [Node.isOneOf, imports]
  rw [plainStatement, if_pos joins, Bool.and_eq_true, List.all_eq_true] at plain
  intro binding present
  obtain ⟨child, child_mem, bound⟩ := List.mem_flatMap.mp present
  split at bound
  next assigns =>
    have assigns : child.kind = "import_require_clause" := by simpa using assigns
    split at bound
    next name literal _ found =>
      obtain rfl := List.mem_singleton.mp bound
      have below := below_of_mem_children listed (Node.mem_children_of_mem_namedChildren child_mem)
      exact refersTo_assigned below assigns found
        (plain.2 child (List.mem_filter.mpr ⟨child_mem, by simpa using assigns⟩))
    next => simp at bound
  next =>
    split at bound
    next literal found =>
      have literal_plain : literal.kind = "string" := by simpa [found] using plain.1
      have refers := refersTo_source (statement_below listed) joins found literal_plain
      split at bound
      · obtain ⟨part, _, one⟩ := List.mem_flatMap.mp bound
        exact specifier_of_mem_clauseImports one ▸ refers
      · simp at bound
    next => simp at bound

/-- The modules that variables are set to are referred to. -/
theorem requiresOf_refersTo (declares : statement.isOneOf variableKinds = true) :
    ∀ binding ∈ source.requiresOf statement, RefersTo source binding.specifier := by
  have other : statement.isOneOf ["import_statement", "export_statement"] ≠ true := by
    intro joins
    rw [Node.isOneOf, List.contains_iff_mem] at declares joins
    simp only [variableKinds, List.mem_cons, List.not_mem_nil, or_false] at declares joins
    rcases declares with kind | kind <;> simp [kind] at joins
  rw [plainStatement, if_neg other, if_pos declares, List.all_eq_true] at plain
  intro binding present
  obtain ⟨declarator, declarator_mem, required⟩ := exists_required_of_mem_requiresOf present
  obtain ⟨call, value, required⟩ := Option.bind_eq_some_iff.mp required
  have declarator_child := Node.mem_children_of_mem_namedChildren
    (List.mem_filter.mp declarator_mem).1
  have below : call ∈ source.root.preorder :=
    Node.preorder_subset_of_mem_children (Node.mem_children_of_mem_namedChildren listed)
      (Node.preorder_subset_of_mem_children declarator_child
        (Node.preorder_subset_of_mem_children (Node.mem_children_of_childIn? value)
          call.mem_preorder_self))
  exact refersTo_required below value required (plain declarator declarator_mem)

/-- The module of an export statement is referred to, so what is passed on is passed on from a
module that is. -/
theorem from_addExports (exports : statement.kind = "export_statement")
    (before : bindings.From (RefersTo source)) :
    (source.addExports statement bindings).From (RefersTo source) := by
  have joins : statement.isOneOf ["import_statement", "export_statement"] = true := by
    simp [Node.isOneOf, exports]
  rw [plainStatement, if_pos joins, Bool.and_eq_true] at plain
  have refers : ∀ specifier ∈ (statement.childIn? "source").map source.unquoted,
      RefersTo source specifier := by
    intro specifier found
    obtain ⟨literal, literal_eq, rfl⟩ := Option.map_eq_some_iff.mp found
    have literal_plain : literal.kind = "string" := by simpa [literal_eq] using plain.1
    exact refersTo_source (statement_below listed) joins literal_eq literal_plain
  simp only [addExports]
  split
  · exact before.addAllExports _
  · split
    · split
      · split
        · exact before
        · exact before.addExport ..
      · exact before
    · split
      next clause specifier _ found =>
        split
        · exact from_addClause_some before (refers specifier found) clause
        · split
          · exact before.addReexport (refers specifier found) _
          · exact before
      next clause _ _ => exact from_addClause_none before clause
      next specifier _ found =>
        split
        · exact before.addStar (refers specifier found)
        · exact before
      next => exact before

end

/-- Every module that a statement binds names to is referred to. -/
theorem from_addStatement (listed : statement ∈ source.root.namedChildren)
    (plain : source.plainStatement statement = true) (before : bindings.From (RefersTo source)) :
    (source.addStatement bindings statement).From (RefersTo source) := by
  rw [addStatement]
  split
  next imports =>
    exact before.addImports (importsOf_refersTo listed plain (by simpa using imports))
  next =>
    split
    next exports => exact from_addExports listed plain (by simpa using exports) before
    next =>
      split
      next declares => exact before.addImports (requiresOf_refersTo listed plain declares)
      next =>
        split
        · exact before.addAllExports _
        · exact before

/-- Every module that a file with plain specifiers binds names to is one that it refers to. -/
theorem bindings_from_references (plain : source.plainSpecifiers = true) :
    source.bindings.From (RefersTo source) :=
  List.foldlRecOn source.root.namedChildren source.addStatement Bindings.from_empty
    fun _ before _ listed => from_addStatement listed (List.all_eq_true.mp plain _ listed) before

end Syntax.Source

end CodeGraph
