import CodeGraph.Modules.SymbolTable
import Mathlib.Logic.Relation

/-!
# Resolution steps

What a dotted name means is given here by rules, without a search: a question is answered by a
declaration in the innermost scope that has one, or it leads to further questions. A symbol is
reached from a question when finitely many steps lead to a question that it answers. The
questions of the search are exactly the steps of these rules.
-/

namespace CodeGraph

/-- A question that comes up on the way from a name to a declaration. -/
inductive Question where
  /-- What does a dotted name mean in a scope of a file? -/
  | name (file : String) (parts scope : List String)
  /-- What does an exported name mean? -/
  | exported (query : ExportQuery)

namespace Question

/-- The question that the use of a name asks; the empty name has no parts. -/
def ofName (file name : String) (scope : List String) : Question :=
  .name file (if name.isEmpty then [] else Text.split '.' name) scope

end Question

namespace SymbolTable

/-- No scope around a dotted name declares it. -/
def Undeclared (table : SymbolTable) (file : String) (parts scope : List String) : Prop :=
  ∀ outer, outer <+: scope → table.lookup? file (String.intercalate "." (outer ++ parts)) = none

/-- A question is answered by the declaration in the innermost scope that has one. -/
inductive Answers (table : SymbolTable) : Question → Symbol → Prop
  /-- The scope `outer` declares the name, and no scope further inside does. -/
  | innermost {file first : String} {rest scope outer : List String} {symbol : Symbol}
      (enclosing : outer <+: scope)
      (declared :
        table.lookup? file (String.intercalate "." (outer ++ first :: rest)) = some symbol)
      (inside : ∀ inner, inner <+: scope → outer.length < inner.length →
        table.lookup? file (String.intercalate "." (inner ++ first :: rest)) = none) :
      Answers table (.name file (first :: rest) scope) symbol

/-- A question that has no answer of its own leads to another one. -/
inductive Step (table : SymbolTable) : Question → Question → Prop
  /-- A single imported name is asked of its module, under the name that it has there. -/
  | imported {file first target : String} {rest scope : List String} {binding : ImportBinding}
      (undeclared : table.Undeclared file (first :: rest) scope)
      (bound : table.importOf? file first = some binding)
      (single : binding.kind = .named ∨ binding.kind = .default)
      (located : table.resolver.resolve? binding.specifier file = some target) :
      Step table (.name file (first :: rest) scope)
        (.exported ⟨target, (binding.imported.filter (!·.isEmpty)).getD first, rest⟩)
  /-- A required module is asked for the object that it assigns or for its default export. -/
  | whole {file first target exported : String} {rest scope : List String}
      {binding : ImportBinding}
      (undeclared : table.Undeclared file (first :: rest) scope)
      (bound : table.importOf? file first = some binding)
      (required : binding.kind = .require)
      (located : table.resolver.resolve? binding.specifier file = some target)
      (object : exported = "=" ∨ exported = "default") :
      Step table (.name file (first :: rest) scope) (.exported ⟨target, exported, rest⟩)
  /-- A module that is imported as a whole is asked for the next part of the name. -/
  | member {file first part target : String} {rest scope : List String}
      {binding : ImportBinding}
      (undeclared : table.Undeclared file (first :: part :: rest) scope)
      (bound : table.importOf? file first = some binding)
      (wide : binding.kind = .namespace ∨ binding.kind = .require)
      (located : table.resolver.resolve? binding.specifier file = some target) :
      Step table (.name file (first :: part :: rest) scope) (.exported ⟨target, part, rest⟩)
  /-- An exported name is asked for under the name that it has in its file. -/
  | localName {query : ExportQuery} {name : String}
      (bound : (table.bindingsOf query.file).exports.get? query.exported = some name) :
      Step table (.exported query) (.name query.file (Text.split '.' name ++ query.rest) [])
  /-- A name that is passed on is asked of the module that it comes from. -/
  | reexported {query : ExportQuery} {specifier imported target : String}
      (foreign : (table.bindingsOf query.file).exports.get? query.exported = none)
      (passed : (table.bindingsOf query.file).reexports.get? query.exported
        = some ⟨specifier, some imported⟩)
      (located : table.resolver.resolve? specifier query.file = some target) :
      Step table (.exported query) (.exported ⟨target, imported, query.rest⟩)
  /-- A module that is passed on under a name is asked for the next part. -/
  | memberOfReexported {file exported part specifier target : String} {rest : List String}
      (foreign : (table.bindingsOf file).exports.get? exported = none)
      (passed : (table.bindingsOf file).reexports.get? exported = some ⟨specifier, none⟩)
      (located : table.resolver.resolve? specifier file = some target) :
      Step table (.exported ⟨file, exported, part :: rest⟩) (.exported ⟨target, part, rest⟩)
  /-- Any other name but those of module objects is asked of each module that is passed on as a
  whole. -/
  | star {query : ExportQuery} {specifier target : String}
      (foreign : (table.bindingsOf query.file).exports.get? query.exported = none)
      (kept : (table.bindingsOf query.file).reexports.get? query.exported = none)
      (proper : query.exported ≠ "default" ∧ query.exported ≠ "=")
      (listed : specifier ∈ (table.bindingsOf query.file).starExports)
      (located : table.resolver.resolve? specifier query.file = some target) :
      Step table (.exported query) (.exported { query with file := target })

/-- The symbol answers a question that finitely many steps lead to. -/
def Reaches (table : SymbolTable) (question : Question) (symbol : Symbol) : Prop :=
  ∃ last, Relation.ReflTransGen table.Step question last ∧ table.Answers last symbol

/-! ## Scopes -/

/-- The scopes around a place are the prefixes of its scope. -/
theorem mem_scopes {scope outer : List String} : outer ∈ scopes scope ↔ outer <+: scope := by
  constructor
  · intro listed
    obtain ⟨depth, _, rfl⟩ := List.mem_map.mp listed
    exact List.take_prefix _ scope
  · intro enclosing
    have shorter := enclosing.length_le
    refine List.mem_map.mpr ⟨scope.length - outer.length, ?_, ?_⟩
    · exact List.mem_range.mpr (by omega)
    · rw [Nat.sub_sub_self shorter]
      exact (List.prefix_iff_eq_take.mp enclosing).symm

/-- The scopes around a place are listed from the inside out. -/
theorem pairwise_scopes (scope : List String) :
    (scopes scope).Pairwise fun inner outer => outer.length < inner.length := by
  rw [scopes, List.pairwise_map]
  refine (List.pairwise_lt_range).imp_of_mem ?_
  intro near far near_mem far_mem order
  have near_le := List.mem_range.mp near_mem
  have far_le := List.mem_range.mp far_mem
  simp only [List.length_take]
  omega

theorem declaredIn?_eq_none_iff {table : SymbolTable} {file : String} {parts scope : List String} :
    table.declaredIn? file parts scope = none ↔ table.Undeclared file parts scope := by
  simp only [declaredIn?, List.findSome?_eq_none_iff, mem_scopes, Undeclared]

theorem declaredIn?_eq_some_iff {table : SymbolTable} {file first : String}
    {rest scope : List String} {symbol : Symbol} :
    table.declaredIn? file (first :: rest) scope = some symbol
      ↔ table.Answers (.name file (first :: rest) scope) symbol := by
  constructor
  · intro found
    obtain ⟨inner, outer, wider, listed, declared, earlier⟩ :=
      List.findSome?_eq_some_iff.mp found
    have enclosing : outer <+: scope := mem_scopes.mp (by simp [listed])
    refine .innermost enclosing declared ?_
    intro nearer nearer_enclosing longer
    have order := pairwise_scopes scope
    rw [listed] at order
    have nearer_listed := mem_scopes.mpr nearer_enclosing
    rw [listed, List.mem_append, List.mem_cons] at nearer_listed
    -- Whatever is listed from `outer` on is no longer than `outer`.
    have tail_order := (List.pairwise_append.mp order).2.1
    rcases nearer_listed with before | same | after
    · exact earlier nearer before
    · subst same
      omega
    · have := (List.pairwise_cons.mp tail_order).1 nearer after
      omega
  · rintro ⟨enclosing, declared, inside⟩
    rename_i outer
    obtain ⟨inner, wider, listed⟩ := List.append_of_mem (mem_scopes.mpr enclosing)
    have order := pairwise_scopes scope
    rw [listed] at order
    refine List.findSome?_eq_some_iff.mpr ⟨inner, outer, wider, listed, declared, ?_⟩
    intro nearer nearer_mem
    refine inside nearer (mem_scopes.mp (by simp [listed, nearer_mem])) ?_
    exact (List.pairwise_append.mp order).2.2 nearer nearer_mem outer List.mem_cons_self

/-! ## The questions of the search -/

theorem mem_memberQueries {file : String} {parts : List String} {query : ExportQuery} :
    query ∈ memberQueries file parts
      ↔ ∃ part rest, parts = part :: rest ∧ query = ⟨file, part, rest⟩ := by
  cases parts with
  | nil => simp [memberQueries]
  | cons part rest => simp [memberQueries, and_assoc]

/-- What the import of its first part asks about a name. -/
inductive ImportAsks (table : SymbolTable) (file : String) : List String → ExportQuery → Prop
  /-- A single imported name is asked for under the name that it has in its module. -/
  | single {first target : String} {rest : List String} {binding : ImportBinding}
      (bound : table.importOf? file first = some binding)
      (single : binding.kind = .named ∨ binding.kind = .default)
      (located : table.resolver.resolve? binding.specifier file = some target) :
      ImportAsks table file (first :: rest)
        ⟨target, (binding.imported.filter (!·.isEmpty)).getD first, rest⟩
  /-- A required module is asked for what it is as a whole. -/
  | whole {first target exported : String} {rest : List String} {binding : ImportBinding}
      (bound : table.importOf? file first = some binding) (required : binding.kind = .require)
      (located : table.resolver.resolve? binding.specifier file = some target)
      (object : exported = "=" ∨ exported = "default") :
      ImportAsks table file (first :: rest) ⟨target, exported, rest⟩
  /-- A module that is imported as a whole is asked for the next part. -/
  | member {first part target : String} {rest : List String} {binding : ImportBinding}
      (bound : table.importOf? file first = some binding)
      (wide : binding.kind = .namespace ∨ binding.kind = .require)
      (located : table.resolver.resolve? binding.specifier file = some target) :
      ImportAsks table file (first :: part :: rest) ⟨target, part, rest⟩

theorem mem_importQueries {table : SymbolTable} {file first : String} {rest : List String}
    {query : ExportQuery} :
    query ∈ table.importQueries file (first :: rest)
      ↔ table.ImportAsks file (first :: rest) query := by
  constructor
  · intro asked
    simp only [importQueries, List.headD_cons, List.drop_one, List.tail_cons] at asked
    split at asked
    · simp at asked
    next binding bound =>
      split at asked
      · simp at asked
      next target located =>
        split at asked
        next kind =>
          obtain ⟨part, further, rfl, rfl⟩ := mem_memberQueries.mp asked
          exact .member bound (.inl kind) located
        next kind =>
          simp only [List.cons_append, List.nil_append, List.mem_cons, mem_memberQueries] at asked
          rcases asked with rfl | rfl | ⟨part, further, rfl, rfl⟩
          · exact .whole bound kind located (.inl rfl)
          · exact .whole bound kind located (.inr rfl)
          · exact .member bound (.inr kind) located
        next kind =>
          obtain rfl := List.mem_singleton.mp asked
          exact .single bound (.inl kind) located
        next kind =>
          obtain rfl := List.mem_singleton.mp asked
          exact .single bound (.inr kind) located
  · intro asks
    cases asks with
    | single bound single located =>
        rcases single with kind | kind <;> simp [importQueries, bound, located, kind]
    | whole bound required located object =>
        rcases object with rfl | rfl <;> simp [importQueries, bound, located, required]
    | member bound wide located =>
        rcases wide with kind | kind <;>
          simp [importQueries, bound, located, kind, memberQueries]

/-- What is asked about an exported name that its file passes on. -/
inductive PassesOn (table : SymbolTable) : ExportQuery → ExportQuery → Prop
  /-- A single name is asked of the module that it comes from. -/
  | single {query : ExportQuery} {specifier imported target : String}
      (passed : (table.bindingsOf query.file).reexports.get? query.exported
        = some ⟨specifier, some imported⟩)
      (located : table.resolver.resolve? specifier query.file = some target) :
      PassesOn table query ⟨target, imported, query.rest⟩
  /-- A module that is passed on under a name is asked for the next part. -/
  | member {file exported part specifier target : String} {rest : List String}
      (passed : (table.bindingsOf file).reexports.get? exported = some ⟨specifier, none⟩)
      (located : table.resolver.resolve? specifier file = some target) :
      PassesOn table ⟨file, exported, part :: rest⟩ ⟨target, part, rest⟩
  /-- Any other name is asked of each module that is passed on as a whole. -/
  | star {query : ExportQuery} {specifier target : String}
      (kept : (table.bindingsOf query.file).reexports.get? query.exported = none)
      (proper : query.exported ≠ "default" ∧ query.exported ≠ "=")
      (listed : specifier ∈ (table.bindingsOf query.file).starExports)
      (located : table.resolver.resolve? specifier query.file = some target) :
      PassesOn table query { query with file := target }

theorem mem_passedQueries {table : SymbolTable} {query next : ExportQuery} :
    next ∈ table.passedQueries query ↔ table.PassesOn query next := by
  constructor
  · intro asked
    simp only [passedQueries] at asked
    split at asked
    next reexport passed =>
      split at asked
      · simp at asked
      next target located =>
        split at asked
        next whole =>
          obtain ⟨part, rest, further, rfl⟩ := mem_memberQueries.mp asked
          obtain ⟨file, exported, _⟩ := query
          obtain ⟨specifier, _⟩ := reexport
          subst whole further
          exact .member passed located
        next imported single =>
          obtain rfl := List.mem_singleton.mp asked
          obtain ⟨specifier, _⟩ := reexport
          subst single
          exact .single passed located
    next kept =>
      split at asked
      · simp at asked
      next proper =>
        obtain ⟨target, found, rfl⟩ := List.mem_map.mp asked
        obtain ⟨specifier, listed, located⟩ := List.mem_filterMap.mp found
        simp only [Bool.or_eq_true, beq_iff_eq, not_or] at proper
        exact .star kept proper listed located
  · intro passes
    cases passes with
    | single passed located => simp [passedQueries, passed, located]
    | member passed located => simp [passedQueries, passed, located, memberQueries]
    | star kept proper listed located =>
        simp only [passedQueries, kept, beq_iff_eq, proper, or_self, Bool.or_eq_true, ↓reduceIte,
          List.mem_map, List.mem_filterMap]
        exact ⟨_, ⟨_, listed, located⟩, rfl⟩

/-- A name that no scope declares leads to the questions that its import asks. -/
theorem step_name_iff {table : SymbolTable} {file first : String} {rest scope : List String}
    {next : Question} (undeclared : table.Undeclared file (first :: rest) scope) :
    table.Step (.name file (first :: rest) scope) next
      ↔ ∃ query ∈ table.importQueries file (first :: rest), next = .exported query := by
  constructor
  · intro step
    cases step with
    | imported _ bound single located =>
        exact ⟨_, mem_importQueries.mpr (.single bound single located), rfl⟩
    | whole _ bound required located object =>
        exact ⟨_, mem_importQueries.mpr (.whole bound required located object), rfl⟩
    | member _ bound wide located =>
        exact ⟨_, mem_importQueries.mpr (.member bound wide located), rfl⟩
  · rintro ⟨query, asked, rfl⟩
    cases mem_importQueries.mp asked with
    | single bound single located => exact .imported undeclared bound single located
    | whole bound required located object => exact .whole undeclared bound required located object
    | member bound wide located => exact .member undeclared bound wide located

/-- An exported name that has a name in its file leads to that name alone. -/
theorem step_exported_iff_of_some {table : SymbolTable} {query : ExportQuery}
    {parts : List String} {next : Question} (bound : table.localParts? query = some parts) :
    table.Step (.exported query) next ↔ next = .name query.file parts [] := by
  obtain ⟨name, exports, rfl⟩ := Option.map_eq_some_iff.mp bound
  constructor
  · intro step
    cases step with
    | localName exports' => simp_all
    | reexported foreign => simp_all
    | memberOfReexported foreign => simp_all
    | star foreign => simp_all
  · rintro rfl
    exact .localName exports

/-- Any other exported name leads to the questions that its file passes on. -/
theorem step_exported_iff_of_none {table : SymbolTable} {query : ExportQuery} {next : Question}
    (unbound : table.localParts? query = none) :
    table.Step (.exported query) next
      ↔ ∃ other ∈ table.passedQueries query, next = .exported other := by
  have foreign := Option.map_eq_none_iff.mp unbound
  constructor
  · intro step
    cases step with
    | localName bound => simp_all
    | reexported _ passed located => exact ⟨_, mem_passedQueries.mpr (.single passed located), rfl⟩
    | memberOfReexported _ passed located =>
        exact ⟨_, mem_passedQueries.mpr (.member passed located), rfl⟩
    | star _ kept proper listed located =>
        exact ⟨_, mem_passedQueries.mpr (.star kept proper listed located), rfl⟩
  · rintro ⟨other, asked, rfl⟩
    cases mem_passedQueries.mp asked with
    | single passed located => exact .reexported foreign passed located
    | member passed located => exact .memberOfReexported foreign passed located
    | star kept proper listed located => exact .star foreign kept proper listed located

end SymbolTable

end CodeGraph
