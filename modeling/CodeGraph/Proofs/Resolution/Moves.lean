import CodeGraph.Proofs.Resolution.Search
import Mathlib.Data.List.MinMax

/-!
# What a step does to the parts behind a name

Parts behind a name work like a stack: a step puts parts in front of them or takes the first of
them, and what it does is the same whatever stands behind. The words that parts are made of are
those of the program and of the name that the search began with.
-/

namespace CodeGraph

namespace ExportQuery

/-- The question with other parts behind its name. -/
def withRest (query : ExportQuery) (rest : List String) : ExportQuery :=
  { query with rest }

@[simp]
theorem withRest_file (query : ExportQuery) (rest : List String) :
    (query.withRest rest).file = query.file := rfl

@[simp]
theorem withRest_exported (query : ExportQuery) (rest : List String) :
    (query.withRest rest).exported = query.exported := rfl

@[simp]
theorem withRest_rest (query : ExportQuery) (rest : List String) :
    (query.withRest rest).rest = rest := rfl

@[simp]
theorem withRest_withRest (query : ExportQuery) (first second : List String) :
    (query.withRest first).withRest second = query.withRest second := rfl

/-- The file and the name that a question is about. -/
def state (query : ExportQuery) : String × String :=
  (query.file, query.exported)

end ExportQuery

namespace ModuleResolver

theorem mem_files_of_probe? {resolver : ModuleResolver} {path file : String}
    (found : resolver.probe? path = some file) : file ∈ resolver.files := by
  simp only [probe?] at found
  split at found
  · simp at found
  · have listed := List.find?_some (Option.filter_eq_some_iff.mp found).1
    simpa using listed

/-- A path leads only to files with code. -/
theorem isDeclarationPath_of_probe? {resolver : ModuleResolver} {path file : String}
    (found : resolver.probe? path = some file) : Syntax.isDeclarationPath file = false := by
  simp only [probe?] at found
  split at found
  · simp at found
  · simpa using (Option.filter_eq_some_iff.mp found).2

/-- A specifier leads to a file by some path. -/
theorem exists_probe?_of_resolve? {resolver : ModuleResolver} {specifier fromFile file : String}
    (found : resolver.resolve? specifier fromFile = some file) :
    ∃ path, resolver.probe? path = some file := by
  simp only [resolve?] at found
  split at found
  · simp at found
  · split at found
    · exact ⟨_, found⟩
    · split at found
      · simp at found
      · split at found
        next mapped =>
          obtain rfl : _ = file := by simpa using found
          obtain ⟨_, path, _, _, probed, _⟩ := List.findSome?_eq_some_iff.mp mapped
          exact ⟨path, probed⟩
        next =>
          obtain ⟨base, _, probed⟩ := Option.bind_eq_some_iff.mp found
          exact ⟨_, probed⟩

/-- A specifier leads only to files of the program. -/
theorem mem_files_of_resolve? {resolver : ModuleResolver} {specifier fromFile file : String}
    (found : resolver.resolve? specifier fromFile = some file) : file ∈ resolver.files := by
  obtain ⟨path, probed⟩ := exists_probe?_of_resolve? found
  exact mem_files_of_probe? probed

/-- A specifier leads only to files with code. -/
theorem isDeclarationPath_of_resolve? {resolver : ModuleResolver} {specifier fromFile file : String}
    (found : resolver.resolve? specifier fromFile = some file) :
    Syntax.isDeclarationPath file = false := by
  obtain ⟨path, probed⟩ := exists_probe?_of_resolve? found
  exact isDeclarationPath_of_probe? probed

end ModuleResolver

namespace SymbolTable

variable {table : SymbolTable}

/-- A question leads to another one while nothing is declared on the way. -/
def Leads (table : SymbolTable) (query next : ExportQuery) : Prop :=
  next ∈ table.successors query

/-! ## What a step does to the parts -/

/-- The most parts that an exported name has in its file. -/
def longestLocal (table : SymbolTable) : Nat :=
  (table.bindings.flatMap fun entry =>
    entry.2.exports.values.map fun name => (Text.split '.' name).length).foldr max 0

/-- What a step does to the parts behind a name, whatever they are. -/
inductive Move (table : SymbolTable) (query next : ExportQuery) : Prop
  /-- The step puts parts in front of them. -/
  | push (pushed : List String) (short : pushed.length ≤ table.longestLocal)
      (moved : next.rest = pushed ++ query.rest)
      (uniform : ∀ rest, table.Leads (query.withRest rest) (next.withRest (pushed ++ rest)))
  /-- The step takes the first of them. -/
  | pop (part : String) (moved : query.rest = part :: next.rest)
      (uniform : ∀ rest, table.Leads (query.withRest (part :: rest)) (next.withRest rest))

/-- A file that has a binding of any sort is listed with its bindings. -/
theorem mem_bindings_of_get? {α : Type} {entries : Bindings → Ordered α} {file key : String}
    {value : α} (empty : entries {} = [])
    (bound : (entries (table.bindingsOf file)).get? key = some value) :
    (file, table.bindingsOf file) ∈ table.bindings := by
  rw [bindingsOf] at bound ⊢
  cases present : table.bindings.get? file with
  | some bindings => exact Ordered.mem_of_get? present
  | none => simp [present, empty] at bound

theorem length_split_le_longestLocal {file exported name : String}
    (bound : (table.bindingsOf file).exports.get? exported = some name) :
    (Text.split '.' name).length ≤ table.longestLocal := by
  refine List.le_max_of_le' 0 ?_ le_rfl
  refine List.mem_flatMap.mpr ⟨_, mem_bindings_of_get? rfl bound, ?_⟩
  refine List.mem_map.mpr ⟨name, ?_, rfl⟩
  exact List.mem_map.mpr ⟨(exported, name), Ordered.mem_of_get? bound, rfl⟩

/-- An import passes the parts in front of the rest on, or takes the first part of the rest. -/
theorem importQueries_cases {file first : String} {front rest : List String} {next : ExportQuery}
    (asks : next ∈ table.importQueries file (first :: (front ++ rest))) :
    (∃ pushed, pushed.length ≤ front.length ∧ next.rest = pushed ++ rest ∧
      ∀ other, next.withRest (pushed ++ other)
        ∈ table.importQueries file (first :: (front ++ other))) ∨
    (∃ part, rest = part :: next.rest ∧
      ∀ other, next.withRest other
        ∈ table.importQueries file (first :: (front ++ part :: other))) := by
  generalize parts_eq : front ++ rest = parts at asks
  cases mem_importQueries.mp asks with
  | single bound single located =>
      exact .inl ⟨front, le_rfl, parts_eq.symm, fun other =>
        mem_importQueries.mpr (.single bound single located)⟩
  | whole bound required located object =>
      exact .inl ⟨front, le_rfl, parts_eq.symm, fun other =>
        mem_importQueries.mpr (.whole bound required located object)⟩
  | @member _ part _ behind _ bound wide located =>
      cases front with
      | nil =>
          exact .inr ⟨part, parts_eq, fun other =>
            mem_importQueries.mpr (.member bound wide located)⟩
      | cons name pushed =>
          obtain ⟨rfl, rfl⟩ := List.cons.inj parts_eq
          exact .inl ⟨pushed, by simp, rfl, fun other =>
            mem_importQueries.mpr (.member bound wide located)⟩

/-- Further parts behind all others change no question of an import. -/
theorem importQueries_append {file first : String} {rest : List String} {next : ExportQuery}
    (asks : next ∈ table.importQueries file (first :: rest)) (behind : List String) :
    next.withRest (next.rest ++ behind) ∈ table.importQueries file (first :: rest ++ behind) := by
  have asks : next ∈ table.importQueries file (first :: ([] ++ rest)) := asks
  rcases importQueries_cases asks with ⟨pushed, short, moved, uniform⟩ | ⟨part, moved, uniform⟩
  · rw [moved, List.append_assoc]
    exact uniform (rest ++ behind)
  · rw [moved]
    exact uniform (next.rest ++ behind)

/-- A name that is passed on keeps the parts behind it, or takes the first of them. -/
theorem passedQueries_cases {query next : ExportQuery} (asks : next ∈ table.passedQueries query) :
    (next.rest = query.rest ∧
      ∀ other, next.withRest other ∈ table.passedQueries (query.withRest other)) ∨
    (∃ part, query.rest = part :: next.rest ∧
      ∀ other, next.withRest other ∈ table.passedQueries (query.withRest (part :: other))) := by
  cases mem_passedQueries.mp asks with
  | single passed located =>
      exact .inl ⟨rfl, fun other => mem_passedQueries.mpr (.single passed located)⟩
  | @member _ _ part _ _ _ passed located =>
      exact .inr ⟨part, rfl, fun other => mem_passedQueries.mpr (.member passed located)⟩
  | star kept proper listed located =>
      exact .inl ⟨rfl, fun other => mem_passedQueries.mpr (.star kept proper listed located)⟩

/-- Every step puts parts in front of those behind the name, or takes the first of them. -/
theorem Leads.move {query next : ExportQuery} (leads : table.Leads query next) :
    table.Move query next := by
  simp only [Leads, successors] at leads
  cases bound : (table.bindingsOf query.file).exports.get? query.exported with
  | some name =>
      have local_eq : ∀ rest, table.localParts? (query.withRest rest)
          = some (Text.split '.' name ++ rest) := fun rest => by
        simp [localParts?, bound]
      have uniform : ∀ rest other, other ∈ table.importQueries query.file
          (Text.split '.' name ++ rest) → table.Leads (query.withRest rest) other := by
        intro rest other asks
        simpa [Leads, successors, local_eq rest] using asks
      obtain ⟨first, front, split⟩ := List.exists_cons_of_ne_nil (Text.split_ne_nil '.' name)
      have short := length_split_le_longestLocal bound
      have asks : next ∈ table.importQueries query.file (first :: (front ++ query.rest)) := by
        simpa [localParts?, bound, split] using leads
      rw [split, List.length_cons] at short
      simp only [split, List.cons_append] at uniform
      rcases importQueries_cases asks with ⟨pushed, le, moved, anywhere⟩ | ⟨part, moved, anywhere⟩
      · exact .push pushed (by omega) moved fun rest => uniform rest _ (anywhere rest)
      · exact .pop part moved fun rest => uniform (part :: rest) _ (anywhere rest)
  | none =>
      have local_eq : ∀ rest, table.localParts? (query.withRest rest) = none := fun rest => by
        simp [localParts?, bound]
      have asks : next ∈ table.passedQueries query := by
        simpa [localParts?, bound] using leads
      rcases passedQueries_cases asks with ⟨moved, anywhere⟩ | ⟨part, moved, anywhere⟩
      · refine .push [] (Nat.zero_le _) moved fun rest => ?_
        simpa [Leads, successors, local_eq rest] using anywhere rest
      · refine .pop part moved fun rest => ?_
        simpa [Leads, successors, local_eq (part :: rest)] using anywhere rest

/-- Further parts behind all others change no step. -/
theorem Leads.append {query next : ExportQuery} (leads : table.Leads query next)
    (behind : List String) :
    table.Leads (query.withRest (query.rest ++ behind)) (next.withRest (next.rest ++ behind)) := by
  cases leads.move with
  | push pushed short moved uniform =>
      rw [moved, List.append_assoc]
      exact uniform (query.rest ++ behind)
  | pop part moved uniform =>
      rw [moved, List.cons_append]
      exact uniform (next.rest ++ behind)

/-- Further parts behind all others change no sequence of steps. -/
theorem leads_append {query last : ExportQuery}
    (path : Relation.ReflTransGen table.Leads query last) (behind : List String) :
    Relation.ReflTransGen table.Leads (query.withRest (query.rest ++ behind))
      (last.withRest (last.rest ++ behind)) :=
  path.lift (fun query => query.withRest (query.rest ++ behind)) fun _ _ leads =>
    leads.append behind

/-! ## The words of a search -/

/-- The words that questions about a name of these parts can be made of. -/
def vocabulary (table : SymbolTable) (parts : List String) : List String :=
  parts ++ ["=", "default"] ++ table.bindings.flatMap fun entry =>
    entry.2.imports.values.filterMap (·.imported)
      ++ entry.2.reexports.values.filterMap (·.imported)
      ++ entry.2.exports.values.flatMap (Text.split '.')

/-- A question about a file of the program that is made of known words. -/
structure Known (table : SymbolTable) (words : List String) (query : ExportQuery) : Prop where
  /-- The file belongs to the program. -/
  file_mem : query.file ∈ table.resolver.files
  /-- The exported name is a known word. -/
  exported_mem : query.exported ∈ words
  /-- So are the parts behind it. -/
  rest_subset : query.rest ⊆ words

theorem mem_vocabulary_of_imported {parts : List String} {file first name : String}
    {binding : ImportBinding} (bound : table.importOf? file first = some binding)
    (imported : binding.imported = some name) : name ∈ table.vocabulary parts := by
  have listed : binding ∈ (table.bindingsOf file).imports.values :=
    List.mem_map.mpr ⟨(first, binding), Ordered.mem_of_get? bound, rfl⟩
  refine List.mem_append_right _ (List.mem_flatMap.mpr ⟨_, mem_bindings_of_get? rfl bound, ?_⟩)
  exact List.mem_append_left _
    (List.mem_append_left _ (List.mem_filterMap.mpr ⟨binding, listed, imported⟩))

theorem mem_vocabulary_of_reexported {parts : List String} {file exported name : String}
    {reexport : Reexport}
    (passed : (table.bindingsOf file).reexports.get? exported = some reexport)
    (imported : reexport.imported = some name) : name ∈ table.vocabulary parts := by
  have listed : reexport ∈ (table.bindingsOf file).reexports.values :=
    List.mem_map.mpr ⟨(exported, reexport), Ordered.mem_of_get? passed, rfl⟩
  refine List.mem_append_right _ (List.mem_flatMap.mpr ⟨_, mem_bindings_of_get? rfl passed, ?_⟩)
  exact List.mem_append_left _
    (List.mem_append_right _ (List.mem_filterMap.mpr ⟨reexport, listed, imported⟩))

theorem split_subset_vocabulary {parts : List String} {file exported name : String}
    (bound : (table.bindingsOf file).exports.get? exported = some name) :
    Text.split '.' name ⊆ table.vocabulary parts := by
  intro word word_mem
  have listed : name ∈ (table.bindingsOf file).exports.values :=
    List.mem_map.mpr ⟨(exported, name), Ordered.mem_of_get? bound, rfl⟩
  refine List.mem_append_right _ (List.mem_flatMap.mpr ⟨_, mem_bindings_of_get? rfl bound, ?_⟩)
  exact List.mem_append_right _ (List.mem_flatMap.mpr ⟨name, listed, word_mem⟩)

/-- The questions of an import are made of known words, if its name is. -/
theorem known_of_importQueries {start rest : List String} {file first : String}
    {query : ExportQuery} (parts_subset : first :: rest ⊆ table.vocabulary start)
    (asks : query ∈ table.importQueries file (first :: rest)) :
    table.Known (table.vocabulary start) query := by
  obtain ⟨first_mem, rest_subset⟩ := List.cons_subset.mp parts_subset
  cases mem_importQueries.mp asks with
  | @single _ _ _ binding bound single located =>
      refine ⟨ModuleResolver.mem_files_of_resolve? located, ?_, rest_subset⟩
      cases named : binding.imported.filter (!·.isEmpty) with
      | none => exact first_mem
      | some name =>
          exact mem_vocabulary_of_imported bound (Option.filter_eq_some_iff.mp named).1
  | whole bound required located object =>
      refine ⟨ModuleResolver.mem_files_of_resolve? located, ?_, rest_subset⟩
      rcases object with rfl | rfl <;> simp [vocabulary]
  | member bound wide located =>
      obtain ⟨part_mem, rest_subset⟩ := List.cons_subset.mp rest_subset
      exact ⟨ModuleResolver.mem_files_of_resolve? located, part_mem, rest_subset⟩

/-- Questions made of known words lead to questions made of known words. -/
theorem Known.leads {start : List String} {query next : ExportQuery}
    (known : table.Known (table.vocabulary start) query) (leads : table.Leads query next) :
    table.Known (table.vocabulary start) next := by
  simp only [Leads, successors] at leads
  split at leads
  next parts bound =>
    obtain ⟨first, rest, rfl⟩ := exists_cons_of_localParts? bound
    refine known_of_importQueries ?_ leads
    obtain ⟨name, exports, parts_eq⟩ := Option.map_eq_some_iff.mp bound
    rw [← parts_eq]
    exact List.append_subset.mpr ⟨split_subset_vocabulary exports, known.rest_subset⟩
  next unbound =>
    obtain ⟨_, exported_mem, rest_subset⟩ := known
    cases mem_passedQueries.mp leads with
    | single passed located =>
        exact ⟨ModuleResolver.mem_files_of_resolve? located,
          mem_vocabulary_of_reexported passed rfl, rest_subset⟩
    | member passed located =>
        obtain ⟨part_mem, rest_subset⟩ := List.cons_subset.mp rest_subset
        exact ⟨ModuleResolver.mem_files_of_resolve? located, part_mem, rest_subset⟩
    | star kept proper listed located =>
        exact ⟨ModuleResolver.mem_files_of_resolve? located, exported_mem, rest_subset⟩

end SymbolTable

end CodeGraph
