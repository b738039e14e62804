import CodeGraph.Proofs.Resolution.Steps
import CodeGraph.Proofs.Text.Pieces

/-!
# The search finds what can be reached

One list of questions is shared by all alternatives of the search, and a question on it is never
asked again. A search that ends without a declaration has explored its list: every question on it
is without an answer and leads only to questions on it. So the list cannot hide a symbol, and a
search that ends finds one exactly when one is reached.
-/

namespace CodeGraph

namespace SearchResult

variable {ask : ExportQuery → List ExportQuery → SearchResult}

/-- A symbol that is found among questions is found by one of them. -/
theorem found_of_firstOf {queries asked : List ExportQuery} {symbol : Symbol}
    (found : firstOf ask queries asked = .found symbol) :
    ∃ query ∈ queries, ∃ before, ask query before = .found symbol := by
  induction queries generalizing asked with
  | nil => simp [firstOf] at found
  | cons query queries ih =>
      rw [firstOf] at found
      cases outcome : ask query asked with
      | found other =>
          rw [outcome] at found
          exact ⟨query, List.mem_cons_self, asked, by rw [outcome, ← found]; rfl⟩
      | absent after =>
          rw [outcome] at found
          obtain ⟨later, later_mem, before, answer⟩ := ih found
          exact ⟨later, List.mem_cons_of_mem query later_mem, before, answer⟩
      | exhausted =>
          rw [outcome] at found
          simp [orElse] at found

end SearchResult

namespace SymbolTable

variable {table : SymbolTable}

theorem Reaches.head {question next : Question} {symbol : Symbol}
    (step : table.Step question next) (reach : table.Reaches next symbol) :
    table.Reaches question symbol := by
  obtain ⟨last, path, answer⟩ := reach
  exact ⟨last, .head step path, answer⟩

/-- The parts of a name in its file begin with a part of that name. -/
theorem exists_cons_of_localParts? {query : ExportQuery} {parts : List String}
    (bound : table.localParts? query = some parts) : ∃ first rest, parts = first :: rest := by
  obtain ⟨name, _, rfl⟩ := Option.map_eq_some_iff.mp bound
  obtain ⟨first, others, split⟩ := List.exists_cons_of_ne_nil (Text.split_ne_nil '.' name)
  exact ⟨first, others ++ query.rest, by rw [split, List.cons_append]⟩

/-! ## What is found is reached -/

/-- Both halves of the search are sound at every depth. -/
theorem reaches_of_search_found (depth : Nat) :
    (∀ file first rest scope asked symbol,
      table.searchName depth file (first :: rest) scope asked = .found symbol →
        table.Reaches (.name file (first :: rest) scope) symbol) ∧
    (∀ query asked symbol,
      table.searchExport depth query asked = .found symbol →
        table.Reaches (.exported query) symbol) := by
  induction depth with
  | zero => simp [searchName, searchExport]
  | succ depth ih =>
      obtain ⟨ofName, ofExport⟩ := ih
      constructor
      · intro file first rest scope asked symbol found
        rw [searchName] at found
        split at found
        next other declared =>
          obtain rfl : other = symbol := by simpa using found
          exact ⟨_, .refl, declaredIn?_eq_some_iff.mp declared⟩
        next undeclared =>
          obtain ⟨query, asks, before, answer⟩ := SearchResult.found_of_firstOf found
          have undeclared := declaredIn?_eq_none_iff.mp undeclared
          exact (ofExport query before symbol answer).head
            ((step_name_iff undeclared).mpr ⟨query, asks, rfl⟩)
      · intro query asked symbol found
        rw [searchExport] at found
        split at found
        · simp at found
        · split at found
          next parts bound =>
            obtain ⟨first, rest, rfl⟩ := exists_cons_of_localParts? bound
            exact (ofName _ first rest [] _ symbol found).head
              ((step_exported_iff_of_some bound).mpr rfl)
          next unbound =>
            obtain ⟨other, asks, before, answer⟩ := SearchResult.found_of_firstOf found
            exact (ofExport other before symbol answer).head
              ((step_exported_iff_of_none unbound).mpr ⟨other, asks, rfl⟩)

/-! ## What is not found is explored -/

/-- The questions that an exported name leads to while nothing is declared on the way. -/
def successors (table : SymbolTable) (query : ExportQuery) : List ExportQuery :=
  match table.localParts? query with
  | some parts => table.importQueries query.file parts
  | none => table.passedQueries query

/-- An exported name has no answer, and all that it leads to is on a list. -/
structure Expanded (table : SymbolTable) (asked : List ExportQuery) (query : ExportQuery) :
    Prop where
  /-- The name that it has in its file is declared nowhere. -/
  undeclared : ∀ parts, table.localParts? query = some parts →
    table.Undeclared query.file parts []
  /-- The questions that it leads to are listed. -/
  successors_subset : table.successors query ⊆ asked

/-- A list of questions grew by questions that lead only to listed ones. -/
structure Explored (table : SymbolTable) (before after : List ExportQuery) : Prop where
  /-- Nothing was taken off the list. -/
  subset : before ⊆ after
  /-- What is new on the list is without an answer. -/
  expanded : ∀ query ∈ after, query ∉ before → table.Expanded after query

theorem Expanded.mono {before after : List ExportQuery} {query : ExportQuery}
    (expanded : table.Expanded before query) (subset : before ⊆ after) :
    table.Expanded after query :=
  ⟨expanded.undeclared, List.Subset.trans expanded.successors_subset subset⟩

theorem Explored.refl (asked : List ExportQuery) : table.Explored asked asked :=
  ⟨List.Subset.refl asked, fun _ listed fresh => absurd listed fresh⟩

theorem Explored.trans {before middle after : List ExportQuery}
    (first : table.Explored before middle) (second : table.Explored middle after) :
    table.Explored before after := by
  refine ⟨List.Subset.trans first.subset second.subset, ?_⟩
  intro query listed fresh
  by_cases early : query ∈ middle
  · exact (first.expanded query early fresh).mono second.subset
  · exact second.expanded query listed early

/-- A list that grew behind a question that leads only to listed ones grew by it as well. -/
theorem Explored.of_cons {query : ExportQuery} {before after : List ExportQuery}
    (explored : table.Explored (query :: before) after) (expanded : table.Expanded after query) :
    table.Explored before after := by
  refine ⟨List.Subset.trans (List.subset_cons_self query before) explored.subset, ?_⟩
  intro other listed fresh
  by_cases same : other = query
  · exact same ▸ expanded
  · exact explored.expanded other listed (by simp [same, fresh])

/-- Asking questions one after the other explores them all, if each of them is explored when it is
asked. -/
theorem explored_of_firstOf_absent {ask : ExportQuery → List ExportQuery → SearchResult}
    (explores : ∀ query before after, ask query before = .absent after →
      table.Explored before after ∧ query ∈ after)
    {queries before after : List ExportQuery}
    (absent : SearchResult.firstOf ask queries before = .absent after) :
    table.Explored before after ∧ queries ⊆ after := by
  induction queries generalizing before with
  | nil =>
      obtain rfl : before = after := by simpa [SearchResult.firstOf] using absent
      exact ⟨.refl before, by simp⟩
  | cons query queries ih =>
      rw [SearchResult.firstOf] at absent
      cases outcome : ask query before with
      | found symbol => simp [outcome, SearchResult.orElse] at absent
      | exhausted => simp [outcome, SearchResult.orElse] at absent
      | absent middle =>
          rw [outcome] at absent
          obtain ⟨first, query_mem⟩ := explores query before middle outcome
          obtain ⟨later, queries_mem⟩ := ih absent
          exact ⟨first.trans later, List.cons_subset.mpr ⟨later.subset query_mem, queries_mem⟩⟩

/-- Both halves of the search explore what they ask when they end without a declaration. -/
theorem explored_of_search_absent (depth : Nat) :
    (∀ file parts scope before after,
      table.searchName depth file parts scope before = .absent after →
        table.Undeclared file parts scope ∧ table.Explored before after ∧
          table.importQueries file parts ⊆ after) ∧
    (∀ query before after,
      table.searchExport depth query before = .absent after →
        table.Explored before after ∧ query ∈ after) := by
  induction depth with
  | zero => simp [searchName, searchExport]
  | succ depth ih =>
      obtain ⟨ofName, ofExport⟩ := ih
      constructor
      · intro file parts scope before after absent
        rw [searchName] at absent
        split at absent
        · simp at absent
        next undeclared =>
          exact ⟨declaredIn?_eq_none_iff.mp undeclared, explored_of_firstOf_absent ofExport absent⟩
      · intro query before after absent
        rw [searchExport] at absent
        split at absent
        next asked =>
          obtain rfl : before = after := by simpa using absent
          exact ⟨.refl before, by simpa using asked⟩
        next fresh =>
          split at absent
          next parts bound =>
            obtain ⟨undeclared, explored, listed⟩ := ofName _ _ _ _ _ absent
            refine ⟨explored.of_cons ⟨?_, ?_⟩, explored.subset List.mem_cons_self⟩
            · intro others bound'
              obtain rfl : parts = others := by simpa [bound] using bound'
              exact undeclared
            · simpa [successors, bound] using listed
          next unbound =>
            obtain ⟨explored, listed⟩ := explored_of_firstOf_absent ofExport absent
            refine ⟨explored.of_cons ⟨?_, ?_⟩, explored.subset List.mem_cons_self⟩
            · simp [unbound]
            · simpa [successors, unbound] using listed

/-! ## Nothing can be reached from an explored list -/

/-- A question leads only to questions on a list. -/
def Barren (table : SymbolTable) (asked : List ExportQuery) : Question → Prop
  | .name file parts scope =>
      table.Undeclared file parts scope ∧ table.importQueries file parts ⊆ asked
  | .exported query => query ∈ asked

/-- A step from a question that leads only to listed ones stays with them. -/
theorem Barren.step {asked : List ExportQuery} (explored : table.Explored [] asked)
    {question next : Question} (barren : table.Barren asked question)
    (step : table.Step question next) : table.Barren asked next := by
  cases question with
  | name file parts scope =>
      obtain ⟨undeclared, listed⟩ := barren
      cases parts with
      | nil => cases step
      | cons first rest =>
          obtain ⟨query, asks, rfl⟩ := (step_name_iff undeclared).mp step
          exact listed asks
  | exported query =>
      have expanded := explored.expanded query barren (by simp)
      have listed := expanded.successors_subset
      cases bound : table.localParts? query with
      | some parts =>
          obtain rfl := (step_exported_iff_of_some bound).mp step
          refine ⟨expanded.undeclared parts bound, ?_⟩
          simpa [successors, bound] using listed
      | none =>
          obtain ⟨other, asks, rfl⟩ := (step_exported_iff_of_none bound).mp step
          rw [successors, bound] at listed
          exact listed asks

theorem Barren.not_answers {asked : List ExportQuery} {question : Question}
    (barren : table.Barren asked question) (symbol : Symbol) :
    ¬ table.Answers question symbol := by
  rintro ⟨enclosing, declared, _⟩
  simp [barren.1 _ enclosing] at declared

theorem Barren.path {asked : List ExportQuery} (explored : table.Explored [] asked)
    {question last : Question} (barren : table.Barren asked question)
    (path : Relation.ReflTransGen table.Step question last) : table.Barren asked last := by
  induction path with
  | refl => exact barren
  | tail _ step ih => exact ih.step explored step

theorem Barren.not_reaches {asked : List ExportQuery} (explored : table.Explored [] asked)
    {question : Question} (barren : table.Barren asked question) (symbol : Symbol) :
    ¬ table.Reaches question symbol := by
  rintro ⟨last, path, answer⟩
  exact (barren.path explored path).not_answers symbol answer

/-! ## The search as a whole -/

/-- The empty name means nothing. -/
theorem not_reaches_of_no_parts (file : String) (scope : List String) (symbol : Symbol) :
    ¬ table.Reaches (.name file [] scope) symbol := by
  rintro ⟨last, path, answer⟩
  obtain rfl | ⟨next, step, _⟩ := path.cases_head
  · cases answer
  · cases step

/-- A search that finds a symbol has reached it. -/
theorem reaches_of_found {depth : Nat} {file name : String} {scope : List String} {symbol : Symbol}
    (found : table.search depth file name scope = .found symbol) :
    table.Reaches (.ofName file name scope) symbol := by
  rw [search] at found
  split at found
  · simp at found
  next proper =>
    rw [Question.ofName, if_neg proper]
    obtain ⟨first, rest, split⟩ := List.exists_cons_of_ne_nil (Text.split_ne_nil '.' name)
    rw [split] at found ⊢
    exact (reaches_of_search_found depth).1 file first rest scope [] symbol found

/-- A search that ends without a symbol has none to reach. -/
theorem not_reaches_of_absent {depth : Nat} {file name : String} {scope : List String}
    {asked : List ExportQuery} (absent : table.search depth file name scope = .absent asked)
    (symbol : Symbol) : ¬ table.Reaches (.ofName file name scope) symbol := by
  rw [search] at absent
  split at absent
  next empty =>
    rw [Question.ofName, if_pos empty]
    exact not_reaches_of_no_parts file scope symbol
  next proper =>
    rw [Question.ofName, if_neg proper]
    obtain ⟨undeclared, explored, listed⟩ :=
      (explored_of_search_absent depth).1 file _ scope [] asked absent
    have barren : table.Barren asked (.name file (Text.split '.' name) scope) :=
      ⟨undeclared, listed⟩
    exact barren.not_reaches explored symbol

/-- A search that ends finds a symbol exactly when one is reached, and what it finds is reached. -/
theorem search_finds_what_is_reached (table : SymbolTable) (depth : Nat) (file name : String)
    (scope : List String) (ended : table.search depth file name scope ≠ .exhausted) :
    ((∃ symbol, table.search depth file name scope = .found symbol)
      ↔ ∃ symbol, table.Reaches (.ofName file name scope) symbol) ∧
    ∀ symbol, table.search depth file name scope = .found symbol →
      table.Reaches (.ofName file name scope) symbol := by
  refine ⟨⟨?_, ?_⟩, fun symbol found => reaches_of_found found⟩
  · rintro ⟨symbol, found⟩
    exact ⟨symbol, reaches_of_found found⟩
  · rintro ⟨symbol, reach⟩
    cases outcome : table.search depth file name scope with
    | found other => exact ⟨other, rfl⟩
    | absent asked => exact absurd reach (not_reaches_of_absent outcome symbol)
    | exhausted => exact absurd outcome ended

/-- Two files that pass each other on, and a declaration behind their circle. -/
def circularStars : SymbolTable :=
  { resolver :=
      { root := Path.absolute ["project"]
        options := {}
        files := ["a.ts", "b.ts", "c.ts", "u.ts"] }
    declared := [(("c.ts", "Kept"), ⟨"c:kept", .classType⟩)]
    bindings :=
      [("a.ts", { starExports := ["./b", "./c"] }),
        ("b.ts", { starExports := ["./a"] }),
        ("c.ts", { exports := [("Shown", "Kept")] }),
        ("u.ts", { imports := [("Shown", ⟨"Shown", "./a", .named, some "Shown", 1⟩)] })] }

/-- The search comes out of the circle and reaches the declaration. -/
theorem circularStars_search_finds :
    circularStars.search 8 "u.ts" "Shown" [] = .found ⟨"c:kept", .classType⟩ ∧
      circularStars.Reaches (.ofName "u.ts" "Shown" []) ⟨"c:kept", .classType⟩ := by
  have found : circularStars.search 8 "u.ts" "Shown" [] = .found ⟨"c:kept", .classType⟩ := by
    decide +kernel
  have ended : circularStars.search 8 "u.ts" "Shown" [] ≠ .exhausted := by
    rw [found]
    simp
  exact ⟨found, (search_finds_what_is_reached circularStars 8 "u.ts" "Shown" [] ended).2 _ found⟩

end SymbolTable

end CodeGraph
