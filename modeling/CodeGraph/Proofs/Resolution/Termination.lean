import CodeGraph.Proofs.Resolution.Moves
import Mathlib.Data.Finset.Card
import Mathlib.Data.Finset.Prod
import Mathlib.Data.Set.Finite.List

/-!
# Which searches end

A search remembers every question with the parts that stand behind it. An exported name that is
dotted in its file can put parts in front of those, so a circle of questions need not come back to
a question asked before: it may come back to a longer one. That is the only obstacle. All searches
of a table end exactly when no exported name leads back to itself with further parts behind it.

Without such a circle the states from which the parts behind a question were put on are all
different. This bounds their number, so only finitely many questions can come up.
-/

namespace CodeGraph

namespace SymbolTable

variable {table : SymbolTable}

/-- The search for a name ends at some depth. -/
def Ends (table : SymbolTable) (file name : String) (scope : List String) : Prop :=
  ∃ depth, table.search depth file name scope ≠ .exhausted

/-- An exported name leads back to itself with further parts behind it. -/
def HasGrowingCircle (table : SymbolTable) : Prop :=
  ∃ (query : ExportQuery) (more : List String), more ≠ [] ∧
    Relation.ReflTransGen table.Leads (query.withRest []) (query.withRest more)

/-! ## Without a growing circle parts do not pile up -/

/-- How the parts behind a question were put on: above the ground, each rung stands on the question
that it was put on from, and the parts of a rung are those that are left of what was put on. -/
inductive Climbs (table : SymbolTable) (states : Finset (String × String)) (ground : Nat) :
    ExportQuery → List ExportQuery → Prop
  /-- The parts are no more than at the beginning. -/
  | ground {query : ExportQuery} (low : query.rest.length ≤ ground) :
      Climbs table states ground query []
  /-- The question was put on from `base` and has `more` parts than it. -/
  | rung {query base : ExportQuery} {below : List ExportQuery} {more : List String}
      (lower : Climbs table states ground base below)
      (base_mem : base.state ∈ states)
      (rises : Relation.ReflTransGen table.Leads (base.withRest []) (query.withRest more))
      (grown : more ≠ [])
      (short : more.length ≤ table.longestLocal)
      (stands : query.rest = more ++ base.rest) :
      Climbs table states ground query (base :: below)

section Climbs

variable {states : Finset (String × String)} {ground : Nat} {query next : ExportQuery}
  {below : List ExportQuery}

/-- A sequence of steps that never looks at the parts behind a question stays on its rung. -/
theorem Climbs.level (climbs : table.Climbs states ground query below)
    (path : Relation.ReflTransGen table.Leads (query.withRest []) (next.withRest []))
    (same : next.rest = query.rest) : table.Climbs states ground next below := by
  cases climbs with
  | ground low => exact .ground (same ▸ low)
  | @rung _ base below more lower base_mem rises grown short stands =>
      have onward : Relation.ReflTransGen table.Leads (query.withRest more)
          (next.withRest more) := by
        simpa using leads_append path more
      exact .rung lower base_mem (rises.trans onward) grown short (same.trans stands)

/-- A step climbs, stays or goes down. -/
theorem Climbs.leads (climbs : table.Climbs states ground query below)
    (query_mem : query.state ∈ states) (leads : table.Leads query next) :
    ∃ below, table.Climbs states ground next below := by
  cases leads.move with
  | push pushed short moved uniform =>
      have onward := uniform []
      by_cases none : pushed = []
      · subst none
        exact ⟨below, climbs.level (.single (by simpa using onward)) (by simpa using moved)⟩
      · rw [List.append_nil] at onward
        exact ⟨query :: below, .rung climbs query_mem (.single onward) none short moved⟩
  | pop part moved uniform =>
      cases climbs with
      | ground low =>
          refine ⟨[], .ground ?_⟩
          rw [moved, List.length_cons] at low
          omega
      | @rung _ base below more lower base_mem rises grown short stands =>
          obtain ⟨first, left, rfl⟩ := List.exists_cons_of_ne_nil grown
          obtain ⟨rfl, left_eq⟩ := List.cons.inj (moved.symm.trans stands)
          have down := rises.tail (uniform left)
          by_cases none : left = []
          · subst none
            exact ⟨below, lower.level down (by simpa using left_eq)⟩
          · rw [List.length_cons] at short
            exact ⟨base :: below, .rung lower base_mem down none (by omega) left_eq⟩

theorem Climbs.length_rest_le (climbs : table.Climbs states ground query below) :
    query.rest.length ≤ ground + table.longestLocal * below.length := by
  induction climbs with
  | ground low => simpa using low
  | rung _ _ _ _ short stands ih =>
      rw [stands, List.length_append, List.length_cons, Nat.mul_succ]
      omega

/-- Every question below leads up to the one on top, with parts behind it. -/
theorem Climbs.rises (climbs : table.Climbs states ground query below) :
    ∀ lower ∈ below, ∃ more, more ≠ [] ∧
      Relation.ReflTransGen table.Leads (lower.withRest []) (query.withRest more) := by
  induction climbs with
  | ground _ => simp
  | @rung query base below more _ _ rises grown _ _ ih =>
      intro lower lower_mem
      rcases List.mem_cons.mp lower_mem with rfl | further
      · exact ⟨more, grown, rises⟩
      · obtain ⟨under, _, path⟩ := ih lower further
        have onward : Relation.ReflTransGen table.Leads (base.withRest under)
            (query.withRest (more ++ under)) := by
          simpa using leads_append rises under
        exact ⟨more ++ under, by simp [grown], path.trans onward⟩

/-- No state occurs twice below a question, unless there is a growing circle. -/
theorem Climbs.nodup (free : ¬ table.HasGrowingCircle)
    (climbs : table.Climbs states ground query below) :
    (below.map ExportQuery.state).Nodup := by
  induction climbs with
  | ground _ => simp
  | @rung query base below more lower _ _ _ _ _ ih =>
      rw [List.map_cons, List.nodup_cons]
      refine ⟨fun repeated => free ?_, ih⟩
      obtain ⟨twin, twin_mem, same⟩ := List.mem_map.mp repeated
      obtain ⟨under, grown, path⟩ := lower.rises twin twin_mem
      have twin_eq : twin.withRest under = base.withRest under := by
        simpa [ExportQuery.state, ExportQuery.withRest] using same
      exact ⟨twin, under, grown, twin_eq ▸ path⟩

theorem Climbs.state_mem (climbs : table.Climbs states ground query below) :
    ∀ lower ∈ below, lower.state ∈ states := by
  induction climbs with
  | ground _ => simp
  | rung _ base_mem _ _ _ _ ih => exact List.forall_mem_cons.mpr ⟨base_mem, ih⟩

/-- There are no more rungs than states, unless there is a growing circle. -/
theorem Climbs.length_below_le (free : ¬ table.HasGrowingCircle)
    (climbs : table.Climbs states ground query below) : below.length ≤ states.card := by
  have subset : (below.map ExportQuery.state).toFinset ⊆ states := by
    intro state listed
    obtain ⟨lower, lower_mem, rfl⟩ := List.mem_map.mp (List.mem_toFinset.mp listed)
    exact climbs.state_mem lower lower_mem
  have count := Finset.card_le_card subset
  rwa [List.toFinset_card_of_nodup (climbs.nodup free), List.length_map] at count

end Climbs

/-! ## Without a growing circle only finitely many questions come up -/

/-- Only finitely many questions of a bounded length are made of known words. -/
theorem finite_known (table : SymbolTable) (words : List String) (bound : Nat) :
    {query | table.Known words query ∧ query.rest.length ≤ bound}.Finite := by
  have rests : {rest : List {word // word ∈ words} | rest.length ≤ bound}.Finite :=
    List.finite_length_le _ bound
  have places := (table.resolver.files.toFinset ×ˢ words.toFinset).finite_toSet
  refine ((places.prod rests).image fun entry =>
    (⟨entry.1.1, entry.1.2, entry.2.map Subtype.val⟩ : ExportQuery)).subset ?_
  rintro query ⟨known, short⟩
  have listed : ∀ word ∈ query.rest, word ∈ words := fun word => @known.rest_subset word
  refine ⟨((query.file, query.exported), query.rest.attachWith (· ∈ words) listed), ?_, ?_⟩
  · simp [known.file_mem, known.exported_mem, short]
  · simp

/-- The questions that the import of a name leads to. -/
def Upcoming (table : SymbolTable) (file : String) (parts : List String) (query : ExportQuery) :
    Prop :=
  ∃ start ∈ table.importQueries file parts, Relation.ReflTransGen table.Leads start query

/-- A question that comes up is made of known words and stands on a ladder above the name. -/
theorem known_and_climbs_of_upcoming {file first : String} {rest : List String}
    {query : ExportQuery} (upcoming : table.Upcoming file (first :: rest) query) :
    table.Known (table.vocabulary (first :: rest)) query ∧
      ∃ below, table.Climbs
        (table.resolver.files.toFinset ×ˢ (table.vocabulary (first :: rest)).toFinset)
        rest.length query below := by
  obtain ⟨start, asks, path⟩ := upcoming
  induction path with
  | refl =>
      have words : first :: rest ⊆ table.vocabulary (first :: rest) := by
        intro word word_mem
        exact List.mem_append_left _ (List.mem_append_left _ word_mem)
      refine ⟨known_of_importQueries words asks, [], .ground ?_⟩
      have asks : start ∈ table.importQueries file (first :: ([] ++ rest)) := asks
      rcases importQueries_cases asks with
        ⟨pushed, short, moved, _⟩ | ⟨part, moved, _⟩
      · rw [List.length_eq_zero_iff.mp (Nat.le_zero.mp short)] at moved
        simp [moved]
      · simp [moved]
  | tail _ leads ih =>
      obtain ⟨known, below, climbs⟩ := ih
      refine ⟨known.leads leads, climbs.leads ?_ leads⟩
      simp [ExportQuery.state, known.file_mem, known.exported_mem]

/-- Without a growing circle only finitely many questions come up. -/
theorem finite_upcoming (free : ¬ table.HasGrowingCircle) (file first : String)
    (rest : List String) : {query | table.Upcoming file (first :: rest) query}.Finite := by
  let words := table.vocabulary (first :: rest)
  let states := table.resolver.files.toFinset ×ˢ words.toFinset
  have finite := table.finite_known words (rest.length + table.longestLocal * states.card)
  refine finite.subset ?_
  intro query upcoming
  obtain ⟨known, below, climbs⟩ := known_and_climbs_of_upcoming upcoming
  refine ⟨known, climbs.length_rest_le.trans ?_⟩
  exact Nat.add_le_add_left (Nat.mul_le_mul_left _ (climbs.length_below_le free)) _

/-! ## A search among finitely many questions ends -/

/-- Asking questions one after the other ends, if each of them ends whatever was asked since. -/
theorem firstOf_ne_exhausted {ask : ExportQuery → List ExportQuery → SearchResult}
    (grows : ∀ query before after, ask query before = .absent after → before ⊆ after)
    {queries asked : List ExportQuery}
    (ends : ∀ query ∈ queries, ∀ later, asked ⊆ later → ask query later ≠ .exhausted) :
    SearchResult.firstOf ask queries asked ≠ .exhausted := by
  induction queries generalizing asked with
  | nil => simp [SearchResult.firstOf]
  | cons query queries ih =>
      rw [SearchResult.firstOf]
      cases outcome : ask query asked with
      | found symbol => simp [SearchResult.orElse]
      | exhausted => exact absurd outcome (ends query List.mem_cons_self asked (List.Subset.refl _))
      | absent after =>
          rw [SearchResult.orElse]
          refine ih fun other other_mem later subset => ?_
          have grown := grows query asked after outcome
          exact ends other (List.mem_cons_of_mem query other_mem) later
            (List.Subset.trans grown subset)

theorem subset_of_searchExport_absent (depth : Nat) (query : ExportQuery)
    (before after : List ExportQuery)
    (absent : table.searchExport depth query before = .absent after) : before ⊆ after :=
  ((explored_of_search_absent depth).2 query before after absent).1.subset

/-- A search ends that has depth enough for the questions that are not asked yet. Each of them
takes two levels: one for the exported name and one for its name in the file. -/
theorem searchExport_ne_exhausted {questions : Finset ExportQuery}
    (closed : ∀ query ∈ questions, ∀ next, table.Leads query next → next ∈ questions)
    (left : Nat) {depth : Nat} {query : ExportQuery} {asked : List ExportQuery}
    (deep : 2 * left < depth) (query_mem : query ∈ questions)
    (count : (questions \ asked.toFinset).card ≤ left) :
    table.searchExport depth query asked ≠ .exhausted := by
  induction left generalizing depth query asked with
  | zero =>
      obtain ⟨depth, rfl⟩ := Nat.exists_eq_succ_of_ne_zero (Nat.ne_of_gt deep)
      have all_asked := Finset.sdiff_eq_empty_iff_subset.mp
        (Finset.card_eq_zero.mp (Nat.le_zero.mp count))
      have query_asked : query ∈ asked := List.mem_toFinset.mp (all_asked query_mem)
      simp [searchExport, query_asked]
  | succ left ih =>
      obtain ⟨depth, rfl⟩ := Nat.exists_eq_succ_of_ne_zero (Nat.ne_zero_of_lt deep)
      rw [searchExport]
      split
      · simp
      next fresh =>
        have fewer : (questions \ (query :: asked).toFinset).card ≤ left := by
          have query_left : query ∈ questions \ asked.toFinset := by
            simpa [query_mem] using fresh
          rw [List.toFinset_cons, Finset.sdiff_insert, Finset.card_erase_of_mem query_left]
          omega
        have ends : ∀ lower, 2 * left < lower → ∀ next, table.Leads query next →
            ∀ later, query :: asked ⊆ later →
              table.searchExport lower next later ≠ .exhausted := by
          intro lower lower_deep next leads later subset
          refine ih lower_deep (closed query query_mem next leads) ?_
          refine (Finset.card_le_card (Finset.sdiff_subset_sdiff (Finset.Subset.refl _) ?_)).trans
            fewer
          intro other
          simpa using @subset other
        split
        next parts bound =>
          obtain ⟨lower, rfl⟩ := Nat.exists_eq_succ_of_ne_zero (show depth ≠ 0 by omega)
          rw [searchName]
          split
          · simp
          · refine firstOf_ne_exhausted (subset_of_searchExport_absent lower) ?_
            intro next asks
            refine ends lower (by omega) next ?_
            simpa [Leads, successors, bound] using asks
        next unbound =>
          refine firstOf_ne_exhausted (subset_of_searchExport_absent depth) ?_
          intro next asks
          refine ends depth (by omega) next ?_
          simpa [Leads, successors, unbound] using asks

/-- Without a growing circle every search ends. -/
theorem ends_of_no_growing_circle (free : ¬ table.HasGrowingCircle) (file name : String)
    (scope : List String) : table.Ends file name scope := by
  obtain ⟨first, rest, split⟩ := List.exists_cons_of_ne_nil (Text.split_ne_nil '.' name)
  have finite := finite_upcoming free file first rest
  refine ⟨2 * finite.toFinset.card + 2, ?_⟩
  rw [search, split]
  split
  · simp
  · rw [searchName]
    split
    · simp
    · refine firstOf_ne_exhausted (subset_of_searchExport_absent _) ?_
      have closed : ∀ query ∈ finite.toFinset, ∀ next, table.Leads query next →
          next ∈ finite.toFinset := by
        intro query upcoming next leads
        obtain ⟨start, asks, path⟩ := finite.mem_toFinset.mp upcoming
        exact finite.mem_toFinset.mpr ⟨start, asks, path.tail leads⟩
      intro query asks later _
      refine searchExport_ne_exhausted closed finite.toFinset.card (by omega) ?_
        (Finset.card_le_card Finset.sdiff_subset)
      exact finite.mem_toFinset.mpr ⟨query, asks, .refl⟩

/-- A step puts no parts behind a name if no exported name is dotted in its file. -/
theorem Leads.length_rest_le
    (plain : ∀ file exported name,
      (table.bindingsOf file).exports.get? exported = some name → '.' ∉ name.toList)
    {query next : ExportQuery} (leads : table.Leads query next) :
    next.rest.length ≤ query.rest.length := by
  simp only [Leads, successors] at leads
  split at leads
  next parts bound =>
    obtain ⟨name, exports, rfl⟩ := Option.map_eq_some_iff.mp bound
    have single := Text.split_eq_singleton '.' (plain query.file query.exported name exports)
    have asks : next ∈ table.importQueries query.file (name :: ([] ++ query.rest)) := by
      simpa [single] using leads
    rcases importQueries_cases asks with ⟨pushed, short, moved, _⟩ | ⟨part, moved, _⟩
    · rw [List.length_nil] at short
      rw [moved, List.length_append]
      omega
    · rw [moved, List.length_cons]
      omega
  next =>
    rcases passedQueries_cases leads with ⟨moved, _⟩ | ⟨part, moved, _⟩
    · rw [moved]
    · rw [moved, List.length_cons]
      omega

/-- Every search ends if no exported name is dotted in its file. -/
theorem ends_of_plain_exports
    (plain : ∀ file exported name,
      (table.bindingsOf file).exports.get? exported = some name → '.' ∉ name.toList)
    (file name : String) (scope : List String) : table.Ends file name scope := by
  refine ends_of_no_growing_circle ?_ file name scope
  rintro ⟨query, more, grown, circle⟩
  have bounded : ∀ last, Relation.ReflTransGen table.Leads (query.withRest []) last →
      last.rest.length ≤ 0 := by
    intro last path
    induction path with
    | refl => simp
    | tail _ leads ih => exact (leads.length_rest_le plain).trans ih
  have empty := bounded _ circle
  exact grown (List.length_eq_zero_iff.mp (Nat.le_zero.mp empty))

/-! ## A growing circle keeps a search from ending -/

/-- A word that occurs nowhere in the program. -/
structure Unused (table : SymbolTable) (word : String) : Prop where
  /-- It is a single part. -/
  plain : '.' ∉ word.toList
  /-- No declared name ends in it. -/
  undeclared : ∀ file front,
    table.lookup? file (String.intercalate "." (front ++ [word])) = none
  /-- No file exports it. -/
  unexported : ∀ file, (table.bindingsOf file).exports.get? word = none
  /-- No file passes it on. -/
  notPassed : ∀ file, (table.bindingsOf file).reexports.get? word = none

/-- The names that a program declares, exports or passes on. -/
def givenNames (table : SymbolTable) : List String :=
  table.declared.map (·.1.2) ++ table.bindings.flatMap fun entry =>
    entry.2.exports.keys ++ entry.2.reexports.keys

theorem mem_givenNames_of_declared {file name : String} {symbol : Symbol}
    (declared : table.lookup? file name = some symbol) : name ∈ table.givenNames := by
  obtain ⟨before, after, entries, _⟩ := List.lookup_eq_some_iff.mp declared
  simp [givenNames, entries]

theorem mem_givenNames_of_exported {file exported name : String}
    (bound : (table.bindingsOf file).exports.get? exported = some name) :
    exported ∈ table.givenNames := by
  refine List.mem_append_right _ (List.mem_flatMap.mpr ⟨_, mem_bindings_of_get? rfl bound, ?_⟩)
  exact List.mem_append_left _ (List.mem_map.mpr ⟨_, Ordered.mem_of_get? bound, rfl⟩)

theorem mem_givenNames_of_passed {file exported : String} {reexport : Reexport}
    (passed : (table.bindingsOf file).reexports.get? exported = some reexport) :
    exported ∈ table.givenNames := by
  refine List.mem_append_right _ (List.mem_flatMap.mpr ⟨_, mem_bindings_of_get? rfl passed, ?_⟩)
  exact List.mem_append_right _ (List.mem_map.mpr ⟨_, Ordered.mem_of_get? passed, rfl⟩)

/-- A word that is longer than every name of the program occurs nowhere in it. -/
theorem unused_of_longer {word : String} (plain : '.' ∉ word.toList)
    (longer : ∀ name ∈ table.givenNames, name.length < word.length) : table.Unused word := by
  have missing : ∀ name, word.length ≤ name.length → name ∉ table.givenNames := by
    intro name long given
    have := longer name given
    omega
  refine ⟨plain, ?_, ?_, ?_⟩
  · intro file front
    have long : word.length ≤ (String.intercalate "." (front ++ [word])).length := by
      by_cases none : front = []
      · simp [none]
      · rw [String.intercalate_append_of_ne_nil none (by simp)]
        simp
    refine Option.eq_none_iff_forall_ne_some.mpr fun symbol declared => missing _ long ?_
    exact mem_givenNames_of_declared declared
  · intro file
    refine Option.eq_none_iff_forall_ne_some.mpr fun name bound => ?_
    exact missing word le_rfl (mem_givenNames_of_exported bound)
  · intro file
    refine Option.eq_none_iff_forall_ne_some.mpr fun reexport passed => ?_
    exact missing word le_rfl (mem_givenNames_of_passed passed)

theorem exists_unused (table : SymbolTable) : ∃ word, table.Unused word := by
  let longest := (table.givenNames.map String.length).foldr max 0
  refine ⟨String.ofList (List.replicate (longest + 1) 'x'), unused_of_longer (by simp) ?_⟩
  intro name given
  have short : name.length ≤ longest :=
    List.le_max_of_le' 0 (List.mem_map.mpr ⟨name, given, rfl⟩) le_rfl
  simp only [String.length_ofList, List.length_replicate]
  omega

/-- The last part of a question is the given word; a name has further parts before it. -/
def EndsIn (word : String) : Question → Prop
  | .name _ parts _ => ∃ front, front ≠ [] ∧ parts = front ++ [word]
  | .exported query => ∃ front, query.exported :: query.rest = front ++ [word]

/-- A step keeps an unused word at the end. -/
theorem EndsIn.step {word : String} (unused : table.Unused word) {question next : Question}
    (endsIn : EndsIn word question) (step : table.Step question next) : EndsIn word next := by
  cases step with
  | imported =>
      obtain ⟨front, nonempty, parts_eq⟩ := endsIn
      obtain ⟨first, front, rfl⟩ := List.exists_cons_of_ne_nil nonempty
      exact ⟨_ :: front, congrArg _ (List.cons.inj parts_eq).2⟩
  | whole =>
      obtain ⟨front, nonempty, parts_eq⟩ := endsIn
      obtain ⟨first, front, rfl⟩ := List.exists_cons_of_ne_nil nonempty
      exact ⟨_ :: front, congrArg _ (List.cons.inj parts_eq).2⟩
  | member =>
      obtain ⟨front, nonempty, parts_eq⟩ := endsIn
      obtain ⟨first, front, rfl⟩ := List.exists_cons_of_ne_nil nonempty
      exact ⟨front, (List.cons.inj parts_eq).2⟩
  | @localName query name bound =>
      obtain ⟨front, parts_eq⟩ := endsIn
      cases front with
      | nil =>
          obtain ⟨exported_eq, _⟩ := List.cons.inj parts_eq
          simp [exported_eq, unused.unexported] at bound
      | cons first front =>
          have rest_eq : query.rest = front ++ [word] := (List.cons.inj parts_eq).2
          refine ⟨Text.split '.' name ++ front, by simp [Text.split_ne_nil], ?_⟩
          rw [rest_eq, List.append_assoc]
  | reexported _ passed =>
      obtain ⟨front, parts_eq⟩ := endsIn
      cases front with
      | nil =>
          obtain ⟨exported_eq, _⟩ := List.cons.inj parts_eq
          simp [exported_eq, unused.notPassed] at passed
      | cons first front => exact ⟨_ :: front, congrArg _ (List.cons.inj parts_eq).2⟩
  | memberOfReexported =>
      obtain ⟨front, parts_eq⟩ := endsIn
      cases front with
      | nil => simp at parts_eq
      | cons first front => exact ⟨front, (List.cons.inj parts_eq).2⟩
  | star => exact endsIn

theorem EndsIn.path {word : String} (unused : table.Unused word) {question last : Question}
    (endsIn : EndsIn word question) (path : Relation.ReflTransGen table.Step question last) :
    EndsIn word last := by
  induction path with
  | refl => exact endsIn
  | tail _ step ih => exact ih.step unused step

/-- A name that ends in an unused word means nothing. -/
theorem EndsIn.not_reaches {word : String} (unused : table.Unused word) {question : Question}
    (endsIn : EndsIn word question) (symbol : Symbol) : ¬ table.Reaches question symbol := by
  rintro ⟨last, path, answer⟩
  have last_endsIn := endsIn.path unused path
  cases answer with
  | innermost enclosing declared inside =>
      obtain ⟨front, _, parts_eq⟩ := last_endsIn
      rw [parts_eq, ← List.append_assoc, unused.undeclared] at declared
      simp at declared

/-- A sequence of steps that puts parts behind a name goes through an import. -/
theorem exists_import_of_leads {query last : ExportQuery} (bare : query.rest = [])
    (grown : last.rest ≠ []) (path : Relation.ReflTransGen table.Leads query last) :
    ∃ file name, ∃ start ∈ table.importQueries file (Text.split '.' name),
      Relation.ReflTransGen table.Leads start last := by
  induction path using Relation.ReflTransGen.head_induction_on with
  | refl => exact absurd bare grown
  | @head query next leads path ih =>
      cases bound : table.localParts? query with
      | some parts =>
          obtain ⟨name, _, parts_eq⟩ := Option.map_eq_some_iff.mp bound
          rw [bare, List.append_nil] at parts_eq
          refine ⟨query.file, name, next, ?_, path⟩
          simpa [Leads, successors, bound, parts_eq] using leads
      | none =>
          have asks : next ∈ table.passedQueries query := by
            simpa [Leads, successors, bound] using leads
          rcases passedQueries_cases asks with ⟨moved, _⟩ | ⟨part, moved, _⟩
          · exact ih (moved.trans bare)
          · simp [bare] at moved

/-- An explored list is closed under steps. -/
theorem Explored.leads {asked : List ExportQuery} (explored : table.Explored [] asked)
    {query last : ExportQuery} (query_mem : query ∈ asked)
    (path : Relation.ReflTransGen table.Leads query last) : last ∈ asked := by
  induction path with
  | refl => exact query_mem
  | tail _ leads ih => exact (explored.expanded _ ih (by simp)).successors_subset leads

/-- No list of questions is explored that a growing circle begins on. -/
theorem Explored.not_mem_circle {asked : List ExportQuery} (explored : table.Explored [] asked)
    {query : ExportQuery} {more : List String} (grown : more ≠ [])
    (circle : Relation.ReflTransGen table.Leads (query.withRest []) (query.withRest more))
    (rest : List String) : query.withRest rest ∉ asked := by
  intro listed
  -- Each turn of the circle puts its parts on once more.
  have turns : ∀ count, ∃ rest, count ≤ rest.length ∧ query.withRest rest ∈ asked := by
    intro count
    induction count with
    | zero => exact ⟨rest, Nat.zero_le _, listed⟩
    | succ count ih =>
        obtain ⟨rest, long, rest_mem⟩ := ih
        have turn : Relation.ReflTransGen table.Leads (query.withRest rest)
            (query.withRest (more ++ rest)) := by
          simpa using leads_append circle rest
        refine ⟨more ++ rest, ?_, explored.leads rest_mem turn⟩
        have := List.length_pos_iff.mpr grown
        rw [List.length_append]
        omega
  obtain ⟨rest, long, rest_mem⟩ := turns ((asked.map (·.rest.length)).foldr max 0 + 1)
  have short : rest.length ≤ (asked.map (·.rest.length)).foldr max 0 :=
    List.le_max_of_le' 0 (List.mem_map.mpr ⟨_, rest_mem, rfl⟩) le_rfl
  omega

/-- The search for a name that means nothing does not end if its import leads to a growing
circle. -/
theorem not_ends_of_circle {file name : String} {scope : List String} {start query : ExportQuery}
    {rest more : List String} (proper : name.isEmpty = false)
    (meaningless : ∀ symbol, ¬ table.Reaches (.ofName file name scope) symbol)
    (asks : start ∈ table.importQueries file (Text.split '.' name))
    (path : Relation.ReflTransGen table.Leads start (query.withRest rest)) (grown : more ≠ [])
    (circle : Relation.ReflTransGen table.Leads (query.withRest []) (query.withRest more)) :
    ¬ table.Ends file name scope := by
  rintro ⟨depth, ended⟩
  cases outcome : table.search depth file name scope with
  | exhausted => exact ended outcome
  | found symbol => exact meaningless symbol (reaches_of_found outcome)
  | absent asked =>
      simp only [search, proper] at outcome
      obtain ⟨_, explored, listed⟩ := (explored_of_search_absent depth).1 _ _ _ _ _ outcome
      exact explored.not_mem_circle grown circle rest (explored.leads (listed asks) path)

/-- A growing circle keeps the search for some name from ending. -/
theorem exists_not_ends_of_growing_circle (growing : table.HasGrowingCircle) :
    ∃ file name, ¬ table.Ends file name [] := by
  obtain ⟨query, more, grown, circle⟩ := growing
  obtain ⟨file, name, start, asks, path⟩ := exists_import_of_leads rfl grown circle
  obtain ⟨word, unused⟩ := table.exists_unused
  have split_eq : Text.split '.' (name ++ "." ++ word) = Text.split '.' name ++ [word] := by
    rw [show "." = String.singleton '.' from rfl, Text.split_append,
      Text.split_eq_singleton '.' unused.plain]
  have proper : (name ++ "." ++ word).isEmpty = false := by
    simp
  have endsIn : EndsIn word (.ofName file (name ++ "." ++ word) []) := by
    simp only [Question.ofName, proper, split_eq]
    exact ⟨_, Text.split_ne_nil '.' name, rfl⟩
  have asks_behind : start.withRest (start.rest ++ [word])
      ∈ table.importQueries file (Text.split '.' (name ++ "." ++ word)) := by
    obtain ⟨first, front, split⟩ := List.exists_cons_of_ne_nil (Text.split_ne_nil '.' name)
    rw [split_eq]
    rw [split] at asks ⊢
    exact importQueries_append asks [word]
  exact ⟨file, name ++ "." ++ word, not_ends_of_circle proper (endsIn.not_reaches unused)
    asks_behind (leads_append path [word]) grown circle⟩

/-- All searches end exactly when no exported name leads back to itself with further parts. -/
theorem searches_end_iff_no_growing_circle (table : SymbolTable) :
    (∀ file name scope, table.Ends file name scope) ↔ ¬ table.HasGrowingCircle := by
  constructor
  · intro ends growing
    obtain ⟨file, name, endless⟩ := exists_not_ends_of_growing_circle growing
    exact endless (ends file name [])
  · intro free file name scope
    exact ends_of_no_growing_circle free file name scope

/-- A file that imports its own default export as `A` and exports the namespace `A.B` as its
default. -/
def selfImporting : Syntax.Source :=
  { path := "a.ts"
    bytes := "import A from './a';\nexport default namespace A.B \x7b\x7d\n".toUTF8
    root :=
      ⟨none, "program", true, 0, 53,
        [⟨none, "import_statement", true, 0, 20,
            [⟨none, "import_clause", true, 7, 8, [⟨none, "identifier", true, 7, 8, []⟩]⟩,
              ⟨some "source", "string", true, 14, 19, []⟩]⟩,
          ⟨none, "export_statement", true, 21, 52,
            [⟨none, "default", false, 28, 35, []⟩,
              ⟨some "declaration", "internal_module", true, 36, 52,
                [⟨some "name", "nested_identifier", true, 46, 49, []⟩,
                  ⟨some "body", "statement_block", true, 50, 52, []⟩]⟩]⟩]⟩ }

/-- A program with this file alone. -/
def selfImportingTable : SymbolTable :=
  { resolver := { root := Path.absolute ["project"], options := {}, files := ["a.ts"] }
    bindings := [("a.ts", selfImporting.bindings)] }

/-- The search for what the file imports asks for `A.B`, then for `A.B.B`, and so on. -/
theorem selfImporting_search_never_ends : ¬ selfImportingTable.Ends "a.ts" "A" [] := by
  let query : ExportQuery := ⟨"a.ts", "default", []⟩
  have turn : selfImportingTable.Leads (query.withRest []) (query.withRest ["B"]) := by
    unfold Leads
    decide +kernel
  have meaningless : ∀ symbol,
      ¬ selfImportingTable.Reaches (.ofName "a.ts" "A" []) symbol := by
    rintro symbol ⟨last, _, answer⟩
    cases answer with
    | innermost _ declared _ => simp [selfImportingTable, lookup?] at declared
  have asks : query.withRest [] ∈ selfImportingTable.importQueries "a.ts" (Text.split '.' "A") := by
    decide +kernel
  exact not_ends_of_circle rfl meaningless asks .refl (by simp) (.single turn)

end SymbolTable

end CodeGraph
