import CodeGraph.Inventory.Scan
import CodeGraph.Proofs.Files.Leaves
import CodeGraph.Proofs.Files.Names

/-!
# What an inventory lists

The scope of an inventory is told place by place: what stands there, what it is called, and that
neither it nor anything above it is excluded. The walk that prunes directories on its way finds
exactly the places in scope, each once, and the inventory has their paths in order.
-/

namespace CodeGraph

namespace Inventory

/-- What stands at a path is no directory, and no link that leads to one. -/
def IsNoDirectory (tree : FileTree) (path : Path) : Entry → Prop
  | .file _ => True
  | .link _ => leadsToDirectory tree path = false
  | .directory _ => False

/-- The place below a directory, which itself stands at `front` below the root of a project, is in
scope. -/
structure InScope (tree : FileTree) (root : Path) (rules : List ExcludeRule) (front : List String)
    (directory : Entry) (place : List String) : Prop where
  /-- Something stands there, and it is no directory. -/
  stands : ∃ entry, directory.at? place = some entry ∧
    IsNoDirectory tree { root with segments := root.segments ++ (front ++ place) } entry
  /-- It is called like a source file. -/
  named : isSourceName (place.getLastD "") = true
  /-- No rule excludes it as a file. -/
  kept : ∀ rule ∈ rules, rule.excludes (PathText.ofSegments (front ++ place)) false = false
  /-- All that is above it below the directory is a directory itself, not a link, and no rule
  excludes it as a directory. -/
  open_above : ∀ above, above ≠ [] → above <+: place → above ≠ place →
    (∃ entries, directory.at? above = some (.directory entries)) ∧
      ∀ rule ∈ rules, rule.excludes (PathText.ofSegments (front ++ above)) true = false

variable {tree : FileTree} {root : Path} {rules more : List ExcludeRule} {front place : List String}
  {entries : List (String × Entry)} {name path : String} {entry directory : Entry}

theorem isExcluded_eq_false_iff {isDirectory : Bool} :
    isExcluded rules path isDirectory = false ↔
      ∀ rule ∈ rules, rule.excludes path isDirectory = false := by
  simp [isExcluded]

namespace InScope

/-- More rules leave less in scope. -/
theorem anti (subset : rules ⊆ more) (scope : InScope tree root more front directory place) :
    InScope tree root rules front directory place where
  stands := scope.stands
  named := scope.named
  kept := fun rule present => scope.kept rule (subset present)
  open_above := fun above nonempty below ne =>
    ⟨(scope.open_above above nonempty below ne).1,
      fun rule present => (scope.open_above above nonempty below ne).2 rule (subset present)⟩

theorem ne_nil (scope : InScope tree root rules front (.directory entries) place) : place ≠ [] := by
  rintro rfl
  obtain ⟨_, stands, no_directory⟩ := scope.stands
  obtain rfl := Option.some.inj stands
  exact no_directory

/-- An entry of a directory is in scope as it stands there. -/
theorem singleton_iff :
    InScope tree root rules front (.directory entries) [name] ↔
      ∃ entry, entries.lookup name = some entry ∧
        IsNoDirectory tree { root with segments := root.segments ++ (front ++ [name]) } entry ∧
        isSourceName name = true ∧
        isExcluded rules (PathText.ofSegments (front ++ [name])) false = false := by
  have at_name : (Entry.directory entries).at? [name] = entries.lookup name := by
    cases found : entries.lookup name <;> simp [Entry.at?, Entry.entries, found]
  constructor
  · rintro ⟨⟨entry, stands, no_directory⟩, named, kept, _⟩
    exact ⟨entry, at_name ▸ stands, no_directory, named, isExcluded_eq_false_iff.mpr kept⟩
  · rintro ⟨entry, found, no_directory, named, kept⟩
    refine ⟨⟨entry, at_name.trans found, no_directory⟩, named, isExcluded_eq_false_iff.mp kept, ?_⟩
    intro above nonempty below ne
    rcases List.prefix_cons_iff.mp below with rfl | ⟨rest, rfl, inside⟩
    · exact absurd rfl nonempty
    · exact absurd (by rw [List.prefix_nil.mp inside]) ne

/-- A place further down is in scope if it is so in the directory on the way, which is open. -/
theorem cons_iff (deeper : place ≠ []) :
    InScope tree root rules front (.directory entries) (name :: place) ↔
      ∃ inner, entries.lookup name = some (.directory inner) ∧
        isExcluded rules (PathText.ofSegments (front ++ [name])) true = false ∧
        InScope tree root rules (front ++ [name]) (.directory inner) place := by
  have at_below : ∀ inner rest, entries.lookup name = some inner →
      (Entry.directory entries).at? (name :: rest) = inner.at? rest := by
    intro inner rest found
    simp [Entry.at?, Entry.entries, found]
  obtain ⟨next, rest, rfl⟩ := List.exists_cons_of_ne_nil deeper
  constructor
  · rintro ⟨⟨entry, stands, no_directory⟩, named, kept, open_above⟩
    obtain ⟨⟨inner, stands_above⟩, open_first⟩ := open_above [name] (by simp) (by simp) (by simp)
    have found : entries.lookup name = some (.directory inner) := by
      obtain ⟨_, found, same⟩ := Option.bind_eq_some_iff.mp stands_above
      rw [Entry.at?] at same
      exact Option.some.inj same ▸ found
    refine ⟨inner, found, isExcluded_eq_false_iff.mpr open_first,
      ⟨entry, at_below _ _ found ▸ stands, ?_⟩, named, ?_, ?_⟩
    · simpa using no_directory
    · simpa using kept
    · intro above nonempty below ne
      have further :=
        open_above (name :: above) (by simp) (by simpa using below) (by simpa using ne)
      rw [at_below _ _ found] at further
      simpa using further
  · rintro ⟨inner, found, open_first, ⟨entry, stands, no_directory⟩, named, kept, open_above⟩
    refine ⟨⟨entry, (at_below _ _ found).trans stands, ?_⟩, named, ?_, ?_⟩
    · simpa using no_directory
    · simpa using kept
    · intro above nonempty below ne
      rcases List.prefix_cons_iff.mp below with rfl | ⟨after, rfl, inside⟩
      · exact absurd rfl nonempty
      · cases after with
        | nil => exact ⟨⟨inner, at_below _ _ found⟩, isExcluded_eq_false_iff.mp open_first⟩
        | cons second after =>
            rw [at_below _ _ found]
            simpa using open_above (second :: after) (by simp) inside (by simpa using ne)

end InScope

/-! ## The walk finds what is in scope -/

section Walk

variable {linksToDirectory : String → Bool}

theorem mem_walkAll_iff {directory : String} :
    path ∈ walkAll rules linksToDirectory directory entries ↔
      ∃ name entry, (name, entry) ∈ entries ∧
        path ∈ walk rules linksToDirectory directory name entry := by
  induction entries with
  | nil => simp [walkAll]
  | cons first entries ih =>
      obtain ⟨name, entry⟩ := first
      simp only [walkAll, List.mem_append, ih, List.mem_cons, Prod.mk.injEq]
      constructor
      · rintro (here | ⟨_, _, later, below⟩)
        · exact ⟨name, entry, .inl ⟨rfl, rfl⟩, here⟩
        · exact ⟨_, _, .inr later, below⟩
      · rintro ⟨_, _, ⟨rfl, rfl⟩ | later, below⟩
        · exact .inl below
        · exact .inr ⟨_, _, later, below⟩

/-- The path of a name in a directory of names. -/
theorem pathIn_ofSegments (proper : ∀ name ∈ front, Path.IsName name) (name : String) :
    pathIn (PathText.ofSegments front) name = PathText.ofSegments (front ++ [name]) := by
  cases front with
  | nil => simp [pathIn, PathText.ofSegments]
  | cons first rest =>
      have nonempty : PathText.ofSegments (first :: rest) ≠ "" := fun empty =>
        List.cons_ne_nil first rest ((Path.ofSegments_eq_empty_iff proper).mp empty)
      rw [pathIn, if_neg (by simpa using nonempty), PathText.ofSegments, PathText.ofSegments,
        String.intercalate_append_of_ne_nil (by simp) (by simp), String.intercalate_singleton]

/-- The test for links to directories looks at what stands at a path below the root. -/
def TellsLinks (tree : FileTree) (root : Path) (linksToDirectory : String → Bool) : Prop :=
  ∀ place, place ≠ [] → (∀ name ∈ place, Path.IsName name) →
    linksToDirectory (PathText.ofSegments place)
      = leadsToDirectory tree { root with segments := root.segments ++ place }

/-- Wherever the entry stands, a walk through it finds the places in scope at and below it. -/
def WalksScope (tree : FileTree) (root : Path) (rules : List ExcludeRule)
    (linksToDirectory : String → Bool) (entry : Entry) : Prop :=
  ∀ front name entries, (∀ segment ∈ front ++ [name], Path.IsName segment) →
    entries.lookup name = some entry → ∀ path,
      path ∈ walk rules linksToDirectory (PathText.ofSegments front) name entry ↔
        ∃ place, InScope tree root rules front (.directory entries) (name :: place) ∧
          path = PathText.ofSegments (front ++ name :: place)

/-- A walk through a directory finds what it finds in its entries. -/
theorem mem_walkAll_iff_inScope (proper : (Entry.directory entries).Proper)
    (proper_front : ∀ segment ∈ front, Path.IsName segment)
    (walks : ∀ name entry, (name, entry) ∈ entries →
      WalksScope tree root rules linksToDirectory entry) :
    path ∈ walkAll rules linksToDirectory (PathText.ofSegments front) entries ↔
      ∃ place, InScope tree root rules front (.directory entries) place ∧
        path = PathText.ofSegments (front ++ place) := by
  have proper_below : ∀ {name entry}, entries.lookup name = some entry →
      ∀ segment ∈ front ++ [name], Path.IsName segment := by
    intro name entry found segment present
    rcases List.mem_append.mp present with above | last
    · exact proper_front segment above
    · exact List.mem_singleton.mp last ▸ (proper.of_lookup found).1
  rw [mem_walkAll_iff]
  constructor
  · rintro ⟨name, entry, present, below⟩
    have found := proper.mem_iff_lookup.mp present
    obtain ⟨place, scope, path_eq⟩ :=
      (walks name entry present front name entries (proper_below found) found path).mp below
    exact ⟨name :: place, scope, path_eq⟩
  · rintro ⟨place, scope, path_eq⟩
    obtain ⟨name, rest, rfl⟩ := List.exists_cons_of_ne_nil scope.ne_nil
    obtain ⟨_, stands, _⟩ := scope.stands
    obtain ⟨entry, found, _⟩ := Option.bind_eq_some_iff.mp stands
    have present := proper.mem_iff_lookup.mpr found
    exact ⟨name, entry, present,
      (walks name entry present front name entries (proper_below found) found path).mpr
        ⟨rest, scope, path_eq⟩⟩

/-- What is no directory is in scope as it stands or not at all. -/
theorem exists_inScope_iff_of_leaf (found : entries.lookup name = some entry)
    (leaf : entry.isLeaf = true) :
    (∃ place, InScope tree root rules front (.directory entries) (name :: place) ∧
        path = PathText.ofSegments (front ++ name :: place)) ↔
      IsNoDirectory tree { root with segments := root.segments ++ (front ++ [name]) } entry ∧
        (isSourceName name = true ∧
          isExcluded rules (PathText.ofSegments (front ++ [name])) false = false) ∧
        path = PathText.ofSegments (front ++ [name]) := by
  constructor
  · rintro ⟨place, scope, path_eq⟩
    by_cases deeper : place = []
    · subst deeper
      obtain ⟨_, found', no_directory, named, kept⟩ := InScope.singleton_iff.mp scope
      obtain rfl := Option.some.inj (found.symm.trans found')
      exact ⟨no_directory, ⟨named, kept⟩, path_eq⟩
    · obtain ⟨inner, found', _⟩ := (InScope.cons_iff deeper).mp scope
      obtain rfl := Option.some.inj (found.symm.trans found')
      exact absurd leaf Bool.false_ne_true
  · rintro ⟨no_directory, ⟨named, kept⟩, path_eq⟩
    exact ⟨[], InScope.singleton_iff.mpr ⟨entry, found, no_directory, named, kept⟩, path_eq⟩

/-- Below a directory there is something in scope only if it is open. -/
theorem exists_inScope_iff_of_directory {inner : List (String × Entry)}
    (found : entries.lookup name = some (.directory inner)) :
    (∃ place, InScope tree root rules front (.directory entries) (name :: place) ∧
        path = PathText.ofSegments (front ++ name :: place)) ↔
      isExcluded rules (PathText.ofSegments (front ++ [name])) true = false ∧
        ∃ place, InScope tree root rules (front ++ [name]) (.directory inner) place ∧
          path = PathText.ofSegments (front ++ [name] ++ place) := by
  constructor
  · rintro ⟨place, scope, path_eq⟩
    have deeper : place ≠ [] := by
      rintro rfl
      obtain ⟨_, found', no_directory, _⟩ := InScope.singleton_iff.mp scope
      obtain rfl := Option.some.inj (found.symm.trans found')
      exact no_directory
    obtain ⟨_, found', is_open, below⟩ := (InScope.cons_iff deeper).mp scope
    obtain ⟨⟩ := Option.some.inj (found.symm.trans found')
    exact ⟨is_open, place, below, by simpa using path_eq⟩
  · rintro ⟨is_open, place, below, path_eq⟩
    exact ⟨place, (InScope.cons_iff below.ne_nil).mpr ⟨inner, found, is_open, below⟩,
      by simpa using path_eq⟩

mutual

theorem walksScope (linked : TellsLinks tree root linksToDirectory) :
    ∀ {entry : Entry}, entry.Proper → WalksScope tree root rules linksToDirectory entry
  | .file _, _ => by
      intro front name entries proper found path
      have proper_front := (List.forall_mem_append.mp proper).1
      rw [exists_inScope_iff_of_leaf found rfl, walk, lists, pathIn_ofSegments proper_front]
      simp [IsNoDirectory]
  | .link _, _ => by
      intro front name entries proper found path
      have proper_front := (List.forall_mem_append.mp proper).1
      rw [exists_inScope_iff_of_leaf found rfl, walk, lists, pathIn_ofSegments proper_front,
        linked _ (by simp) proper]
      simp [IsNoDirectory, and_assoc]
  | .directory inner, proper_inner => by
      intro front name entries proper found path
      have proper_front := (List.forall_mem_append.mp proper).1
      rw [exists_inScope_iff_of_directory found, walk, pathIn_ofSegments proper_front,
        ← mem_walkAll_iff_inScope proper_inner proper (walksScopeAll linked proper_inner.2)]
      cases excluded : isExcluded rules (PathText.ofSegments (front ++ [name])) true <;> simp

theorem walksScopeAll (linked : TellsLinks tree root linksToDirectory) :
    ∀ {entries : List (String × Entry)}, Entry.ProperAll entries →
      ∀ name entry, (name, entry) ∈ entries → WalksScope tree root rules linksToDirectory entry
  | [], _, _, _, present => nomatch present
  | (_, _) :: _, ⟨_, proper, others⟩, name, entry, present => by
      rcases List.mem_cons.mp present with same | later
      · obtain ⟨rfl, rfl⟩ := Prod.mk.inj same
        exact walksScope linked proper
      · exact walksScopeAll linked others name entry later

end

/-! ## Every path is found once -/

/-- What is found at and below a name has a path that goes on behind it. -/
theorem exists_place_of_mem_walk (linked : TellsLinks tree root linksToDirectory)
    (proper : ∀ segment ∈ front ++ [name], Path.IsName segment) (proper_entry : entry.Proper)
    (present : path ∈ walk rules linksToDirectory (PathText.ofSegments front) name entry) :
    ∃ place, (∀ segment ∈ front ++ name :: place, Path.IsName segment) ∧
      path = PathText.ofSegments (front ++ name :: place) := by
  have found : [(name, entry)].lookup name = some entry := by simp
  obtain ⟨place, scope, path_eq⟩ :=
    (walksScope linked proper_entry front name _ proper found path).mp present
  obtain ⟨_, stands, _⟩ := scope.stands
  have alone : (Entry.directory [(name, entry)]).Proper :=
    ⟨by simp, proper name (by simp), proper_entry, trivial⟩
  exact ⟨place, List.forall_mem_append.mpr
    ⟨(List.forall_mem_append.mp proper).1, alone.isName_of_at? stands⟩, path_eq⟩

mutual

theorem nodup_walk (linked : TellsLinks tree root linksToDirectory) :
    ∀ {entry : Entry}, entry.Proper → ∀ {front : List String} {name : String},
      (∀ segment ∈ front ++ [name], Path.IsName segment) →
      (walk rules linksToDirectory (PathText.ofSegments front) name entry).Nodup
  | .file _, _, _, _, _ | .link _, _, _, _, _ => by
      rw [walk]
      split <;> simp
  | .directory inner, proper_inner, front, name, proper => by
      rw [walk, pathIn_ofSegments (List.forall_mem_append.mp proper).1]
      split
      · exact List.nodup_nil
      · exact nodup_walkAll linked proper_inner.1 proper_inner.2 proper

theorem nodup_walkAll (linked : TellsLinks tree root linksToDirectory) :
    ∀ {entries : List (String × Entry)}, (entries.map (·.1)).Nodup → Entry.ProperAll entries →
      ∀ {front : List String}, (∀ segment ∈ front, Path.IsName segment) →
      (walkAll rules linksToDirectory (PathText.ofSegments front) entries).Nodup
  | [], _, _, _, _ => List.nodup_nil
  | (name, entry) :: entries, different, ⟨named, proper, others⟩, front, proper_front => by
      obtain ⟨fresh, different⟩ := List.nodup_cons.mp different
      have proper_name : ∀ {name}, Path.IsName name →
          ∀ segment ∈ front ++ [name], Path.IsName segment := fun named =>
        List.forall_mem_append.mpr ⟨proper_front, by simpa using named⟩
      rw [walkAll, List.nodup_append']
      refine ⟨nodup_walk linked proper (proper_name named),
        nodup_walkAll linked different others proper_front, ?_⟩
      intro path first later
      obtain ⟨place, names, path_eq⟩ :=
        exists_place_of_mem_walk linked (proper_name named) proper first
      obtain ⟨name', entry', present, below⟩ := mem_walkAll_iff.mp later
      obtain ⟨named', proper'⟩ := Entry.properAll_iff.mp others name' entry' present
      obtain ⟨place', names', path_eq'⟩ :=
        exists_place_of_mem_walk linked (proper_name named') proper' below
      have same := Path.ofSegments_inj names names' (path_eq.symm.trans path_eq')
      obtain ⟨rfl, _⟩ := List.cons.inj (List.append_cancel_left same)
      exact fresh (List.mem_map.mpr ⟨_, present, rfl⟩)

end

end Walk

/-! ## The inventory -/

/-- The paths that a walk through a project's root finds, in order. -/
def pathsFound (tree : FileTree) (root : Path) (rules : List ExcludeRule)
    (entries : List (String × Entry)) : List String :=
  sortOn textLe id
    (walkAll rules (fun path => leadsToDirectory tree (root.below path)) "" entries)

theorem tellsLinks_below :
    TellsLinks tree root fun path => leadsToDirectory tree (root.below path) := by
  intro place nonempty proper
  dsimp only
  rw [Path.below_ofSegments root nonempty proper]

theorem mem_pathsFound (proper : (Entry.directory entries).Proper) :
    path ∈ pathsFound tree root rules entries ↔
      ∃ place, InScope tree root rules [] (.directory entries) place ∧
        path = PathText.ofSegments place := by
  have linked : TellsLinks tree root fun path => leadsToDirectory tree (root.below path) :=
    tellsLinks_below
  rw [pathsFound, mem_sortOn]
  exact mem_walkAll_iff_inScope proper (List.forall_mem_nil _) (walksScopeAll linked proper.2)

/-- The paths found follow each other strictly. -/
theorem pairwise_pathsFound (proper : (Entry.directory entries).Proper) :
    (pathsFound tree root rules entries).Pairwise (· < ·) := by
  have sorted := pairwise_sortOn textLe id textLe_trans textLe_total
    (walkAll rules (fun path => leadsToDirectory tree (root.below path)) "" entries)
  have different : (pathsFound tree root rules entries).Nodup :=
    (sortOn_perm textLe id _).nodup_iff.mpr
      (nodup_walkAll tellsLinks_below proper.1 proper.2 (List.forall_mem_nil _))
  refine (sorted.and different).imp ?_
  rintro left right ⟨le, ne⟩
  exact Std.lt_of_le_of_ne (of_decide_eq_true le) ne

theorem scan_eq (located : locate tree path = .ok (root, some (.directory entries)))
    (rules : List ExcludeRule) (maxFiles : Option Int) :
    scan tree path rules maxFiles = .ok
      { root
        files :=
          match limit maxFiles with
          | some count => (pathsFound tree root rules entries).take count
          | none => pathsFound tree root rules entries
        filesFound := (pathsFound tree root rules entries).length } := by
  rw [scan, located]
  rfl

/-- The inventory of a directory lists exactly the places in scope, strictly in order, whatever
the order in which the directories tell their entries. A limit cuts the list and leaves the count;
further patterns only take paths away. -/
theorem scan_lists_scope {written : String}
    (located : locate tree written = .ok (root, some (.directory entries)))
    (proper : (Entry.directory entries).Proper) (patterns : List String) (includeTests : Bool) :
    ∃ paths : List String, paths.Pairwise (· < ·) ∧
      (∀ path, path ∈ paths ↔
        ∃ place, InScope tree root (ExcludeRule.rules patterns includeTests) []
            (.directory entries) place ∧ path = PathText.ofSegments place) ∧
      (∀ maxFiles : Option Int, (∀ count ∈ maxFiles, count ≤ 0) →
        scan tree written (ExcludeRule.rules patterns includeTests) maxFiles
          = .ok { root, files := paths, filesFound := paths.length }) ∧
      (∀ count : Nat, 0 < count →
        scan tree written (ExcludeRule.rules patterns includeTests) (some count)
          = .ok { root, files := paths.take count, filesFound := paths.length }) ∧
      ∀ further, patterns ⊆ further → ∃ fewer,
        scan tree written (ExcludeRule.rules further includeTests) none
          = .ok { root, files := fewer, filesFound := fewer.length } ∧ fewer ⊆ paths := by
  refine ⟨pathsFound tree root (ExcludeRule.rules patterns includeTests) entries,
    pairwise_pathsFound proper, fun path => mem_pathsFound proper, ?_, ?_, ?_⟩
  · intro maxFiles none_set
    have unlimited : limit maxFiles = none := by
      cases maxFiles with
      | none => rfl
      | some count => exact if_neg (Int.not_lt.mpr (none_set count rfl))
    rw [scan_eq located, unlimited]
  · intro count positive
    have limited : limit (some (count : Int)) = some count :=
      if_pos (Int.natCast_pos.mpr positive)
    rw [scan_eq located, limited]
  · intro further subset
    refine ⟨_, scan_eq located _ none, ?_⟩
    have more : ExcludeRule.rules patterns includeTests ⊆ ExcludeRule.rules further includeTests :=
      List.filterMap_subset _ (List.append_subset.mpr
        ⟨List.append_subset.mpr ⟨by simp, fun pattern present => by simp [subset present]⟩,
          by simp⟩)
    intro path found
    obtain ⟨place, scope, path_eq⟩ := (mem_pathsFound proper).mp found
    exact (mem_pathsFound proper).mpr ⟨place, scope.anti more, path_eq⟩

/-- The entries of a project with links to a file, to a directory and to nothing. -/
def shopEntries : List (String × Entry) :=
  [("z.ts", .file (.ofText "")), ("src", .directory
      [("view.tsx", .file (.ofText "")), ("up", .link ".."),
        ("gen", .directory [("made.ts", .file (.ofText ""))])]),
    ("lib", .link "src"), ("same.ts", .link "src/view.tsx"), ("Gone.TS", .link "nowhere"),
    ("readme.md", .file (.ofText ""))]

/-- A file tree with that project. -/
def shop : FileTree := { top := .directory [("shop", .directory shopEntries)] }

theorem shop_lists_scope :
    locate shop "/shop" = .ok (Path.absolute ["shop"], some (.directory shopEntries)) ∧
      (Entry.directory shopEntries).Proper ∧
      ∃ paths : List String, paths.Pairwise (· < ·) ∧
        (∀ path, path ∈ paths ↔
          ∃ place, InScope shop (Path.absolute ["shop"]) (ExcludeRule.rules ["gen/"] false) []
              (.directory shopEntries) place ∧ path = PathText.ofSegments place) ∧
        scan shop "/shop" (ExcludeRule.rules ["gen/"] false) (some 1)
          = .ok { root := Path.absolute ["shop"], files := paths.take 1
                  filesFound := paths.length } := by
  have located :
      locate shop "/shop" = .ok (Path.absolute ["shop"], some (.directory shopEntries)) := rfl
  have proper : (Entry.directory shopEntries).Proper := by
    simp only [shopEntries, Entry.Proper, Entry.ProperAll, and_true, true_and]
    decide
  obtain ⟨paths, sorted, in_scope, _, cut, _⟩ := scan_lists_scope located proper ["gen/"] false
  exact ⟨located, proper, paths, sorted, in_scope, cut 1 Nat.one_pos⟩

end Inventory

end CodeGraph
