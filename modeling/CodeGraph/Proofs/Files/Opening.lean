import CodeGraph.Proofs.Files.Stability

/-!
# Making a directory at any path

A path may lead over links and pairs of dots. A directory that has been made there is found there
afterwards, and so is one that stood there before. On the way, directories are made where nothing
stood, and if the directory above stands, the one that is asked for is all that is made.
-/

namespace CodeGraph.FileTree

open Entry (tipAt? Extends)

variable {tree tree' : FileTree} {path : Path} {place directory : List String}
  {region : List String → Prop}

/-- A directory stands where a path leads, and within a region directories have been made. -/
structure Provides (region : List String → Prop) (path : Path) (place : List String)
    (tree tree' : FileTree) : Prop where
  located : tree'.locate path = .ok place
  stands : ∃ entries, tree'.top.at? place = some (.directory entries)
  deepens : Deepens region tree.top tree'.top
  home : tree'.workingDirectory = tree.workingDirectory

theorem follow_name {entry : Entry} {name : String} (links : Nat)
    (parent : ∃ entries, tree.top.at? directory = some (.directory entries))
    (stands : tree.top.at? (directory ++ [name]) = some entry)
    (no_link : ∀ target, entry ≠ .link target) (no_dot : name ≠ ".") (no_dots : name ≠ "..")
    (short : isTooLong name = false) :
    follow tree.top false links directory [name] = .ok (directory ++ [name]) := by
  obtain ⟨entries, parent⟩ := parent
  have arrives : Advances tree.top false directory [name] (.arrived (directory ++ [name])) :=
    .down parent ⟨no_dot, no_dots⟩ short stands no_link (.arrived _)
  exact follow_eq_ok_iff.mpr (.arrives arrives)

/-- A directory that is made is found under its name in the directory above. -/
theorem provides_of_makeOneDirectory (no_dot : "." ∉ path.segments)
    (located : tree.locateDirectory path.parent = .ok directory)
    (made : tree.makeOneDirectory path = .ok tree') :
    Provides (· = directory ++ [path.name]) path (directory ++ [path.name]) tree tree' := by
  obtain ⟨accepted, nonempty, directory', located', no_dots, short, absent, rfl⟩ :=
    makeOneDirectory_eq_ok_iff.mp made
  obtain rfl := Except.ok.inj (located.symm.trans located')
  obtain ⟨reached, parent⟩ := locateDirectory_eq_ok_iff.mp located
  have deepened : Deepens (· = directory ++ [path.name]) tree.top
      (tree.put (directory ++ [path.name]) (.directory [])).top :=
    deepens_put (by rwa [List.dropLast_concat]) absent
  have stands := Entry.at?_put_self (.directory []) (directory ++ [path.name]) tree.top
  obtain ⟨left, goes_on⟩ :=
    (locate_eq_ok_iff.mp reached).2.append_of_extends deepened.toExtends parent [path.name]
  have named : path.name ≠ "." := by
    intro dot
    refine no_dot ?_
    rw [← dropLast_append_name nonempty, dot]
    simp
  have arrives := follow_name left (deepened.toExtends.directory parent) stands nofun named
    no_dots short
  refine ⟨?_, ⟨[], stands⟩, deepened, rfl⟩
  rw [locate, accepted]
  rw [arrives, Path.parent, dropLast_append_name nonempty] at goes_on
  exact goes_on

theorem provides_of_isDirectory (region : List String → Prop)
    (found : tree.isDirectory path = .ok true) : ∃ place, Provides region path place tree tree := by
  obtain ⟨entries, found⟩ := isDirectory_eq_true_iff.mp found
  obtain ⟨place, located, stands⟩ := find_eq_ok_iff.mp found
  exact ⟨place, located, ⟨entries, stands⟩, .refl region tree.top, rfl⟩

/-- The directory that is asked for is all that is made in one that stands. -/
theorem provides_ensureDirectory (no_dot : "." ∉ path.segments)
    (ensured : tree.ensureDirectory path = (tree', none)) :
    ∃ place, Provides (· = place) path place tree tree' := by
  unfold ensureDirectory at ensured
  split at ensured
  next made =>
    obtain ⟨rfl, _⟩ := Prod.mk.inj ensured
    obtain ⟨_, _, directory, located, _⟩ := makeOneDirectory_eq_ok_iff.mp made
    exact ⟨_, provides_of_makeOneDirectory no_dot located made⟩
  next =>
    obtain ⟨rfl, present⟩ := Prod.mk.inj ensured
    unfold faultUnlessPresent at present
    split at present
    next found =>
      obtain ⟨place, provided⟩ := provides_of_isDirectory (fun _ => False) found
      exact ⟨place, { provided with deepens := provided.deepens.mono fun _ => False.elim }⟩
    next => exact nomatch present
    next => exact nomatch present

theorem Provides.mono {wider : List String → Prop}
    (provided : Provides region path place tree tree')
    (subset : ∀ other, region other → wider other) : Provides wider path place tree tree' :=
  { provided with deepens := provided.deepens.mono subset }

/-- With those above it, a directory is made by making directories. -/
theorem provides_makeDirectoriesAt (no_dot : "." ∉ path.segments) {count : Nat}
    (succeeded : tree.makeDirectoriesAt path count = (tree', none)) :
    ∃ place, Provides (fun _ => True) (path.front count) place tree tree' := by
  have fronts : ∀ count, "." ∉ (path.front count).segments := fun count present =>
    no_dot (List.take_subset count path.segments present)
  induction count generalizing tree' with
  | zero =>
      obtain ⟨place, provided⟩ := provides_ensureDirectory (fronts 0) succeeded
      exact ⟨place, provided.mono fun _ _ => trivial⟩
  | succ count ih =>
      unfold makeDirectoriesAt at succeeded
      dsimp only at succeeded
      split at succeeded
      next =>
        match outcome : tree.makeDirectoriesAt path count with
        | (between, none) =>
            rw [outcome, onward_none] at succeeded
            obtain ⟨_, above⟩ := ih outcome
            obtain ⟨place, provided⟩ := provides_ensureDirectory (fronts (count + 1)) succeeded
            exact ⟨place, provided.located, provided.stands,
              above.deepens.trans (provided.deepens.mono fun _ _ => trivial),
              provided.home.trans above.home⟩
        | (between, some fault) =>
            rw [outcome, onward_some] at succeeded
            exact nomatch (Prod.mk.inj succeeded).2
      next =>
        obtain ⟨place, provided⟩ := provides_ensureDirectory (fronts (count + 1)) succeeded
        exact ⟨place, provided.mono fun _ _ => trivial⟩

theorem front_length (path : Path) : path.front path.segments.length = path := by
  rw [Path.front, List.take_length]

theorem provides_makeDirectories (no_dot : "." ∉ path.segments)
    (succeeded : tree.makeDirectories path = (tree', none)) :
    ∃ place, Provides (fun _ => True) path place tree tree' := by
  have provided := provides_makeDirectoriesAt no_dot succeeded
  rwa [front_length] at provided

theorem accept_ne_missing (path : Path) : accept path ≠ .error .missing := by
  unfold accept Path.fault? Path.nameFault?
  split
  next fault faulty =>
    rintro same
    obtain rfl := Except.error.inj same
    split at faulty
    next => exact nomatch faulty
    next => split at faulty <;> exact nomatch faulty
  next => split <;> exact nofun

/-- In a directory that stands nothing is missing. -/
theorem makeOneDirectory_ne_missing (parent : tree.isDirectory path.parent = .ok true) :
    tree.makeOneDirectory path ≠ .error .missing := by
  obtain ⟨entries, found⟩ := isDirectory_eq_true_iff.mp parent
  obtain ⟨place, located, stands⟩ := find_eq_ok_iff.mp found
  have above : tree.locateDirectory path.parent = .ok place :=
    locateDirectory_eq_ok_iff.mpr ⟨located, entries, stands⟩
  intro missing
  rcases bind_eq_error_iff.mp missing with refused | ⟨_, _, missing⟩
  · exact accept_ne_missing path refused
  · split at missing
    next => cases missing
    next =>
      rw [above] at missing
      obtain ⟨_, _, missing⟩ := (bind_eq_error_iff.mp missing).resolve_left (by rintro ⟨⟩)
      split at missing
      next => cases missing
      next =>
        split at missing
        next => cases missing
        next => split at missing <;> cases missing

theorem makeDirectories_of_parent (parent : tree.isDirectory path.parent = .ok true) :
    tree.makeDirectories path = tree.ensureDirectory path := by
  rw [makeDirectories]
  cases length_eq : path.segments.length with
  | zero => rw [makeDirectoriesAt, ← length_eq, front_length]
  | succ count =>
      unfold makeDirectoriesAt
      dsimp only
      rw [← length_eq, front_length]
      split
      next missing => exact absurd missing (makeOneDirectory_ne_missing parent)
      next => rfl

/-- A resolved path names the place where the path leads. -/
theorem segments_of_locate {resolved : Path} (no_dot : "." ∉ path.segments)
    (located : tree.locate path = .ok place) (resolves : tree.resolve path = .ok resolved) :
    resolved.segments = place := by
  obtain ⟨links, leads⟩ := (locate_eq_ok_iff.mp located).2.exists_leads
  exact segments_of_resolve no_dot leads resolves

end CodeGraph.FileTree
