import CodeGraph.Compiler.Options
import CodeGraph.Proofs.Files.Resolution
import Mathlib.Logic.Relation

/-!
# The lineage of a configuration

What a configuration file says for itself is a sheet: its own options, and the files that it
extends. The files that it extends, those that these extend, and so on, form a tree. Where every
file can be used and no file extends itself through others, the tree is finite, and no way down it
is longer than there are files.
-/

namespace CodeGraph

namespace CompilerOptions

/-- What a configuration file says for itself. -/
structure Sheet where
  /-- The place of the file. -/
  resolved : Path
  /-- The files that its references mean, in order. -/
  parents : List Path
  /-- Its own options. -/
  own : MergedOptions

/-- Reads what a configuration file says for itself; references that mean no file are left out. -/
def readSheet (tree : FileTree) (path : Path) : Except ConfigError Sheet := do
  let resolved ← (tree.resolve path).mapError ConfigError.file
  let config ← readObject tree path
  let names ← references (config.member? "extends")
  let located ← (names.mapM (locate? tree path.parent)).mapError ConfigError.file
  let own ← ownOptions tree path config
  return { resolved, parents := located.filterMap id, own }

/-- A file extends another one. -/
def Extends (tree : FileTree) (path parent : Path) : Prop :=
  ∃ sheet, readSheet tree path = .ok sheet ∧ parent ∈ sheet.parents

/-- A file reaches another one along the files that it extends. -/
def Reaches (tree : FileTree) : Path → Path → Prop :=
  Relation.ReflTransGen (Extends tree)

/-! ## The tree of the files that a file extends -/

/-- A configuration file with the files that it extends, theirs and so on. -/
inductive Lineage where
  | file (sheet : Sheet) (parents : List Lineage)

namespace Lineage

/-- What the file says for itself. -/
def sheet : Lineage → Sheet
  | file sheet _ => sheet

mutual

/-- How many files stand on the longest way down. -/
def height : Lineage → Nat
  | file _ parents => heightOfAll parents + 1

/-- How many files stand on the longest way down from one of these. -/
def heightOfAll : List Lineage → Nat
  | [] => 0
  | parent :: parents => max (height parent) (heightOfAll parents)

end

mutual

/-- The tree is the lineage of the file at a path. -/
def Of (tree : FileTree) (path : Path) : Lineage → Prop
  | file sheet parents => readSheet tree path = .ok sheet ∧ AllOf tree sheet.parents parents

/-- The trees are the lineages of the files at these paths. -/
def AllOf (tree : FileTree) : List Path → List Lineage → Prop
  | [], [] => True
  | path :: paths, parent :: parents => Of tree path parent ∧ AllOf tree paths parents
  | _, _ => False

end

end Lineage

variable {tree : FileTree} {path : Path} {sheet : Sheet}

/-- What it takes that a file says something for itself. -/
theorem readSheet_eq_ok_iff :
    readSheet tree path = .ok sheet ↔
      tree.resolve path = .ok sheet.resolved ∧ ∃ config names located,
        readObject tree path = .ok config ∧ references (config.member? "extends") = .ok names ∧
          names.mapM (locate? tree path.parent) = .ok located ∧
          located.filterMap id = sheet.parents ∧ ownOptions tree path config = .ok sheet.own := by
  simp only [readSheet, bind_eq_ok_iff, mapError_eq_ok_iff]
  constructor
  · rintro ⟨resolved, resolves, config, read, names, named, located, found, own, own_eq, same⟩
    obtain rfl := Except.ok.inj same
    exact ⟨resolves, config, names, located, read, named, found, rfl, own_eq⟩
  · rintro ⟨resolves, config, names, located, read, named, found, parents_eq, own_eq⟩
    refine ⟨_, resolves, config, read, names, named, located, found, _, own_eq, ?_⟩
    rw [parents_eq]
    rfl

/-! ## Paths without dots -/

/-- No segment is a dot from the top of the tree on. -/
def Clean (tree : FileTree) (path : Path) : Prop :=
  "." ∉ tree.startOf path ++ path.segments

theorem Clean.of_subset {other : Path} (clean : Clean tree path)
    (anchor : other.anchor = path.anchor)
    (subset : ∀ segment ∈ other.segments, segment ∈ path.segments ∨ segment ≠ ".") :
    Clean tree other := by
  have start : tree.startOf other = tree.startOf path := by
    simp [FileTree.startOf, Path.isAbsolute, anchor]
  unfold Clean at clean ⊢
  rw [start]
  intro present
  rcases List.mem_append.mp present with before | segment
  · exact clean (List.mem_append_left _ before)
  · rcases subset "." segment with known | other
    · exact clean (List.mem_append_right _ known)
    · exact other rfl

theorem Clean.parent (clean : Clean tree path) : Clean tree path.parent :=
  clean.of_subset rfl fun _ present => .inl (List.dropLast_subset _ present)

theorem Clean.ancestor (clean : Clean tree path) :
    ∀ other ∈ path.ancestors, Clean tree other := by
  intro other present
  obtain ⟨index, _, rfl⟩ := List.mem_map.mp present
  exact clean.of_subset rfl fun _ present => .inl (List.take_subset _ _ present)

theorem Clean.below (clean : Clean tree path) (text : String) : Clean tree (path.below text) := by
  have written : ∀ segment ∈ (Path.ofText text).segments, segment ≠ "." := by
    rintro _ present rfl
    exact Resolving.dot_not_mem_segments text present
  unfold Path.below Path.join
  split
  next absolute =>
    have start : tree.startOf (Path.ofText text) = [] := by simp [FileTree.startOf, absolute]
    rw [Clean, start, List.nil_append]
    exact Resolving.dot_not_mem_segments text
  next => exact clean.of_subset rfl fun segment present =>
    (List.mem_append.mp present).imp id (written segment)

theorem Clean.addEnding {other : Path} {ending : String} (clean : Clean tree path)
    (long : 2 ≤ ending.length) (added : addEnding path ending = .ok other) : Clean tree other := by
  unfold CompilerOptions.addEnding at added
  split at added
  · exact nomatch added
  · obtain rfl := Except.ok.inj added
    refine clean.of_subset rfl fun segment present => ?_
    rcases List.mem_append.mp present with before | last
    · exact .inl (List.dropLast_subset _ before)
    · refine .inr fun dot => ?_
      have lengths := congrArg String.length ((List.mem_singleton.mp last).symm.trans dot)
      rw [String.length_append] at lengths
      have one : ".".length = 1 := rfl
      omega

theorem Clean.resolve {resolved : Path} (clean : Clean tree path)
    (resolves : tree.resolve path = .ok resolved) : Clean tree resolved := by
  have no_dot := FileTree.dot_not_mem_of_resolve clean resolves
  rw [FileTree.eq_absolute_of_resolve resolves]
  exact no_dot

theorem mem_of_firstFile? {paths : List Path} {found : Path}
    (first : firstFile? tree paths = .ok (some found)) : found ∈ paths := by
  induction paths with
  | nil => exact nomatch first
  | cons path paths ih =>
      obtain ⟨is_file, _, first⟩ := bind_eq_ok_iff.mp first
      split at first
      · obtain rfl := Option.some.inj (Except.ok.inj first)
        exact List.mem_cons_self
      · exact List.mem_cons_of_mem path (ih first)

theorem clean_of_packageFile? {reference : String} {directories : List Path} {found : Path}
    (clean : ∀ directory ∈ directories, Clean tree directory)
    (package : packageFile? tree reference directories = .ok (some found)) : Clean tree found := by
  induction directories with
  | nil => exact nomatch package
  | cons directory directories ih =>
      obtain ⟨here, later⟩ := List.forall_mem_cons.mp clean
      obtain ⟨ended, ending, package⟩ := bind_eq_ok_iff.mp package
      obtain ⟨first, candidate, package⟩ := bind_eq_ok_iff.mp package
      have base := (here.below "node_modules").below reference
      split at package
      next path _ =>
        obtain rfl := Option.some.inj (Except.ok.inj package)
        have present := mem_of_firstFile? candidate
        simp only [List.mem_cons, List.not_mem_nil, or_false] at present
        rcases present with rfl | rfl | rfl
        · exact base
        · exact base.addEnding (by decide) ending
        · exact base.below "tsconfig.json"
      next => exact ih later package

/-- A reference in a file without dots in its path means a file without dots in its path. -/
theorem clean_of_locate? {reference : String} {found : Path} (clean : Clean tree path)
    (located : locate? tree path reference = .ok (some found)) : Clean tree found := by
  unfold locate? at located
  split at located
  next =>
    obtain ⟨candidate, resolves, located⟩ := bind_eq_ok_iff.mp located
    have candidate_clean := (clean.below reference).resolve resolves
    obtain ⟨is_file, _, located⟩ := bind_eq_ok_iff.mp located
    split at located
    next =>
      obtain rfl := Option.some.inj (Except.ok.inj located)
      exact candidate_clean
    next =>
      obtain ⟨ended, ending, located⟩ := bind_eq_ok_iff.mp located
      obtain rfl := List.mem_singleton.mp (mem_of_firstFile? located)
      exact candidate_clean.addEnding (by decide) ending
  next =>
    exact clean_of_packageFile? (List.forall_mem_cons.mpr ⟨clean, clean.ancestor⟩) located

theorem exists_locate?_of_mem {locate : String → Except FileFault (Option Path)}
    {names : List String} {located : List (Option Path)} {found : Path}
    (all : names.mapM locate = .ok located) (present : found ∈ located.filterMap id) :
    ∃ name, locate name = .ok (some found) := by
  induction names generalizing located with
  | nil =>
      obtain rfl := Except.ok.inj all
      exact nomatch present
  | cons name names ih =>
      obtain ⟨first, others, first_eq, others_eq, rfl⟩ := mapM_cons_eq_ok_iff.mp all
      obtain ⟨_, first_or_later, rfl⟩ := List.mem_filterMap.mp present
      rcases List.mem_cons.mp first_or_later with rfl | later
      · exact ⟨name, first_eq⟩
      · exact ih others_eq (List.mem_filterMap.mpr ⟨_, later, rfl⟩)

theorem Clean.of_extends {parent : Path} (clean : Clean tree path)
    (extending : Extends tree path parent) : Clean tree parent := by
  obtain ⟨sheet, read, present⟩ := extending
  obtain ⟨_, _, _, located, _, _, located_eq, parents_eq, _⟩ := readSheet_eq_ok_iff.mp read
  rw [← parents_eq] at present
  obtain ⟨name, found⟩ := exists_locate?_of_mem located_eq present
  exact clean_of_locate? clean.parent found

theorem Clean.reaches {other : Path} (clean : Clean tree path)
    (reaches : Reaches tree path other) : Clean tree other := by
  induction reaches with
  | refl => exact clean
  | tail _ extending ih => exact ih.of_extends extending

/-- A file that can be read stands at the place that its path resolves to. -/
theorem exists_file_of_readObject {resolved : Path} {config : Json} (clean : Clean tree path)
    (resolves : tree.resolve path = .ok resolved) (read : readObject tree path = .ok config) :
    ∃ content, tree.top.at? resolved.segments = some (.file content) := by
  have no_dot : "." ∉ path.segments := fun present => clean (List.mem_append_right _ present)
  unfold readObject FileTree.file? at read
  cases found : tree.find path with
  | error fault => simp [found] at read
  | ok entry =>
      cases entry with
      | file content => exact ⟨content, FileTree.at?_of_resolve no_dot found resolves⟩
      | link | directory => simp [found] at read

theorem exists_file_of_readSheet (clean : Clean tree path)
    (read : readSheet tree path = .ok sheet) :
    ∃ content, tree.top.at? sheet.resolved.segments = some (.file content) := by
  obtain ⟨resolves, config, _, _, object, _⟩ := readSheet_eq_ok_iff.mp read
  exact exists_file_of_readObject clean resolves object

/-! ## Places of files -/

variable {seen : List Path}

/-- The paths are those of different files. -/
structure FilePlaces (tree : FileTree) (places : List Path) : Prop where
  different : places.Nodup
  stands : ∀ place ∈ places, place = Path.absolute place.segments ∧
    ∃ content, tree.top.at? place.segments = some (.file content)

theorem filePlaces_nil : FilePlaces tree [] :=
  ⟨List.nodup_nil, List.forall_mem_nil _⟩

/-- There are no more files than leaves. -/
theorem FilePlaces.length_le (places : FilePlaces tree seen) :
    seen.length ≤ tree.top.leafCount := by
  have different : (seen.map (·.segments)).Nodup := by
    refine places.different.map_on fun first first_mem second second_mem same => ?_
    rw [(places.stands first first_mem).1, (places.stands second second_mem).1, same]
  have leaves : ∀ place ∈ seen.map (·.segments),
      ∃ leaf, tree.top.at? place = some leaf ∧ leaf.isLeaf = true := by
    intro place present
    obtain ⟨file, file_mem, rfl⟩ := List.mem_map.mp present
    obtain ⟨content, stands⟩ := (places.stands file file_mem).2
    exact ⟨.file content, stands, rfl⟩
  simpa using Entry.length_le_leafCount different leaves

theorem FilePlaces.concat (places : FilePlaces tree seen) {resolved : Path} {config : Json}
    (clean : Clean tree path) (resolves : tree.resolve path = .ok resolved)
    (read : readObject tree path = .ok config) (new : resolved ∉ seen) :
    FilePlaces tree (seen ++ [resolved]) := by
  refine ⟨?_, fun place present => ?_⟩
  · refine List.nodup_append.mpr ⟨places.different, List.nodup_singleton _, ?_⟩
    rintro place before _ last rfl
    exact new (List.mem_singleton.mp last ▸ before)
  · rcases List.mem_append.mp present with before | last
    · exact places.stands place before
    · obtain rfl := List.mem_singleton.mp last
      exact ⟨FileTree.eq_absolute_of_resolve resolves,
        exists_file_of_readObject clean resolves read⟩

/-! ## Lineages are finite -/

namespace Lineage

mutual

/-- A file has at most one lineage. -/
theorem Of.unique : ∀ {lineage other : Lineage} {path : Path},
    lineage.Of tree path → other.Of tree path → lineage = other
  | file sheet parents, file sheet' parents', path, ⟨read, of⟩, ⟨read', of'⟩ => by
      obtain rfl := Except.ok.inj (read.symm.trans read')
      rw [AllOf.unique of of']

theorem AllOf.unique : ∀ {parents others : List Lineage} {paths : List Path},
    AllOf tree paths parents → AllOf tree paths others → parents = others
  | [], [], _, _, _ => rfl
  | [], _ :: _, [], _, all | _ :: _, [], [], all, _ => all.elim
  | [], _ :: _, _ :: _, all, _ | _ :: _, [], _ :: _, _, all => all.elim
  | parent :: parents, other :: others, _ :: _, ⟨of, all⟩, ⟨of', all'⟩ => by
      rw [Of.unique of of', AllOf.unique all all']

end

theorem exists_allOf {paths : List Path} {bound : Nat}
    (each : ∀ path ∈ paths,
      ∃ lineage : Lineage, lineage.Of tree path ∧ lineage.height ≤ bound) :
    ∃ parents, AllOf tree paths parents ∧ heightOfAll parents ≤ bound := by
  induction paths with
  | nil => exact ⟨[], trivial, Nat.zero_le bound⟩
  | cons path paths ih =>
      obtain ⟨⟨parent, of, height_le⟩, each⟩ := List.forall_mem_cons.mp each
      obtain ⟨parents, all, heights_le⟩ := ih each
      exact ⟨parent :: parents, ⟨of, all⟩, Nat.max_le.mpr ⟨height_le, heights_le⟩⟩

end Lineage

/-- Every file that is reached can be used. -/
def Usable (tree : FileTree) (path : Path) : Prop :=
  ∀ file, Reaches tree path file → ∃ sheet, readSheet tree file = .ok sheet

/-- No file that is reached extends itself through others, files being told apart by their place. -/
def Acyclic (tree : FileTree) (path : Path) : Prop :=
  ∀ file other, Reaches tree path file → Relation.TransGen (Extends tree) file other →
    tree.resolve file ≠ tree.resolve other

/-- The files on a way down to a path. -/
structure Way (tree : FileTree) (start path : Path) (passed : List Sheet) : Prop where
  different : (passed.map (·.resolved)).Nodup
  passes : ∀ sheet ∈ passed, ∃ file, Reaches tree start file ∧
    readSheet tree file = .ok sheet ∧ Relation.TransGen (Extends tree) file path

theorem Way.step {start : Path} {passed : List Sheet} (way : Way tree start path passed)
    (acyclic : Acyclic tree start) (reaches : Reaches tree start path)
    (read : readSheet tree path = .ok sheet) :
    ((sheet :: passed).map (·.resolved)).Nodup ∧
      ∀ parent ∈ sheet.parents, Way tree start parent (sheet :: passed) := by
  have resolves := (readSheet_eq_ok_iff.mp read).1
  have different : ((sheet :: passed).map (·.resolved)).Nodup := by
    refine List.nodup_cons.mpr ⟨fun present => ?_, way.different⟩
    obtain ⟨other, other_mem, same⟩ := List.mem_map.mp present
    obtain ⟨file, reached, other_read, leads⟩ := way.passes other other_mem
    have other_resolves := (readSheet_eq_ok_iff.mp other_read).1
    refine acyclic file path reached leads ?_
    rw [resolves, other_resolves, same]
  refine ⟨different, fun parent present => ⟨different, ?_⟩⟩
  have extending : Extends tree path parent := ⟨sheet, read, present⟩
  refine List.forall_mem_cons.mpr ⟨⟨path, reaches, read, .single extending⟩, ?_⟩
  intro other other_mem
  obtain ⟨file, reached, other_read, leads⟩ := way.passes other other_mem
  exact ⟨file, reached, other_read, leads.tail extending⟩

theorem length_le_of_different {passed : List Sheet} (different : (passed.map (·.resolved)).Nodup)
    (read : ∀ sheet ∈ passed, ∃ file, Clean tree file ∧ readSheet tree file = .ok sheet) :
    passed.length ≤ tree.top.leafCount := by
  have places : FilePlaces tree (passed.map (·.resolved)) := by
    refine ⟨different, fun place present => ?_⟩
    obtain ⟨sheet, sheet_mem, rfl⟩ := List.mem_map.mp present
    obtain ⟨file, clean, sheet_read⟩ := read sheet sheet_mem
    have resolves := (readSheet_eq_ok_iff.mp sheet_read).1
    exact ⟨FileTree.eq_absolute_of_resolve resolves, exists_file_of_readSheet clean sheet_read⟩
  simpa using places.length_le

/-- A way is no longer than there are leaves in the tree. -/
theorem Way.length_lt {start : Path} {passed : List Sheet} (way : Way tree start path passed)
    (clean : Clean tree start) (acyclic : Acyclic tree start) (reaches : Reaches tree start path)
    (read : readSheet tree path = .ok sheet) : passed.length < tree.top.leafCount := by
  obtain ⟨different, _⟩ := way.step acyclic reaches read
  refine length_le_of_different different ?_
  refine List.forall_mem_cons.mpr ⟨⟨path, clean.reaches reaches, read⟩, ?_⟩
  intro other other_mem
  obtain ⟨file, reached, other_read, _⟩ := way.passes other other_mem
  exact ⟨file, clean.reaches reached, other_read⟩

theorem Way.exists_lineage {start : Path} (clean : Clean tree start) (usable : Usable tree start)
    (acyclic : Acyclic tree start) {left : Nat} {passed : List Sheet}
    (way : Way tree start path passed) (reaches : Reaches tree start path)
    (enough : tree.top.leafCount ≤ passed.length + left) :
    ∃ lineage : Lineage, lineage.Of tree path ∧ lineage.height ≤ left := by
  induction left generalizing path passed with
  | zero =>
      obtain ⟨sheet, read⟩ := usable path reaches
      exact absurd (way.length_lt clean acyclic reaches read) (Nat.not_lt.mpr enough)
  | succ left ih =>
      obtain ⟨sheet, read⟩ := usable path reaches
      obtain ⟨_, ways⟩ := way.step acyclic reaches read
      have each : ∀ parent ∈ sheet.parents,
          ∃ lineage : Lineage, lineage.Of tree parent ∧ lineage.height ≤ left := by
        intro parent present
        refine ih (ways parent present) (reaches.tail ⟨sheet, read, present⟩) ?_
        rw [List.length_cons]
        omega
      obtain ⟨parents, all, heights_le⟩ := Lineage.exists_allOf each
      exact ⟨.file sheet parents, ⟨read, all⟩, Nat.add_le_add_right heights_le 1⟩

/-- A file that can be used with all that it reaches, and reaches nothing twice on one way, has a
lineage no higher than there are leaves in the tree. -/
theorem exists_lineage (clean : Clean tree path) (usable : Usable tree path)
    (acyclic : Acyclic tree path) :
    ∃ lineage : Lineage, lineage.Of tree path ∧ lineage.height ≤ tree.top.leafCount := by
  have start : Way tree path path [] :=
    { different := List.nodup_nil, passes := fun _ present => nomatch present }
  exact start.exists_lineage clean usable acyclic .refl (by simp)

end CompilerOptions

end CodeGraph
