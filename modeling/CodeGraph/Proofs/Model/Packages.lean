import CodeGraph.Model.PackageMap
import CodeGraph.Proofs.Text.Pieces

/-!
# Packages have their parents

The packages of a program are added directory by directory, each with those above it. Whatever is
added, a package keeps the id of its directory, and the parent of a package is a package.
-/

namespace CodeGraph.PackageMap

/-- The packages have the ids of their directories, and their parents are among them. -/
structure Closed (packages : PackageMap) : Prop where
  /-- A package is known by its directory. -/
  id_eq : ∀ directory package, (directory, package) ∈ packages → package.id = packageId directory
  /-- The parent of a package is the package of a directory. -/
  parent_mem : ∀ directory package parent, (directory, package) ∈ packages →
    package.parentId = some parent → ∃ above ∈ Ordered.keys packages, parent = packageId above

/-- Packages were added that have their ids and their parents. -/
structure Extends (before after : PackageMap) : Prop where
  /-- Nothing is taken away. -/
  subset : before ⊆ after
  /-- A new package is known by its directory. -/
  id_eq : ∀ directory package, (directory, package) ∈ after → (directory, package) ∉ before →
    package.id = packageId directory
  /-- The parent of a new package is the package of a directory. -/
  parent_mem : ∀ directory package parent, (directory, package) ∈ after →
    (directory, package) ∉ before → package.parentId = some parent →
      ∃ above ∈ Ordered.keys after, parent = packageId above

variable {before after : PackageMap}

theorem keys_subset (subset : before ⊆ after) : Ordered.keys before ⊆ Ordered.keys after :=
  List.map_subset _ subset

theorem Extends.refl (packages : PackageMap) : packages.Extends packages :=
  ⟨List.Subset.refl packages, fun _ _ present fresh => absurd present fresh,
    fun _ _ _ present fresh => absurd present fresh⟩

theorem Closed.extends (closed : before.Closed) (further : before.Extends after) :
    after.Closed := by
  constructor
  · intro directory package present
    by_cases early : (directory, package) ∈ before
    · exact closed.id_eq directory package early
    · exact further.id_eq directory package present early
  · intro directory package parent present parent_eq
    by_cases early : (directory, package) ∈ before
    · obtain ⟨above, above_mem, id_eq⟩ :=
        closed.parent_mem directory package parent early parent_eq
      exact ⟨above, keys_subset further.subset above_mem, id_eq⟩
    · exact further.parent_mem directory package parent present early parent_eq

/-- The package of the root needs no other. -/
theorem extends_root (packages : PackageMap) :
    packages.Extends (packages ++ [("", rootPackage)]) := by
  refine ⟨List.subset_append_left _ _, ?_, ?_⟩
  · intro directory package present fresh
    have new : (directory, package) = ("", rootPackage) := by simpa [fresh] using present
    obtain ⟨rfl, rfl⟩ := Prod.mk.inj new
    rfl
  · intro directory package parent present fresh parent_eq
    have new : (directory, package) = ("", rootPackage) := by simpa [fresh] using present
    obtain ⟨rfl, rfl⟩ := Prod.mk.inj new
    simp [rootPackage] at parent_eq

/-- Adding a directory with those above it gives it a package. -/
theorem ensureSegments_spec (packages : PackageMap) (segments : List String) :
    packages.Extends (ensureSegments packages segments) ∧
      PathText.ofSegments segments.reverse ∈ Ordered.keys (ensureSegments packages segments) := by
  induction segments generalizing packages with
  | nil =>
      rw [ensureSegments]
      split
      next present => exact ⟨.refl packages, Ordered.isSome_get?_iff.mp present⟩
      next => exact ⟨extends_root packages, by simp [Ordered.keys, PathText.ofSegments]⟩
  | cons name above ih =>
      rw [ensureSegments]
      split
      next present => exact ⟨.refl packages, Ordered.isSome_get?_iff.mp present⟩
      next =>
        split
        next empty =>
          rw [String.isEmpty_iff.mp empty]
          exact ⟨extends_root packages, by simp [Ordered.keys]⟩
        next =>
          let directory := PathText.ofSegments (name :: above).reverse
          let added := (directory, packageOf directory name (PathText.ofSegments above.reverse))
          obtain ⟨further, above_mem⟩ := ih (packages ++ [added])
          have added_mem : added ∈ ensureSegments (packages ++ [added]) above :=
            further.subset (by simp)
          refine ⟨⟨?_, ?_, ?_⟩, List.mem_map.mpr ⟨added, added_mem, rfl⟩⟩
          · exact List.Subset.trans (List.subset_append_left _ _) further.subset
          · intro other package present fresh
            by_cases new : (other, package) = added
            · obtain ⟨rfl, rfl⟩ := Prod.mk.inj new
              rfl
            · exact further.id_eq other package present (by simp [fresh, new])
          · intro other package parent present fresh parent_eq
            by_cases new : (other, package) = added
            · obtain ⟨rfl, rfl⟩ := Prod.mk.inj new
              exact ⟨_, above_mem, by simpa [packageOf] using parent_eq.symm⟩
            · exact further.parent_mem other package parent present (by simp [fresh, new]) parent_eq

theorem ensureDirectory_spec (packages : PackageMap) (directory : String) :
    packages.Extends (ensureDirectory packages directory) ∧
      directory ∈ Ordered.keys (ensureDirectory packages directory) := by
  rw [ensureDirectory]
  split
  next empty =>
    rw [String.isEmpty_iff.mp empty]
    exact ensureSegments_spec packages []
  next =>
    have spec := ensureSegments_spec packages (PathText.segments directory).reverse
    have whole : PathText.ofSegments (PathText.segments directory) = directory :=
      Text.intercalate_split '/' directory
    rwa [List.reverse_reverse, whole] at spec

/-- Adding the directories of files one after the other gives each of them a package. -/
theorem addDirectories_spec (files : List String) {packages : PackageMap}
    (closed : packages.Closed) :
    let added := files.foldl
      (fun packages file => ensureDirectory packages (directoryOf file)) packages
    packages ⊆ added ∧ added.Closed ∧ ∀ file ∈ files, directoryOf file ∈ Ordered.keys added := by
  induction files generalizing packages with
  | nil => exact ⟨List.Subset.refl packages, closed, by simp⟩
  | cons file files ih =>
      obtain ⟨further, file_mem⟩ := ensureDirectory_spec packages (directoryOf file)
      obtain ⟨subset, closed, files_mem⟩ := ih (closed.extends further)
      rw [List.foldl_cons]
      refine ⟨List.Subset.trans further.subset subset, closed, ?_⟩
      intro other other_mem
      rcases List.mem_cons.mp other_mem with rfl | later
      · exact keys_subset subset file_mem
      · exact files_mem other later

/-- The packages of files have their parents, and every file has a package. -/
theorem ofFiles_spec (files : List String) :
    (ofFiles files).Closed ∧ ∀ file ∈ files, directoryOf file ∈ Ordered.keys (ofFiles files) := by
  have empty : Closed ([] : PackageMap) := ⟨by simp, by simp⟩
  obtain ⟨_, closed, files_mem⟩ := addDirectories_spec (sortOn textLe id files) empty
  refine ⟨closed, fun file file_mem => files_mem file ?_⟩
  simpa [mem_sortOn] using file_mem

/-! ## Further files -/

/-- What is filled in stands behind what is there. -/
theorem isPrefix_fill (packages added : PackageMap) : packages <+: packages.fill added :=
  List.prefix_append _ _

/-- Only directories that are not there are filled in. -/
theorem mem_fill {packages added : PackageMap} {entry : String × Package} :
    entry ∈ packages.fill added ↔
      entry ∈ packages ∨ entry ∈ added ∧ entry.1 ∉ Ordered.keys packages := by
  rw [fill, List.mem_append, List.mem_filter, ← Ordered.isSome_get?_iff, Option.isNone_iff_eq_none,
    Option.not_isSome_iff_eq_none]

/-- A directory that is not filled in was there already. -/
theorem mem_keys_fill {packages added : PackageMap} {directory : String} :
    directory ∈ Ordered.keys (packages.fill added) ↔
      directory ∈ Ordered.keys packages ∨ directory ∈ Ordered.keys added := by
  constructor
  · intro known
    obtain ⟨entry, listed, rfl⟩ := List.mem_map.mp known
    exact (mem_fill.mp listed).imp List.mem_map_of_mem fun ⟨new, _⟩ => List.mem_map_of_mem new
  · intro known
    by_cases early : directory ∈ Ordered.keys packages
    · exact keys_subset (List.subset_append_left _ _) early
    · obtain ⟨entry, listed, rfl⟩ := List.mem_map.mp (known.resolve_left early)
      exact List.mem_map_of_mem (mem_fill.mpr (.inr ⟨listed, early⟩))

/-- What a further file needs stands behind what is there. -/
theorem isPrefix_ensureFile (packages : PackageMap) (file : String) :
    packages <+: packages.ensureFile file := by
  rw [ensureFile]
  split
  · exact List.prefix_refl _
  · exact isPrefix_fill _ _

/-- A further file gets its package with those above it. -/
theorem ensureFile_spec (packages : PackageMap) (file : String) :
    packages.Extends (ensureFile packages file) ∧
      directoryOf file ∈ Ordered.keys (ensureFile packages file) := by
  by_cases known : (packages.get? (directoryOf file)).isSome
  · rw [ensureFile, if_pos known]
    exact ⟨.refl packages, Ordered.isSome_get?_iff.mp known⟩
  · rw [ensureFile, if_neg known]
    obtain ⟨closed, file_mem⟩ := ofFiles_spec [file]
    have keys_mem : Ordered.keys (ofFiles [file]) ⊆ Ordered.keys (packages.fill (ofFiles [file])) :=
      fun _ directory_mem => mem_keys_fill.mpr (.inr directory_mem)
    have new_mem : ∀ entry ∈ packages.fill (ofFiles [file]), entry ∉ packages →
        entry ∈ ofFiles [file] :=
      fun _ present fresh => ((mem_fill.mp present).resolve_left fresh).1
    refine ⟨⟨(isPrefix_fill _ _).subset, ?_, ?_⟩, keys_mem (file_mem file (by simp))⟩
    · intro directory package present fresh
      exact closed.id_eq directory package (new_mem _ present fresh)
    · intro directory package parent present fresh parent_eq
      obtain ⟨above, above_mem, id_eq⟩ :=
        closed.parent_mem directory package parent (new_mem _ present fresh) parent_eq
      exact ⟨above, keys_mem above_mem, id_eq⟩

/-! ## Packages have no tags -/

/-- No package has tags. -/
def Untagged (packages : PackageMap) : Prop :=
  ∀ entry ∈ packages, entry.2.tags = []

theorem Untagged.add {packages : PackageMap} (untagged : packages.Untagged) (directory : String)
    {package : Package} (tags_eq : package.tags = []) :
    Untagged (packages ++ [(directory, package)]) :=
  List.forall_mem_append.mpr ⟨untagged, List.forall_mem_singleton.mpr tags_eq⟩

theorem Untagged.ensureSegments {packages : PackageMap} (untagged : packages.Untagged)
    (segments : List String) : (PackageMap.ensureSegments packages segments).Untagged := by
  induction segments generalizing packages with
  | nil =>
      rw [PackageMap.ensureSegments]
      split
      · exact untagged
      · exact untagged.add "" rfl
  | cons name above ih =>
      rw [PackageMap.ensureSegments]
      split
      · exact untagged
      · split
        · exact untagged.add "" rfl
        · exact ih (untagged.add _ rfl)

theorem untagged_ofFiles (files : List String) : (ofFiles files).Untagged :=
  List.foldlRecOn (sortOn textLe id files) _ (fun _ absent => absurd absent List.not_mem_nil)
    fun _ untagged _ _ => untagged.ensureSegments _

theorem Untagged.ensureFile {packages : PackageMap} (untagged : packages.Untagged)
    (file : String) : (PackageMap.ensureFile packages file).Untagged := by
  rw [PackageMap.ensureFile]
  split
  · exact untagged
  · intro entry present
    rcases mem_fill.mp present with early | ⟨late, _⟩
    · exact untagged entry early
    · exact untagged_ofFiles [file] entry late

end CodeGraph.PackageMap
