import CodeGraph.Proofs.Files.Normal
import CodeGraph.Proofs.Model.Packages

/-!
# The tree of packages

The packages of files are the tree of their directories: a directory has a package exactly if a file
stands in it or below it, and the package is the one that the directory alone decides. Directories
are added from below, each before the one above it, and the way up ends at the first that is there
already; what makes this right is that above a directory that is there nothing is missing.
-/

namespace CodeGraph

namespace PathText

/-- Only no segments and one empty segment make the empty path. -/
theorem eq_or_eq_of_ofSegments_eq_empty {pieces : List String}
    (plain : ∀ piece ∈ pieces, '/' ∉ piece.toList) (empty : ofSegments pieces = "") :
    pieces = [] ∨ pieces = [""] := by
  by_cases none : pieces = []
  · exact .inl none
  · right
    rw [← segments_ofSegments_of_plain none plain, empty]
    decide

end PathText

namespace PackageMap

open PathText (segments ofSegments)

/-! ## Directories above each other -/

/-- The directory without its last segment. -/
def above (directory : String) : String :=
  ofSegments (segments directory).dropLast

/-- The segments of a directory. The root has none, and a slash in front belongs to none. -/
def segmentsOf (directory : String) : List String :=
  match segments directory with
  | "" :: rest => rest
  | pieces => pieces

/-- The first segments of a directory make another one, or all of them the directory itself. -/
def Encloses (outer inner : String) : Prop :=
  ∃ front, front <+: segments inner ∧ outer = ofSegments front

/-- The package that a directory has. -/
def packageAt (directory : String) : Package :=
  if directory.isEmpty then rootPackage
  else packageOf directory (Text.lastPiece '/' directory) (above directory)

variable {directory inner outer : String} {packages before after : PackageMap}

theorem plain_of_mem_dropLast (directory : String) :
    ∀ piece ∈ (segments directory).dropLast, '/' ∉ piece.toList := fun _ present =>
  Text.not_mem_of_mem_split '/' ((List.dropLast_sublist _).subset present)

/-- Above a directory with one segment there is the root. -/
theorem above_eq_empty (single : (segments directory).dropLast = []) : above directory = "" := by
  rw [above, single]
  rfl

/-- What is above a directory with several segments has all of them but the last. -/
theorem segments_above (several : (segments directory).dropLast ≠ []) :
    segments (above directory) = (segments directory).dropLast :=
  PathText.segments_ofSegments_of_plain several (plain_of_mem_dropLast directory)

theorem segmentsOf_eq_nil_iff : segmentsOf directory = [] ↔ directory = "" := by
  constructor
  · intro none
    have pieces : segments directory = [] ∨ segments directory = [""] := by
      unfold segmentsOf at none
      split at none
      next rest pieces => exact .inr (by rw [pieces, none])
      next => exact .inl none
    rcases pieces with pieces | pieces
    · exact absurd pieces (PathText.segments_ne_nil directory)
    · rw [← PathText.ofSegments_segments directory, pieces]
      rfl
  · rintro rfl
    decide

/-- What is above a directory has one segment less. -/
theorem segmentsOf_above (directory : String) :
    segmentsOf (above directory) = (segmentsOf directory).dropLast := by
  by_cases several : (segments directory).dropLast = []
  · rw [above_eq_empty several, segmentsOf_eq_nil_iff.mpr rfl]
    unfold segmentsOf
    split
    next rest pieces =>
      rw [pieces] at several
      cases rest with
      | nil => rfl
      | cons next rest => exact absurd several (by simp)
    next => exact several.symm
  · have pieces := segments_above several
    cases first_eq : segments directory with
    | nil => exact absurd first_eq (PathText.segments_ne_nil directory)
    | cons first rest =>
        rw [first_eq] at pieces several
        have rest_ne : rest ≠ [] := by
          rintro rfl
          exact several rfl
        rw [List.dropLast_cons_of_ne_nil rest_ne] at pieces
        by_cases empty : first = ""
        · subst empty
          simp [segmentsOf, pieces, first_eq]
        · simp [segmentsOf, pieces, first_eq, empty, List.dropLast_cons_of_ne_nil rest_ne]

theorem length_segmentsOf_above (nonempty : directory ≠ "") :
    (segmentsOf (above directory)).length + 1 = (segmentsOf directory).length := by
  have some_segment : segmentsOf directory ≠ [] := fun none =>
    nonempty (segmentsOf_eq_nil_iff.mp none)
  rw [segmentsOf_above, List.length_dropLast]
  have := List.length_pos_of_ne_nil some_segment
  omega

/-- What holds of the root and of every directory above which it holds, holds of all of them. -/
theorem inductionOnAbove {motive : String → Prop} (root : motive "")
    (below : ∀ directory, directory ≠ "" → motive (above directory) → motive directory)
    (directory : String) : motive directory := by
  generalize size_eq : (segmentsOf directory).length = size
  induction size generalizing directory with
  | zero =>
      obtain rfl := segmentsOf_eq_nil_iff.mp (List.eq_nil_of_length_eq_zero size_eq)
      exact root
  | succ size ih =>
      have nonempty : directory ≠ "" := by
        rintro rfl
        rw [segmentsOf_eq_nil_iff.mpr rfl] at size_eq
        exact nomatch size_eq
      refine below directory nonempty (ih (above directory) ?_)
      have := length_segmentsOf_above nonempty
      omega

/-- The segments of the root make nothing but the root. -/
theorem ofSegments_eq_empty_of_isPrefix {front : List String} (isPrefix : front <+: segments "") :
    ofSegments front = "" := by
  have pieces : segments "" = [] ++ [""] := by decide
  rw [pieces, List.prefix_concat_iff, List.prefix_nil] at isPrefix
  rcases isPrefix with rfl | rfl <;> rfl

/-- A directory is enclosed by itself and by what encloses the directory above it. -/
theorem encloses_iff : Encloses outer inner ↔ outer = inner ∨ Encloses outer (above inner) := by
  constructor
  · rintro ⟨front, isPrefix, rfl⟩
    have pieces : segments inner = (segments inner).dropLast ++ [Text.lastPiece '/' inner] :=
      Text.split_eq_append_lastPiece '/' inner
    rw [pieces, List.prefix_concat_iff, ← pieces] at isPrefix
    rcases isPrefix with rfl | shorter
    · exact .inl (PathText.ofSegments_segments inner)
    · right
      by_cases several : (segments inner).dropLast = []
      · rw [several, List.prefix_nil] at shorter
        exact ⟨[], List.nil_prefix, by rw [shorter]⟩
      · exact ⟨front, segments_above several ▸ shorter, rfl⟩
  · rintro (rfl | ⟨front, isPrefix, rfl⟩)
    · exact ⟨segments outer, List.prefix_refl _, (PathText.ofSegments_segments outer).symm⟩
    · by_cases several : (segments inner).dropLast = []
      · rw [above_eq_empty several] at isPrefix
        exact ⟨[], List.nil_prefix, ofSegments_eq_empty_of_isPrefix isPrefix⟩
      · rw [segments_above several] at isPrefix
        exact ⟨front, isPrefix.trans (List.dropLast_prefix _), rfl⟩

theorem encloses_self (directory : String) : Encloses directory directory :=
  encloses_iff.mpr (.inl rfl)

/-- The root is enclosed by nothing else. -/
theorem encloses_root_iff : Encloses outer "" ↔ outer = "" := by
  constructor
  · rintro ⟨front, isPrefix, rfl⟩
    exact ofSegments_eq_empty_of_isPrefix isPrefix
  · rintro rfl
    exact encloses_self ""

/-! ## Adding a directory from below -/

theorem packageAt_of_ne (nonempty : directory ≠ "") :
    packageAt directory = packageOf directory (Text.lastPiece '/' directory) (above directory) := by
  rw [packageAt, if_neg (by simpa using nonempty)]

/-- Segments in reverse order add what the directory they make adds. -/
theorem ensureSegments_reverse {front : List String} (plain : ∀ piece ∈ front, '/' ∉ piece.toList)
    (packages : PackageMap) :
    ensureSegments packages front.reverse = ensureDirectory packages (ofSegments front) := by
  by_cases empty : ofSegments front = ""
  · rw [empty]
    rcases PathText.eq_or_eq_of_ofSegments_eq_empty plain empty with rfl | rfl
    · rfl
    · -- One empty segment makes the root's path too, and then the root is all that is added.
      rfl
  · have some_segment : front ≠ [] := by
      rintro rfl
      exact empty rfl
    rw [ensureDirectory, if_neg (by simpa using empty),
      PathText.segments_ofSegments_of_plain some_segment plain]

/-- A directory that is not there is added, and then the one above it. -/
theorem ensureDirectory_eq (packages : PackageMap) (directory : String) :
    ensureDirectory packages directory =
      if directory ∈ Ordered.keys packages then packages
      else if directory = "" then packages ++ [("", rootPackage)]
      else ensureDirectory (packages ++ [(directory, packageAt directory)]) (above directory) := by
  by_cases root : directory = ""
  · subst root
    by_cases present : "" ∈ Ordered.keys packages
    · rw [if_pos present]
      exact if_pos (Ordered.isSome_get?_iff.mpr present)
    · rw [if_neg present, if_pos rfl]
      exact if_neg fun known => present (Ordered.isSome_get?_iff.mp known)
  · have pieces : segments directory
        = (segments directory).dropLast ++ [Text.lastPiece '/' directory] :=
      Text.split_eq_append_lastPiece '/' directory
    have reversed : (segments directory).reverse
        = Text.lastPiece '/' directory :: (segments directory).dropLast.reverse := by
      conv_lhs => rw [pieces]
      exact List.reverse_concat
    have whole : ofSegments (segments directory) = directory :=
      PathText.ofSegments_segments directory
    rw [ensureDirectory, if_neg (by simpa using root), reversed, ensureSegments, ← reversed,
      List.reverse_reverse, List.reverse_reverse, whole, if_neg root, packageAt_of_ne root]
    simp only [Ordered.isSome_get?_iff, String.isEmpty_iff, root, if_false]
    rw [ensureSegments_reverse (plain_of_mem_dropLast directory)]
    rfl

/-- Packages were added behind the others for a directory and for what encloses it. -/
structure Gains (before after : PackageMap) (directory : String) : Prop where
  /-- What was there stays in front. -/
  isPrefix : before <+: after
  /-- No directory is added twice. -/
  nodup : (Ordered.keys before).Nodup → (Ordered.keys after).Nodup
  /-- A new package is the one that its directory has, which encloses the directory asked for. -/
  added : ∀ other package, (other, package) ∈ after → (other, package) ∉ before →
    package = packageAt other ∧ Encloses other directory ∧
      (other ≠ "" → above other ∈ Ordered.keys after)
  /-- The directory asked for is there. -/
  present : directory ∈ Ordered.keys after

theorem Gains.refl (present : directory ∈ Ordered.keys packages) :
    Gains packages packages directory :=
  ⟨List.prefix_refl _, id, fun _ _ known fresh => absurd known fresh, present⟩

theorem nodup_concat {package : Package} (fresh : directory ∉ Ordered.keys packages)
    (nodup : (Ordered.keys packages).Nodup) :
    (Ordered.keys (packages ++ [(directory, package)])).Nodup := by
  rw [← Ordered.set_of_absent fresh]
  exact Ordered.nodup_keys_set nodup

/-- The root is added alone. -/
theorem gains_root (fresh : "" ∉ Ordered.keys packages) :
    Gains packages (packages ++ [("", rootPackage)]) "" := by
  refine ⟨List.prefix_append _ _, nodup_concat fresh, ?_, by simp [Ordered.keys]⟩
  intro other package known new
  obtain ⟨rfl, rfl⟩ : other = "" ∧ package = rootPackage := by simpa [new] using known
  exact ⟨rfl, encloses_self "", fun nonempty => absurd rfl nonempty⟩

/-- A directory is added before what is added for the one above it. -/
theorem Gains.below (fresh : directory ∉ Ordered.keys before)
    (gains : Gains (before ++ [(directory, packageAt directory)]) after (above directory)) :
    Gains before after directory := by
  have listed : (directory, packageAt directory) ∈ after := gains.isPrefix.subset (by simp)
  refine ⟨(List.prefix_append _ _).trans gains.isPrefix,
    fun nodup => gains.nodup (nodup_concat fresh nodup), ?_, List.mem_map_of_mem listed⟩
  intro other package known new
  by_cases first : (other, package) = (directory, packageAt directory)
  · obtain ⟨rfl, rfl⟩ := Prod.mk.inj first
    exact ⟨rfl, encloses_self other, fun _ => gains.present⟩
  · obtain ⟨package_eq, encloses, closed⟩ := gains.added other package known (by simp [new, first])
    exact ⟨package_eq, encloses_iff.mpr (.inr encloses), closed⟩

/-- Adding a directory brings it in, with all that encloses it and is missing. -/
theorem gains_ensureDirectory (packages : PackageMap) (directory : String) :
    Gains packages (ensureDirectory packages directory) directory := by
  induction directory using inductionOnAbove generalizing packages with
  | root =>
      rw [ensureDirectory_eq]
      split
      next present => exact .refl present
      next fresh => exact gains_root fresh
  | below directory nonempty ih =>
      rw [ensureDirectory_eq, if_neg nonempty]
      split
      next present => exact .refl present
      next fresh => exact .below fresh (ih _)

/-! ## Trees of packages -/

/-- The packages are a tree: no directory stands there twice, each has the package that is its own,
and the directory above each but the root is there. -/
structure Rooted (packages : PackageMap) : Prop where
  /-- No directory stands there twice. -/
  nodup : (Ordered.keys packages).Nodup
  /-- Each directory has its own package. -/
  package_eq : ∀ directory package, (directory, package) ∈ packages → package = packageAt directory
  /-- The directory above each but the root is there. -/
  above_mem : ∀ directory ∈ Ordered.keys packages, directory ≠ "" →
    above directory ∈ Ordered.keys packages

theorem rooted_nil : Rooted [] :=
  ⟨List.nodup_nil, fun _ _ present => absurd present List.not_mem_nil,
    fun _ present => absurd present List.not_mem_nil⟩

/-- What encloses a directory of a tree is in the tree. -/
theorem Rooted.mem_keys_of_encloses (rooted : packages.Rooted)
    (present : inner ∈ Ordered.keys packages) (encloses : Encloses outer inner) :
    outer ∈ Ordered.keys packages := by
  induction inner using inductionOnAbove with
  | root => exact encloses_root_iff.mp encloses ▸ present
  | below inner nonempty ih =>
      rcases encloses_iff.mp encloses with rfl | encloses
      · exact present
      · exact ih (rooted.above_mem inner present nonempty) encloses

/-- In a tree each directory has its own package, and no other directory has any. -/
theorem Rooted.get?_eq (rooted : packages.Rooted) (directory : String) :
    packages.get? directory
      = if directory ∈ Ordered.keys packages then some (packageAt directory) else none := by
  split
  next present =>
    obtain ⟨⟨_, package⟩, listed, rfl⟩ := List.mem_map.mp present
    rw [Ordered.get?_of_mem rooted.nodup listed, rooted.package_eq _ _ listed]
  next absent => simpa [← Ordered.isSome_get?_iff] using absent

/-- A tree that gains a directory stays a tree. -/
theorem Rooted.of_gains (rooted : before.Rooted) (gains : Gains before after directory) :
    after.Rooted := by
  refine ⟨gains.nodup rooted.nodup, ?_, ?_⟩
  · intro other package known
    by_cases early : (other, package) ∈ before
    · exact rooted.package_eq other package early
    · exact (gains.added other package known early).1
  · intro _ known nonempty
    obtain ⟨⟨other, package⟩, listed, rfl⟩ := List.mem_map.mp known
    by_cases early : (other, package) ∈ before
    · refine keys_subset gains.isPrefix.subset ?_
      exact rooted.above_mem other (List.mem_map_of_mem early) nonempty
    · exact (gains.added other package listed early).2.2 nonempty

/-- A tree gains a directory with what encloses it, and nothing else. -/
theorem Rooted.mem_keys_of_gains_iff (rooted : before.Rooted)
    (gains : Gains before after directory) :
    inner ∈ Ordered.keys after ↔ inner ∈ Ordered.keys before ∨ Encloses inner directory := by
  constructor
  · intro known
    obtain ⟨⟨inner, package⟩, listed, rfl⟩ := List.mem_map.mp known
    by_cases early : (inner, package) ∈ before
    · exact .inl (List.mem_map_of_mem early)
    · exact .inr (gains.added inner package listed early).2.1
  · rintro (known | encloses)
    · exact keys_subset gains.isPrefix.subset known
    · exact (rooted.of_gains gains).mem_keys_of_encloses gains.present encloses

/-! ## The packages of files -/

/-- Adding the directories of files one after the other keeps a tree and adds what encloses them. -/
theorem Rooted.addDirectories (rooted : packages.Rooted) (files : List String) :
    let added := files.foldl
      (fun packages file => ensureDirectory packages (directoryOf file)) packages
    added.Rooted ∧ ∀ directory, directory ∈ Ordered.keys added ↔
      directory ∈ Ordered.keys packages ∨
        ∃ file ∈ files, Encloses directory (directoryOf file) := by
  induction files generalizing packages with
  | nil => exact ⟨rooted, fun directory => by simp⟩
  | cons file files ih =>
      have gains := gains_ensureDirectory packages (directoryOf file)
      obtain ⟨still_rooted, keys_iff⟩ := ih (rooted.of_gains gains)
      rw [List.foldl_cons]
      refine ⟨still_rooted, fun directory => ?_⟩
      rw [keys_iff, rooted.mem_keys_of_gains_iff gains, or_assoc]
      simp

/-- The packages of files are a tree. -/
theorem rooted_ofFiles (files : List String) : (ofFiles files).Rooted :=
  (rooted_nil.addDirectories _).1

theorem id_packageAt (directory : String) : (packageAt directory).id = packageId directory := by
  by_cases root : directory = ""
  · subst root
    rfl
  · rw [packageAt_of_ne root]
    rfl

/-- A further file adds to a tree what is missing of the tree of the file alone. -/
theorem Rooted.ensureFile (rooted : packages.Rooted) (file : String) :
    (packages.ensureFile file).Rooted := by
  rw [PackageMap.ensureFile]
  split
  next => exact rooted
  next =>
    have alone := rooted_ofFiles [file]
    refine ⟨?_, ?_, ?_⟩
    · rw [fill, Ordered.keys, List.map_append, List.nodup_append]
      refine ⟨rooted.nodup, (List.filter_sublist.map _).nodup alone.nodup, ?_⟩
      rintro directory old _ new rfl
      obtain ⟨entry, missing, rfl⟩ := List.mem_map.mp new
      have fresh := (List.mem_filter.mp missing).2
      rw [Option.isNone_iff_eq_none, ← Option.not_isSome_iff_eq_none] at fresh
      exact fresh (Ordered.isSome_get?_iff.mpr old)
    · intro directory package listed
      rcases mem_fill.mp listed with old | ⟨new, _⟩
      · exact rooted.package_eq directory package old
      · exact alone.package_eq directory package new
    · intro directory known nonempty
      exact mem_keys_fill.mpr ((mem_keys_fill.mp known).imp
        (rooted.above_mem directory · nonempty) (alone.above_mem directory · nonempty))

end PackageMap

end CodeGraph
