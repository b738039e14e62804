import CodeGraph.Proofs.Model.PackageTree

/-!
# Which packages are told apart

The id of a package is a digest of its directory, and packages name their parents by ids. As the
root has no name of its own, a placeholder stands for it in the digest. A directory may be named
like the placeholder, and then its package has the id of the root and is its own parent. It is the
only directory of this kind: where there is none, ids tell all packages apart, and the way up from a
package has as many steps as its directory has segments.
-/

namespace CodeGraph.PackageMap

/-- The text that makes the id of the package of a directory. -/
def identityText (directory : String) : String :=
  if directory.isEmpty then rootPackageName else directory

/-- Directories whose packages have the same id have the same text. -/
def DigestsApart (packages : PackageMap) : Prop :=
  ∀ first ∈ Ordered.keys packages, ∀ second ∈ Ordered.keys packages,
    packageId first = packageId second → identityText first = identityText second

instance (packages : PackageMap) : Decidable packages.DigestsApart :=
  inferInstanceAs (Decidable (∀ _ ∈ Ordered.keys packages, ∀ _ ∈ Ordered.keys packages, _ → _))

/-- One directory is the root, and the other one is named like its placeholder. -/
def IsPlaceholderPair (first second : String) : Prop :=
  first = "" ∧ second = rootPackageName ∨ first = rootPackageName ∧ second = ""

/-- The ways up from a package, each step to a package that has the id of the parent. -/
inductive Climbs (packages : PackageMap) : Nat → Package → Package → Prop
  /-- No step is taken. -/
  | here (package : Package) : Climbs packages 0 package package
  /-- A step is taken to a parent first. -/
  | up {steps : Nat} {package parent top : Package} (listed : parent ∈ Ordered.values packages)
      (parent_eq : package.parentId = some parent.id) (further : Climbs packages steps parent top) :
      Climbs packages (steps + 1) package top

variable {packages : PackageMap} {directory first second : String} {package parent top : Package}
  {steps : Nat}

/-! ## Ids -/

/-- Only the root shares its text, with the directory that is named like its placeholder. -/
theorem identityText_eq_iff :
    identityText first = identityText second ↔ first = second ∨ IsPlaceholderPair first second := by
  have apart : rootPackageName ≠ "" := by decide
  simp only [identityText, IsPlaceholderPair, String.isEmpty_iff]
  by_cases first_root : first = "" <;> by_cases second_root : second = "" <;>
    simp [first_root, second_root, apart.symm, eq_comm]

/-- Two directories of a tree have the same id exactly if they are the same or share their text. -/
theorem DigestsApart.packageId_eq_iff (apart : packages.DigestsApart)
    (first_mem : first ∈ Ordered.keys packages) (second_mem : second ∈ Ordered.keys packages) :
    packageId first = packageId second ↔ first = second ∨ IsPlaceholderPair first second := by
  rw [← identityText_eq_iff]
  constructor
  · exact apart first first_mem second second_mem
  · intro same
    change digestId "pkg:" (identityText first) = digestId "pkg:" (identityText second)
    rw [same]

/-- Where no directory is named like the placeholder, ids tell directories apart. -/
theorem DigestsApart.eq_of_packageId_eq (apart : packages.DigestsApart)
    (named : rootPackageName ∉ Ordered.keys packages) (first_mem : first ∈ Ordered.keys packages)
    (second_mem : second ∈ Ordered.keys packages) (same : packageId first = packageId second) :
    first = second := by
  rcases (apart.packageId_eq_iff first_mem second_mem).mp same with
    same | ⟨rfl, rfl⟩ | ⟨rfl, rfl⟩
  · exact same
  · exact absurd second_mem named
  · exact absurd first_mem named

/-! ## The way up -/

/-- A package of a tree is known by its directory. -/
theorem Rooted.id_eq (rooted : packages.Rooted) (listed : (directory, package) ∈ packages) :
    package.id = packageId directory := by
  rw [rooted.package_eq _ _ listed, id_packageAt]

theorem Rooted.mem_of_mem_keys (rooted : packages.Rooted)
    (present : directory ∈ Ordered.keys packages) :
    (directory, packageAt directory) ∈ packages := by
  refine Ordered.mem_of_get? ?_
  rw [rooted.get?_eq, if_pos present]

/-- A step up leads from a directory to the one above it. -/
theorem Rooted.step_up (rooted : packages.Rooted) (apart : packages.DigestsApart)
    (named : rootPackageName ∉ Ordered.keys packages) (listed : (directory, package) ∈ packages)
    (parent_mem : parent ∈ Ordered.values packages)
    (parent_eq : package.parentId = some parent.id) :
    directory ≠ "" ∧ (above directory, parent) ∈ packages := by
  have nonempty : directory ≠ "" := by
    rintro rfl
    rw [rooted.package_eq _ _ listed] at parent_eq
    exact nomatch parent_eq
  obtain ⟨⟨other, _⟩, other_listed, rfl⟩ := List.mem_map.mp parent_mem
  have present := rooted.above_mem directory (List.mem_map_of_mem listed) nonempty
  have same : packageId (above directory) = packageId other := by
    rw [rooted.package_eq _ _ listed, packageAt_of_ne nonempty] at parent_eq
    rw [← rooted.id_eq other_listed]
    exact Option.some.inj parent_eq
  obtain rfl := apart.eq_of_packageId_eq named present (List.mem_map_of_mem other_listed) same
  exact ⟨nonempty, other_listed⟩

/-- A way up has as many steps as segments are taken off. -/
theorem Climbs.length_eq (rooted : packages.Rooted) (apart : packages.DigestsApart)
    (named : rootPackageName ∉ Ordered.keys packages) (climbs : Climbs packages steps package top)
    (listed : (first, package) ∈ packages) (top_listed : (second, top) ∈ packages) :
    (segmentsOf first).length = steps + (segmentsOf second).length := by
  induction climbs generalizing first with
  | here package =>
      have same : packageId first = packageId second := by
        rw [← rooted.id_eq listed, ← rooted.id_eq top_listed]
      obtain rfl := apart.eq_of_packageId_eq named (List.mem_map_of_mem listed)
        (List.mem_map_of_mem top_listed) same
      exact (Nat.zero_add _).symm
  | up parent_mem parent_eq further ih =>
      obtain ⟨nonempty, above_listed⟩ := rooted.step_up apart named listed parent_mem parent_eq
      have rest := ih above_listed top_listed
      have shorter := length_segmentsOf_above nonempty
      omega

/-- From each directory of a tree there is a way up to the root. -/
theorem Rooted.climbs_root (rooted : packages.Rooted)
    (present : directory ∈ Ordered.keys packages) :
    Climbs packages (segmentsOf directory).length (packageAt directory) rootPackage := by
  induction directory using inductionOnAbove with
  | root => exact .here rootPackage
  | below directory nonempty ih =>
      have above_mem := rooted.above_mem directory present nonempty
      rw [← length_segmentsOf_above nonempty]
      refine .up (List.mem_map_of_mem (rooted.mem_of_mem_keys above_mem)) ?_ (ih above_mem)
      rw [packageAt_of_ne nonempty, id_packageAt]
      rfl

/-- The package of a directory that is named like the placeholder has the id of the root, which it
names as its parent. -/
theorem Rooted.placeholder (rooted : packages.Rooted)
    (listed : (rootPackageName, package) ∈ packages) :
    ("", rootPackage) ∈ packages ∧ package.id = rootPackage.id ∧
      package.parentId = some package.id := by
  have top : above rootPackageName = "" := by decide
  have present := rooted.above_mem rootPackageName (List.mem_map_of_mem listed) (by decide)
  rw [top] at present
  obtain rfl := rooted.package_eq _ _ listed
  exact ⟨rooted.mem_of_mem_keys present, rfl, rfl⟩

/-- Where digests of different texts differ, two directories of files share an id exactly if they
are the root and a directory at the top that is named like its placeholder. Without such a directory
the parents of a package lead to the root after as many steps as its directory has segments, and
never back to the package. With it, two directories have the same id, and the package of the second
one is its own parent. -/
theorem ids_tell_packages_apart (files : List String) (apart : (ofFiles files).DigestsApart) :
    (∀ first package second other,
      (first, package) ∈ ofFiles files → (second, other) ∈ ofFiles files →
        (package.id = other.id ↔ first = second ∨ IsPlaceholderPair first second)) ∧
      (rootPackageName ∉ Ordered.keys (ofFiles files) →
        ∀ directory package, (directory, package) ∈ ofFiles files →
          (∀ steps, Climbs (ofFiles files) steps package rootPackage
            ↔ steps = (segmentsOf directory).length) ∧
          ∀ steps, Climbs (ofFiles files) steps package package → steps = 0) ∧
      ∀ package, (rootPackageName, package) ∈ ofFiles files →
        ("", rootPackage) ∈ ofFiles files ∧ package.id = rootPackage.id ∧
          package.parentId = some package.id ∧ Climbs (ofFiles files) 1 package package := by
  have rooted := rooted_ofFiles files
  refine ⟨?_, ?_, ?_⟩
  · intro first package second other listed other_listed
    rw [rooted.id_eq listed, rooted.id_eq other_listed]
    exact apart.packageId_eq_iff (List.mem_map_of_mem listed) (List.mem_map_of_mem other_listed)
  · intro named directory package listed
    have present : directory ∈ Ordered.keys (ofFiles files) := List.mem_map_of_mem listed
    have root_mem : "" ∈ Ordered.keys (ofFiles files) :=
      rooted.mem_keys_of_encloses present ⟨[], List.nil_prefix, rfl⟩
    have no_segments : segmentsOf "" = [] := segmentsOf_eq_nil_iff.mpr rfl
    refine ⟨fun steps => ⟨fun climbs => ?_, ?_⟩, fun steps climbs => ?_⟩
    · have length_eq := climbs.length_eq rooted apart named listed (rooted.mem_of_mem_keys root_mem)
      rw [no_segments] at length_eq
      exact length_eq.symm
    · rintro rfl
      rw [rooted.package_eq _ _ listed]
      exact rooted.climbs_root present
    · have length_eq := climbs.length_eq rooted apart named listed listed
      omega
  · intro package listed
    obtain ⟨root_listed, id_eq, parent_eq⟩ := rooted.placeholder listed
    exact ⟨root_listed, id_eq, parent_eq,
      .up (List.mem_map_of_mem listed) parent_eq (.here package)⟩

theorem ids_tell_packages_apart_placeholder :
    (∃ package, (rootPackageName, package) ∈ ofFiles ["(root)/a.ts"] ∧
      package.id = rootPackage.id ∧ package.parentId = some package.id) ∧
      ∃ package, ("src/app", package) ∈ ofFiles ["src/app/a.ts"] ∧
        package.id ≠ rootPackage.id ∧ Climbs (ofFiles ["src/app/a.ts"]) 2 package rootPackage := by
  constructor
  · have apart : (ofFiles ["(root)/a.ts"]).DigestsApart := by decide +kernel
    obtain ⟨_, _, shared⟩ := ids_tell_packages_apart _ apart
    have listed : (rootPackageName, packageAt rootPackageName) ∈ ofFiles ["(root)/a.ts"] := by
      decide +kernel
    obtain ⟨_, id_eq, parent_eq, _⟩ := shared _ listed
    exact ⟨_, listed, id_eq, parent_eq⟩
  · have apart : (ofFiles ["src/app/a.ts"]).DigestsApart := by decide +kernel
    obtain ⟨told, ways, _⟩ := ids_tell_packages_apart _ apart
    have listed : ("src/app", packageAt "src/app") ∈ ofFiles ["src/app/a.ts"] := by decide +kernel
    have root_listed : ("", rootPackage) ∈ ofFiles ["src/app/a.ts"] := by decide +kernel
    refine ⟨_, listed, ?_, ((ways (by decide +kernel) _ _ listed).1 2).mpr (by decide)⟩
    rw [ne_eq, told _ _ _ _ listed root_listed, IsPlaceholderPair]
    decide

end CodeGraph.PackageMap
