import CodeGraph.Proofs.Draft.PassEdits
import CodeGraph.Proofs.Model.PackageTree
import CodeGraph.Proofs.Outcomes

/-!
# Which packages can be built

An id is made from a text that has an encoding, so the packages of files can be built exactly if the
directory of each file has one: what encloses a directory is made of its segments, and no refusal
waits further up. The first file in order whose directory has no encoding ends the work.
-/

namespace CodeGraph

/-! ## Texts with an encoding -/

namespace Text

variable {first second : String}

@[simp] theorem isEncodable_append :
    isEncodable (first ++ second) = (isEncodable first && isEncodable second) := by
  rw [isEncodable, String.toList_append, List.all_append]
  rfl

end Text

namespace PathText

/-- A path has an encoding exactly if all its segments have one. -/
theorem isEncodable_ofSegments_iff {pieces : List String} :
    Text.isEncodable (ofSegments pieces) = true ↔
      ∀ piece ∈ pieces, Text.isEncodable piece = true := by
  induction pieces with
  | nil => simp [ofSegments, Text.isEncodable]
  | cons piece others ih =>
      cases others with
      | nil => simp [ofSegments]
      | cons next others =>
          have slash : Text.isEncodable "/" = true := by decide
          rw [ofSegments, String.intercalate_cons_of_ne_nil (by simp), Text.isEncodable_append,
            Text.isEncodable_append, slash, Bool.and_true, Bool.and_eq_true, ← ofSegments, ih]
          simp only [List.forall_mem_cons]

end PathText

namespace PackageMap

variable {directory inner outer file : String} {packages : PackageMap} {files : List String}

/-- What encloses a directory with an encoding has one. -/
theorem Encloses.isEncodable (encloses : Encloses outer inner)
    (encodable : Text.isEncodable inner = true) : Text.isEncodable outer = true := by
  obtain ⟨front, isPrefix, rfl⟩ := encloses
  rw [← PathText.ofSegments_segments inner] at encodable
  exact PathText.isEncodable_ofSegments_iff.mpr fun piece present =>
    PathText.isEncodable_ofSegments_iff.mp encodable piece (isPrefix.subset present)

/-! ## Ids of packages -/

/-- The id of a package is made exactly if the directory has an encoding. -/
theorem hash_ofPackage (directory : String) :
    (IdKey.ofPackage directory).hash =
      if Text.isEncodable directory then .ok (packageId directory) else .error ⟨directory⟩ := by
  by_cases root : directory = ""
  · subst root
    rfl
  · have key_text : (IdKey.ofPackage directory).text = directory :=
      if_neg (by simpa using root)
    rw [IdKey.hash, hashId, key_text]
    split
    · rw [packageId, IdKey.id, key_text]
    · rfl

/-- The ids of packages are made up to the first directory that has no encoding. -/
theorem hashAll_eq (directories : List String) :
    hashAll directories =
      match directories.find? (!Text.isEncodable ·) with
      | some directory => .error ⟨directory⟩
      | none => .ok (directories.map packageId) := by
  induction directories with
  | nil => rfl
  | cons directory directories ih =>
      rw [hashAll, List.mapM_cons, hash_ofPackage, ← hashAll, ih]
      by_cases encodable : Text.isEncodable directory = true
      · rw [if_pos encodable, List.find?_cons_of_neg (by simp [encodable])]
        cases directories.find? (!Text.isEncodable ·) <;>
          simp [bind, Except.bind, pure, Except.pure]
      · rw [if_neg encodable, List.find?_cons_of_pos (by simp [encodable])]
        rfl

/-! ## The first text in order -/

/-- The first of sorted texts that passes a test comes before all others that do. -/
theorem textLe_of_find?_sortOn {texts : List String} {test : String → Bool} {first other : String}
    (found : (sortOn textLe id texts).find? test = some first) (listed : other ∈ texts)
    (passes : test other = true) : textLe first other = true := by
  obtain ⟨_, before, after, sorted_eq, fail⟩ := List.find?_eq_some_iff_append.mp found
  have sorted := pairwise_sortOn textLe id textLe_trans textLe_total texts
  rw [sorted_eq] at sorted
  have place : other ∈ before ++ first :: after := sorted_eq ▸ (mem_sortOn ..).mpr listed
  rcases List.mem_append.mp place with early | later
  · have fails := fail other early
    simp [passes] at fails
  · rcases List.mem_cons.mp later with rfl | later
    · simpa using textLe_total other other
    · exact List.rel_of_pairwise_cons (List.pairwise_append.mp sorted).2.1 later

/-- So it is the least one. -/
theorem find?_sortOn_eq_some_iff {texts : List String} {test : String → Bool} {first : String} :
    (sortOn textLe id texts).find? test = some first ↔
      first ∈ texts ∧ test first = true ∧
        ∀ other ∈ texts, test other = true → textLe first other = true := by
  constructor
  · intro found
    exact ⟨(mem_sortOn ..).mp (List.mem_of_find?_eq_some found), List.find?_some found,
      fun _ => textLe_of_find?_sortOn found⟩
  · rintro ⟨listed, passes, least⟩
    cases found : (sortOn textLe id texts).find? test with
    | none => exact absurd passes (List.find?_eq_none.mp found first ((mem_sortOn ..).mpr listed))
    | some second =>
        have second_mem := (mem_sortOn ..).mp (List.mem_of_find?_eq_some found)
        exact congrArg some (textLe_antisymm (textLe_of_find?_sortOn found listed passes)
          (least second second_mem (List.find?_some found)))

/-- Adding directories one after the other leaves what is there in front. -/
theorem isPrefix_addDirectories (packages : PackageMap) (files : List String) :
    packages <+: files.foldl
      (fun packages file => ensureDirectory packages (directoryOf file)) packages := by
  induction files generalizing packages with
  | nil => exact List.prefix_refl _
  | cons file files ih =>
      rw [List.foldl_cons]
      exact (gains_ensureDirectory packages (directoryOf file)).isPrefix.trans (ih _)

/-- A directory that is not there is added before all that encloses it. -/
theorem isPrefix_ensureDirectory (fresh : directory ∉ Ordered.keys packages)
    (nonempty : directory ≠ "") :
    packages ++ [(directory, packageAt directory)] <+: ensureDirectory packages directory := by
  rw [ensureDirectory_eq, if_neg fresh, if_neg nonempty]
  exact (gains_ensureDirectory _ _).isPrefix

/-- Adding a directory with an encoding adds none without one. -/
theorem forall_isEncodable_ensureDirectory
    (encodable : ∀ known ∈ Ordered.keys packages, Text.isEncodable known = true)
    (here : Text.isEncodable directory = true) :
    ∀ known ∈ Ordered.keys (ensureDirectory packages directory),
      Text.isEncodable known = true := by
  intro known present
  obtain ⟨⟨known, package⟩, listed, rfl⟩ := List.mem_map.mp present
  by_cases early : (known, package) ∈ packages
  · exact encodable known (List.mem_map_of_mem early)
  · have gains := gains_ensureDirectory packages directory
    exact (gains.added known package listed early).2.1.isEncodable here

/-- The first directory without an encoding that is added is that of the first file in a directory
without one: what encloses a directory is refused only behind it. -/
theorem find?_addDirectories (packages : PackageMap)
    (encodable : ∀ known ∈ Ordered.keys packages, Text.isEncodable known = true)
    (files : List String) :
    (Ordered.keys (files.foldl
      (fun packages file => ensureDirectory packages (directoryOf file)) packages)).find?
        (!Text.isEncodable ·)
      = (files.find? fun file => !Text.isEncodable (directoryOf file)).map directoryOf := by
  have none_before : (Ordered.keys packages).find? (!Text.isEncodable ·) = none := by
    simpa using encodable
  induction files generalizing packages with
  | nil => exact none_before
  | cons file files ih =>
      rw [List.foldl_cons]
      by_cases here : Text.isEncodable (directoryOf file) = true
      · have still_encodable := forall_isEncodable_ensureDirectory encodable here
        rw [List.find?_cons_of_neg (by simp [here])]
        exact ih _ still_encodable (by simpa using still_encodable)
      · have fresh : directoryOf file ∉ Ordered.keys packages := fun known =>
          here (encodable _ known)
        have nonempty : directoryOf file ≠ "" := fun root => here (by rw [root]; decide)
        obtain ⟨later, whole_eq⟩ :=
          (isPrefix_ensureDirectory fresh nonempty).trans (isPrefix_addDirectories _ files)
        have keys_eq : Ordered.keys (packages ++ [(directoryOf file, packageAt (directoryOf file))]
            ++ later) = Ordered.keys packages ++ directoryOf file :: Ordered.keys later := by
          simp [Ordered.keys]
        rw [← whole_eq, keys_eq, List.find?_append, none_before,
          List.find?_cons_of_pos (by simp [here]), List.find?_cons_of_pos (by simp [here])]
        rfl

/-- The packages of files can be built up to the first file in order whose directory has no
encoding. -/
theorem build_eq (files : List String) :
    build files =
      match (sortOn textLe id files).find? fun file => !Text.isEncodable (directoryOf file) with
      | some file => .error ⟨directoryOf file⟩
      | none => .ok (ofFiles files) := by
  have first_refused := find?_addDirectories [] (by simp [Ordered.keys]) (sortOn textLe id files)
  rw [build, hashAll_eq, ofFiles, first_refused]
  cases (sortOn textLe id files).find? fun file => !Text.isEncodable (directoryOf file) with
  | none => rfl
  | some file => rfl

/-- The packages of files can be built exactly if each directory has an encoding. -/
theorem build_eq_ok_iff {files : List String} :
    build files = .ok packages ↔
      (∀ file ∈ files, Text.isEncodable (directoryOf file) = true) ∧ packages = ofFiles files := by
  rw [build_eq]
  cases refused :
      (sortOn textLe id files).find? fun file => !Text.isEncodable (directoryOf file) with
  | none =>
      have all : ∀ file ∈ files, Text.isEncodable (directoryOf file) = true := by
        simpa [List.find?_eq_none] using refused
      exact ⟨fun built => ⟨all, (Except.ok.inj built).symm⟩, fun ⟨_, same⟩ => same ▸ rfl⟩
  | some file =>
      obtain ⟨listed, unencodable, _⟩ := find?_sortOn_eq_some_iff.mp refused
      exact ⟨fun built => (nomatch built), fun ⟨all, _⟩ => by simp [all file listed] at unencodable⟩

/-- A further file is added exactly if its directory is there or has an encoding. -/
theorem addFile_eq (packages : PackageMap) (file : String) :
    packages.addFile file =
      if directoryOf file ∈ Ordered.keys packages ∨ Text.isEncodable (directoryOf file) = true
      then .ok (packages.ensureFile file)
      else .error ⟨directoryOf file⟩ := by
  by_cases known : directoryOf file ∈ Ordered.keys packages
  · have present := Ordered.isSome_get?_iff.mpr known
    rw [addFile, if_pos present, if_pos (.inl known), ensureFile, if_pos present]
  · have absent : ¬ (packages.get? (directoryOf file)).isSome :=
      fun present => known (Ordered.isSome_get?_iff.mp present)
    rw [addFile, if_neg absent, build_eq, ensureFile, if_neg absent]
    have alone : sortOn textLe id [file] = [file] := by simp [sortOn]
    by_cases encodable : Text.isEncodable (directoryOf file) = true
    · rw [if_pos (.inr encodable), alone, List.find?_cons_of_neg (by simp [encodable])]
      rfl
    · rw [if_neg (by simp [known, encodable]), alone, List.find?_cons_of_pos (by simp [encodable])]
      rfl

end PackageMap

namespace Draft

open PackageMap (directoryOf)

variable {draft : Draft} {file : String}

/-- A program has an empty draft exactly if the directory of each of its files has an encoding. -/
theorem ofProgram_eq_ok_iff {program : Program} {options : ExtractOptions} {reporting : Bool} :
    ofProgram program options reporting = .ok draft ↔
      (∀ file ∈ program.paths, Text.isEncodable (directoryOf file) = true) ∧
        draft = start program options reporting := by
  simp only [ofProgram, map_eq_ok_iff, PackageMap.build_eq_ok_iff]
  constructor
  · rintro ⟨_, ⟨encodable, rfl⟩, rfl⟩
    exact ⟨encodable, rfl⟩
  · rintro ⟨encodable, rfl⟩
    exact ⟨_, ⟨encodable, rfl⟩, rfl⟩

/-- The package of a file is given exactly if its directory is there or has an encoding. -/
theorem packageFor_eq (draft : Draft) (file : String) :
    draft.packageFor file =
      if directoryOf file ∈ Ordered.keys draft.packages
          ∨ Text.isEncodable (directoryOf file) = true then
        .ok ({ draft with packages := draft.packages.ensureFile file },
          (draft.packages.ensureFile file).get? (directoryOf file))
      else .error ⟨directoryOf file⟩ := by
  rw [packageFor, PackageMap.addFile_eq]
  split <;> rfl

/-- The drafts there are: empty ones, and what edits and calls for packages make of them. -/
inductive Arises : Draft → Prop
  /-- A draft begins empty. -/
  | start {program : Program} {options : ExtractOptions} {reporting : Bool} {draft : Draft}
      (begun : ofProgram program options reporting = .ok draft) : Arises draft
  /-- An edit is made. -/
  | apply {draft : Draft} (arises : Arises draft) (edit : Edit) : Arises (draft.apply edit)
  /-- The package of a file is asked for and given. -/
  | packageFor {draft next : Draft} {file : String} {package : Option Package}
      (arises : Arises draft) (given : draft.packageFor file = .ok (next, package)) : Arises next

theorem Arises.applyAll (arises : draft.Arises) (edits : List Edit) :
    (draft.applyAll edits).Arises :=
  List.foldlRecOn edits _ arises fun _ arises edit _ => arises.apply edit

/-- Passes make edits and nothing else. -/
theorem Arises.run (arises : draft.Arises) (pass : Pass) : (pass.run draft).Arises := by
  rw [Pass.run_eq]
  exact arises.applyAll _

theorem rooted_apply (rooted : draft.packages.Rooted) (edit : Edit) :
    (draft.apply edit).packages.Rooted := by
  rw [packages_apply]
  cases edit.file? with
  | none => exact rooted
  | some file => exact rooted.ensureFile file

theorem rooted_of_packageFor {next : Draft} {package : Option Package}
    (rooted : draft.packages.Rooted) (given : draft.packageFor file = .ok (next, package)) :
    next.packages.Rooted := by
  rw [packageFor_eq] at given
  split at given
  · cases given
    exact rooted.ensureFile file
  · cases given

/-- The packages of a draft are a tree at any time. -/
theorem Arises.rooted (arises : draft.Arises) : draft.packages.Rooted := by
  induction arises with
  | @start program _ _ _ begun =>
      obtain ⟨_, rfl⟩ := ofProgram_eq_ok_iff.mp begun
      exact PackageMap.rooted_ofFiles program.paths
  | apply _ edit ih => exact rooted_apply ih edit
  | packageFor _ given ih => exact rooted_of_packageFor ih given

end Draft

open PackageMap (build directoryOf above packageAt Encloses)

end CodeGraph
