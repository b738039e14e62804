import CodeGraph.Files.Writing
import CodeGraph.Proofs.Files.Tips
import CodeGraph.Proofs.Files.Walks
import CodeGraph.Proofs.Outcomes

/-!
# What file operations change

A place without dots and without links on the way is reached as it is written. Making a directory
there, with those above it, makes directories where nothing stood on the way, and nothing else,
also when it fails. Writing a file there changes that place alone.
-/

namespace CodeGraph

namespace FileTree

open Entry (tipAt? Extends)

/-- A place that is reached as it is written: there are no dots and no links on the way. -/
structure Straight (top : Entry) (place : List String) : Prop where
  no_dots : ∀ name ∈ place, name ≠ "." ∧ name ≠ ".."
  no_link : ∀ front, front <+: place → ∀ target, top.at? front ≠ some (.link target)

variable {tree tree' : FileTree} {top top' : Entry} {place done rest : List String} {path : Path}
  {creating : Bool} {links : Nat} {fault : Option FileFault} {content : Content}

theorem Straight.front (straight : Straight top place) (front : done <+: place) :
    Straight top done where
  no_dots name present := straight.no_dots name (front.subset present)
  no_link before prefix_done := straight.no_link before (prefix_done.trans front)

theorem Straight.of_extends {region : List String → Prop} (straight : Straight top place)
    (extended : Extends region top top') : Straight top' place where
  no_dots := straight.no_dots
  no_link front before target stands :=
    straight.no_link front before target (extended.link_iff.mp stands)

/-! ## Walking straight -/

theorem Advances.eq_of_straight {halt : Halt} (advances : Advances top creating done rest halt)
    (straight : Straight top (done ++ rest)) : halt = .arrived (done ++ rest) := by
  induction advances with
  | arrived done => rw [List.append_nil]
  | dot => exact absurd rfl (straight.no_dots "." (by simp)).1
  | up => exact absurd rfl (straight.no_dots ".." (by simp)).2
  | link _ _ _ found _ => exact absurd found (straight.no_link _ (by simp) _)
  | down _ _ _ _ _ _ ih => simpa using ih (by simpa using straight)
  | fresh => rfl

theorem Follows.eq_of_straight {reached : List String}
    (follows : Follows top creating links done rest reached)
    (straight : Straight top (done ++ rest)) : reached = done ++ rest := by
  cases follows with
  | arrives advances =>
      obtain ⟨⟩ := advances.eq_of_straight straight
      rfl
  | onward advances => exact nomatch advances.eq_of_straight straight

theorem startOf_absolute (tree : FileTree) (place : List String) :
    tree.startOf (.absolute place) = [] := rfl

theorem locate_of_straight {reached : List String} (straight : Straight tree.top place)
    (located : tree.locate (.absolute place) = .ok reached) : reached = place := by
  have from_top : Straight tree.top ([] ++ place) := straight
  exact (locate_eq_ok_iff.mp located).2.eq_of_straight from_top

/-! ## Making one directory -/

theorem locateDirectory_eq_ok_iff {reached : List String} :
    tree.locateDirectory path = .ok reached ↔
      tree.locate path = .ok reached ∧
        ∃ entries, tree.top.at? reached = some (.directory entries) := by
  simp only [locateDirectory, bind_eq_ok_iff]
  constructor
  · rintro ⟨place, located, found⟩
    split at found
    next entries stands =>
      obtain rfl := Except.ok.inj found
      exact ⟨located, entries, stands⟩
    next => exact nomatch found
    next => exact nomatch found
  · rintro ⟨located, entries, stands⟩
    exact ⟨reached, located, by rw [stands]; rfl⟩

/-- What it takes to make one directory. -/
theorem makeOneDirectory_eq_ok_iff :
    tree.makeOneDirectory path = .ok tree' ↔
      accept path = .ok () ∧ path.segments ≠ [] ∧ ∃ directory,
        tree.locateDirectory path.parent = .ok directory ∧ path.name ≠ ".." ∧
          isTooLong path.name = false ∧ tree.top.at? (directory ++ [path.name]) = none ∧
          tree.put (directory ++ [path.name]) (.directory []) = tree' := by
  rw [makeOneDirectory, check_bind_eq_ok_iff]
  refine and_congr_right fun _ => ?_
  split
  next empty => exact ⟨by rintro ⟨⟩, fun made => absurd empty made.1⟩
  next nonempty =>
    simp only [bind_eq_ok_iff, nonempty, ne_eq, reduceCtorEq, not_false_eq_true, true_and]
    refine exists_congr fun directory => and_congr_right fun _ => ?_
    split
    next dots => exact ⟨by rintro ⟨⟩, fun made => absurd (beq_iff_eq.mp dots) made.1⟩
    next no_dots =>
      split
      next long => exact ⟨by rintro ⟨⟩, fun made => absurd long (by simp [made.2.1])⟩
      next short =>
        have named : path.name ≠ ".." ∧ isTooLong path.name = false :=
          ⟨by simpa using no_dots, by simpa using short⟩
        split
        next stands =>
          exact ⟨by rintro ⟨⟩, fun made => absurd (stands.symm.trans made.2.2.1) (by simp)⟩
        next absent =>
          refine ⟨fun made => ⟨named.1, named.2, absent, Except.ok.inj made⟩, fun made => ?_⟩
          exact congrArg Except.ok made.2.2.2

theorem dropLast_append_name (nonempty : path.segments ≠ []) :
    path.segments.dropLast ++ [path.name] = path.segments := by
  rw [Path.name, List.getLastD_eq_getLast?, List.getLast?_eq_some_getLast nonempty]
  exact List.dropLast_append_getLast nonempty

/-- Within a region, directories stand where nothing did; all else is as it was. -/
def Deepens (region : List String → Prop) (top top' : Entry) : Prop :=
  ∀ other, tipAt? other top' = tipAt? other top ∨
    region other ∧ tipAt? other top = none ∧ tipAt? other top' = some (.directory [])

namespace Deepens

variable {region wider : List String → Prop}

theorem refl (region : List String → Prop) (top : Entry) : Deepens region top top :=
  fun _ => .inl rfl

theorem toExtends (deepened : Deepens region top top') : Extends region top top' := by
  intro other
  refine (deepened other).imp id ?_
  rintro ⟨above, absent, made⟩
  rw [absent, made]
  exact ⟨above, trivial, trivial⟩

theorem trans {top'' : Entry} (first : Deepens region top top')
    (second : Deepens region top' top'') : Deepens region top top'' := by
  intro other
  rcases first other with same | ⟨above, absent, made⟩ <;>
    rcases second other with same' | ⟨above', absent', made'⟩
  · exact .inl (same'.trans same)
  · exact .inr ⟨above', same ▸ absent', made'⟩
  · exact .inr ⟨above, absent, same'.trans made⟩
  · exact .inr ⟨above, absent, made'⟩

theorem mono (deepened : Deepens region top top') (subset : ∀ other, region other → wider other) :
    Deepens wider top top' :=
  fun other => (deepened other).imp id fun changed => ⟨subset other changed.1, changed.2⟩

end Deepens

/-- Putting an empty directory where nothing stands, in a directory that does. -/
theorem deepens_put (parent : ∃ entries, top.at? place.dropLast = some (.directory entries))
    (absent : top.at? place = none) :
    Deepens (· = place) top (Entry.put (.directory []) place top) := by
  intro other
  rw [Entry.tipAt?_put (fun _ => Entry.at?_nil_directory)
    (fun entries stands => nomatch absent.symm.trans stands) parent]
  split
  next same => exact .inr ⟨same, Entry.tipAt?_eq_none_iff.mpr (same ▸ absent), rfl⟩
  next => exact .inl rfl

theorem find?_eq_some_iff {entry : Entry} :
    tree.find? path = .ok (some entry) ↔ tree.find path = .ok entry := by
  unfold find?
  split <;> simp_all

theorem isDirectory_eq_true_iff :
    tree.isDirectory path = .ok true ↔ ∃ entries, tree.find path = .ok (.directory entries) := by
  simp only [isDirectory, bind_eq_ok_iff]
  constructor
  · rintro ⟨found?, found, is_directory⟩
    match found?, found, Except.ok.inj is_directory with
    | some (.directory entries), found, _ => exact ⟨entries, find?_eq_some_iff.mp found⟩
  · rintro ⟨entries, found⟩
    exact ⟨_, find?_eq_some_iff.mpr found, rfl⟩

theorem exists_directory_of_isDirectory (straight : Straight tree.top place)
    (found : tree.isDirectory (.absolute place) = .ok true) :
    ∃ entries, tree.top.at? place = some (.directory entries) := by
  obtain ⟨entries, found⟩ := isDirectory_eq_true_iff.mp found
  obtain ⟨reached, located, stands⟩ := find_eq_ok_iff.mp found
  exact ⟨entries, locate_of_straight straight located ▸ stands⟩

/-- What has come of making a directory and those above it, possibly in part. -/
structure MakesWay (place : List String) (tree : FileTree)
    (outcome : FileTree × Option FileFault) : Prop where
  deepens : Deepens (· <+: place) tree.top outcome.1.top
  stands : outcome.2 = none → ∃ entries, outcome.1.top.at? place = some (.directory entries)

theorem makesWay_ensureDirectory (straight : Straight tree.top place) :
    MakesWay place tree (tree.ensureDirectory (.absolute place)) := by
  unfold ensureDirectory
  split
  next tree' made =>
    obtain ⟨_, nonempty, directory, located, _, _, absent, rfl⟩ :=
      makeOneDirectory_eq_ok_iff.mp made
    obtain ⟨located, parent⟩ := locateDirectory_eq_ok_iff.mp located
    obtain rfl : directory = place.dropLast :=
      locate_of_straight (straight.front (List.dropLast_prefix place)) located
    have place_eq : place.dropLast ++ [(Path.absolute place).name] = place :=
      dropLast_append_name nonempty
    rw [place_eq] at absent ⊢
    refine ⟨(deepens_put parent absent).mono ?_, fun _ => ⟨[], Entry.at?_put_self _ place tree.top⟩⟩
    rintro _ rfl
    exact List.prefix_rfl
  next fault _ =>
    refine ⟨.refl _ tree.top, fun present => ?_⟩
    unfold faultUnlessPresent at present
    split at present
    next found =>
      exact exists_directory_of_isDirectory straight found
    next => exact nomatch present
    next => exact nomatch present

/-- Making directories along a straight place makes the way to it, as far as it comes. -/
theorem makesWay_makeDirectoriesAt {count : Nat} (straight : Straight tree.top place) :
    MakesWay (place.take count) tree (tree.makeDirectoriesAt (.absolute place) count) := by
  have front : ∀ count, place.take count <+: place := fun count => List.take_prefix count place
  induction count generalizing tree with
  | zero => exact makesWay_ensureDirectory (straight.front (front 0))
  | succ count ih =>
      have shorter : place.take count <+: place.take (count + 1) :=
        List.take_prefix_take_left (Nat.le_succ count)
      unfold makeDirectoriesAt
      dsimp only
      split
      next =>
        have before := ih straight
        generalize tree.makeDirectoriesAt (.absolute place) count = outcome at before ⊢
        have deepened := before.deepens.mono fun _ above => above.trans shorter
        match outcome, deepened with
        | (between, none), deepened =>
            have after := makesWay_ensureDirectory
              ((straight.front (front (count + 1))).of_extends deepened.toExtends)
            exact ⟨deepened.trans after.deepens, after.stands⟩
        | (between, some fault), deepened => exact ⟨deepened, nofun⟩
      next => exact makesWay_ensureDirectory (straight.front (front (count + 1)))

theorem makesWay_makeDirectories (straight : Straight tree.top place) :
    MakesWay place tree (tree.makeDirectories (.absolute place)) := by
  have made : MakesWay (place.take place.length) tree (tree.makeDirectories (.absolute place)) :=
    makesWay_makeDirectoriesAt straight
  rwa [List.take_length] at made

/-- A file that is written at a straight place takes the place of nothing or of a file. -/
theorem writeFile_of_straight (straight : Straight tree.top place)
    (written : tree.writeFile (.absolute place) content = .ok tree') :
    (∀ entries, tree.top.at? place ≠ some (.directory entries)) ∧
      tree' = tree.put place (.file content) := by
  obtain ⟨reached, located, written⟩ := bind_eq_ok_iff.mp written
  obtain ⟨place', followed, free⟩ := bind_eq_ok_iff.mp (check_bind_eq_ok_iff.mp located).2
  rw [startOf_absolute] at followed
  have from_top : Straight tree.top ([] ++ place) := straight
  obtain rfl : place' = place := (follow_eq_ok_iff.mp followed).eq_of_straight from_top
  split at free
  next => exact nomatch free
  next no_directory =>
    obtain rfl := Except.ok.inj free
    exact ⟨no_directory, (Except.ok.inj written).symm⟩

/-- Writing a file at a straight place, in a directory that stands, changes this place alone. -/
theorem tipAt?_writeFile (straight : Straight tree.top place)
    (parent : ∃ entries, tree.top.at? place.dropLast = some (.directory entries))
    (written : tree.writeFile (.absolute place) content = .ok tree') (other : List String) :
    tipAt? other tree'.top
      = if other = place then some (.file content) else tipAt? other tree.top := by
  obtain ⟨no_directory, rfl⟩ := writeFile_of_straight straight written
  refine Entry.tipAt?_put ?_ no_directory parent
  intro rest nonempty
  obtain ⟨name, rest, rfl⟩ := List.exists_cons_of_ne_nil nonempty
  rfl

theorem extends_writeFile (straight : Straight tree.top place)
    (parent : ∃ entries, tree.top.at? place.dropLast = some (.directory entries))
    (written : tree.writeFile (.absolute place) content = .ok tree') :
    Extends (· = place) tree.top tree'.top := by
  intro other
  rw [tipAt?_writeFile straight parent written]
  split
  next same =>
    subst same
    refine .inr ⟨rfl, ?_, trivial⟩
    obtain ⟨no_directory, _⟩ := writeFile_of_straight straight written
    have no_link := straight.no_link other List.prefix_rfl
    rw [Entry.tipAt?]
    cases stands : tree.top.at? other with
    | none => trivial
    | some entry =>
        cases entry with
        | file => trivial
        | link target => exact absurd stands (no_link target)
        | directory entries => exact absurd stands (no_directory entries)
  next => exact .inl rfl

end FileTree

end CodeGraph
