import CodeGraph.Files.Archive
import CodeGraph.Proofs.Files.Opening

/-!
# Unpacking stays inside of the destination

Whatever an archive holds and however unpacking it ends, nothing outside of the destination is
made or written. Where a name leads is the same at every point of the run, although the tree
grows: so the first name that leads out of the destination is known beforehand. If the file
operations succeed, the run ends there, and what it leaves is what the members before that one
stand for, the later of two members counting.
-/

namespace CodeGraph

namespace Archive

open FileTree Entry

variable {tree tree' opened : FileTree} {root target destination : Path} {place : List String}
  {member : ArchiveMember} {members : List ArchiveMember} {name : String}

/-- A directory stands at an absolute path without dots, and there is no link in it. -/
structure IsLinkless (tree : FileTree) (root : Path) : Prop where
  absolute : root = .absolute root.segments
  no_dots : ∀ name ∈ root.segments, name ≠ "." ∧ name ≠ ".."
  stands : ∃ entries, tree.top.at? root.segments = some (.directory entries)
  no_link : ∀ place, root.segments <+: place → ∀ target, tree.top.at? place ≠ some (.link target)

/-- The place lies in the directory, or is its own. -/
def Inside (root : Path) (place : List String) : Prop :=
  root.segments <+: place

theorem IsLinkless.of_extends (linkless : IsLinkless tree root)
    (extended : Extends (Inside root) tree.top tree'.top) : IsLinkless tree' root where
  absolute := linkless.absolute
  no_dots := linkless.no_dots
  stands := extended.directory linkless.stands
  no_link place inside target stands :=
    linkless.no_link place inside target (extended.link_iff.mp stands)

/-! ## Where names lead -/

theorem isAbsolute_below (absolute : root.isAbsolute = true) (name : String) :
    (root.below name).isAbsolute = true := by
  unfold Path.below Path.join
  split
  next itself => exact itself
  next => exact absolute

theorem IsLinkless.isAbsolute (linkless : IsLinkless tree root) : root.isAbsolute = true := by
  rw [linkless.absolute]
  rfl

/-- A place inside of the directory to which a name leads is reached as it is written. -/
theorem IsLinkless.straight (linkless : IsLinkless tree root)
    (resolves : tree.resolve (root.below name) = .ok target)
    (inside : Inside root target.segments) :
    Straight tree.top target.segments := by
  have start : tree.startOf (root.below name) = [] :=
    if_pos (isAbsolute_below linkless.isAbsolute name)
  have no_dot : "." ∉ tree.startOf (root.below name) ++ (root.below name).segments := by
    rw [start, List.nil_append, Path.below, Path.join]
    split
    · exact Resolving.dot_not_mem_segments name
    · rw [List.mem_append, not_or]
      exact ⟨fun present => (linkless.no_dots _ present).1 rfl,
        Resolving.dot_not_mem_segments name⟩
  refine ⟨fun segment present => ⟨?_, ?_⟩, fun front above link stands => ?_⟩
  · rintro rfl
    exact dot_not_mem_of_resolve no_dot resolves present
  · rintro rfl
    exact dots_not_mem_of_resolve (by simp [start]) resolves present
  · rcases List.prefix_or_prefix_of_prefix above inside with before | behind
    · obtain ⟨_, directory⟩ := linkless.stands
      obtain ⟨_, directory⟩ := exists_directory_above before directory
      cases stands.symm.trans directory
    · exact linkless.no_link front behind link stands

theorem isWithin_iff (absolute : root = .absolute root.segments)
    (resolves : tree.resolve (root.below name) = .ok target) :
    isWithin root target = true ↔ Inside root target.segments := by
  have same : root.anchor = target.anchor := by
    rw [absolute, eq_absolute_of_resolve resolves]
    rfl
  simp [isWithin, same, Inside]

/-! ## What a member makes -/

/-- What a member that is unpacked at a target stands for at a place: itself at the target, and
directories above it. -/
def madeAt (target : List String) (member : ArchiveMember) (place : List String) : Option Entry :=
  if place = target then
    some (if member.isDirectory then .directory [] else .file member.content)
  else if place.isPrefixOf target then
    some (.directory [])
  else
    none

/-- Making directories on the way to a place inside changes nothing outside. -/
theorem IsLinkless.extends_of_deepens (linkless : IsLinkless tree root)
    (inside : Inside root place) (deepens : Deepens (· <+: place) tree.top tree'.top) :
    Extends (Inside root) tree.top tree'.top := by
  intro other
  refine (deepens other).imp id ?_
  rintro ⟨above, absent, made⟩
  refine ⟨?_, by rw [absent]; trivial, by rw [made]; trivial⟩
  refine (List.prefix_or_prefix_of_prefix above inside).resolve_left fun before => ?_
  obtain ⟨_, directory⟩ := linkless.stands
  obtain ⟨_, directory⟩ := exists_directory_above before directory
  exact nomatch (tipAt?_eq_none_iff.mp absent).symm.trans directory

theorem tipAt?_of_makesWay {outcome : FileTree × Option FileFault}
    (made : MakesWay place tree outcome) (succeeded : outcome.2 = none) (other : List String) :
    tipAt? other outcome.1.top
      = if other <+: place then some (.directory []) else tipAt? other tree.top := by
  split
  next above =>
    obtain ⟨_, stands⟩ := made.stands succeeded
    exact tipAt?_eq_directory_iff.mpr (exists_directory_above above stands)
  next apart => exact (made.deepens other).resolve_right fun changed => apart changed.1

theorem madeAt_of_ne {goal other : List String} (ne : other ≠ goal) :
    madeAt goal member other = if other <+: goal then some (.directory []) else none := by
  simp [madeAt, ne]

/-- What has come of making what a member stands for, possibly in part. -/
structure Makes (root : Path) (goal : List String) (member : ArchiveMember) (tree : FileTree)
    (outcome : FileTree × Option FileFault) : Prop where
  inside : Extends (Inside root) tree.top outcome.1.top
  tips : outcome.2 = none → ∀ other,
    tipAt? other outcome.1.top = (madeAt goal member other).or (tipAt? other tree.top)

theorem makes_make {goal : List String} (linkless : IsLinkless tree root)
    (straight : Straight tree.top goal) (inside : Inside root goal) (member : ArchiveMember) :
    Makes root goal member tree (make tree (.absolute goal) member) := by
  unfold make
  split
  next is_directory =>
    have made := makesWay_makeDirectories straight
    refine ⟨linkless.extends_of_deepens inside made.deepens, fun succeeded other => ?_⟩
    rw [tipAt?_of_makesWay made succeeded]
    by_cases here : other = goal
    · simp [madeAt, here, is_directory]
    · rw [madeAt_of_ne here]
      split <;> rfl
  next is_file =>
    have made := makesWay_makeDirectories (straight.front (List.dropLast_prefix goal))
    have extended := linkless.extends_of_deepens inside
      (made.deepens.mono fun _ above => above.trans (List.dropLast_prefix goal))
    change Makes root goal member tree (onward (tree.makeDirectories (.absolute goal.dropLast)) _)
    generalize tree.makeDirectories (.absolute goal.dropLast) = outcome at made extended ⊢
    obtain ⟨between, _ | fault⟩ := outcome
    · rw [onward_none]
      split
      next after written =>
        have straight_between := straight.of_extends extended
        have parent := made.stands rfl
        have wrote := (extends_writeFile straight_between parent written).mono
          (by rintro _ rfl; exact inside : ∀ place, place = goal → Inside root place)
        refine ⟨extended.trans wrote, fun _ other => ?_⟩
        rw [tipAt?_writeFile straight_between parent written]
        split
        next here => simp [madeAt, here, is_file]
        next ne =>
          have way := tipAt?_of_makesWay made rfl other
          dsimp only at way
          rw [way, madeAt_of_ne ne]
          simp only [prefix_dropLast_iff ne]
          split <;> rfl
      next => exact ⟨extended, nofun⟩
    · exact ⟨extended, nofun⟩

/-! ## The run -/

/-- Where the name of a member leads. -/
def goal (tree : FileTree) (root : Path) (member : ArchiveMember) : Option Path :=
  (tree.resolve (root.below member.effectiveName)).toOption

/-- The name of the member leads out of the directory. -/
def leaves (tree : FileTree) (root : Path) (member : ArchiveMember) : Bool :=
  (goal tree root member).any (!isWithin root ·)

/-- What a member stands for at a place once it is unpacked. -/
def standsFor (tree : FileTree) (root : Path) (place : List String) (member : ArchiveMember) :
    Option Entry :=
  (goal tree root member).bind fun target => madeAt target.segments member place

theorem goal_of_resolve
    (resolves : tree.resolve (root.below member.effectiveName) = .ok target) :
    goal tree root member = some target := by
  rw [goal, resolves]
  rfl

/-- What has come of unpacking one member. -/
inductive Step (root : Path) (member : ArchiveMember) (tree : FileTree) :
    FileTree × Option ArchiveError → Prop where
  /-- A file operation has failed, perhaps after others. -/
  | failed (after : FileTree) (fault : FileFault)
      (inside : Extends (Inside root) tree.top after.top) :
      Step root member tree (after, some (.file fault))
  /-- The name leads out, and nothing is done. -/
  | left (target : Path) (resolves : tree.resolve (root.below member.effectiveName) = .ok target)
      (out : isWithin root target = false) :
      Step root member tree (tree, some (.leaves member.effectiveName))
  /-- The member is unpacked at its target. -/
  | unpacked (target : Path)
      (resolves : tree.resolve (root.below member.effectiveName) = .ok target)
      (within : isWithin root target = true) (after : FileTree)
      (inside : Extends (Inside root) tree.top after.top)
      (tips : ∀ place, tipAt? place after.top
        = (madeAt target.segments member place).or (tipAt? place tree.top)) :
      Step root member tree (after, none)

theorem step_unpackMember (linkless : IsLinkless tree root) (member : ArchiveMember) :
    Step root member tree (unpackMember tree root member) := by
  unfold unpackMember
  split
  next fault _ => exact .failed tree fault (.refl _ _)
  next target resolves =>
    split
    next within =>
      have inside := (isWithin_iff linkless.absolute resolves).mp within
      have made := makes_make linkless (linkless.straight resolves inside) inside member
      rw [← eq_absolute_of_resolve resolves] at made
      generalize make tree target member = outcome at made ⊢
      match outcome, made with
      | (after, none), made =>
          exact .unpacked target resolves within after made.inside (made.tips rfl)
      | (after, some fault), made => exact .failed after fault made.inside
    next out => exact .left target resolves (by simpa using out)

/-- However a run ends, nothing outside of the directory has changed. -/
theorem extends_unpackAll (linkless : IsLinkless tree root) (members : List ArchiveMember) :
    Extends (Inside root) tree.top (unpackAll root members tree).1.top := by
  induction members generalizing tree with
  | nil => exact .refl _ _
  | cons member members ih =>
      have step := step_unpackMember linkless member
      generalize outcome : unpackMember tree root member = result at step
      cases step with
      | failed after fault inside =>
          rw [unpackAll, outcome, onward_some]
          exact inside
      | left target resolves out =>
          rw [unpackAll, outcome, onward_some]
          exact .refl _ _
      | unpacked target resolves within after inside tips =>
          rw [unpackAll, outcome, onward_none]
          exact inside.trans (ih (linkless.of_extends inside))

/-- A run that no file operation ends is told by where names lead in any tree that it has come
from. -/
theorem unpackAll_of_no_fault (linkless : IsLinkless opened root)
    (extended : Extends (Inside root) opened.top tree.top) (members : List ArchiveMember)
    (no_fault : ∀ fault, (unpackAll root members tree).2 ≠ some (.file fault)) :
    (unpackAll root members tree).2
        = (members.find? (leaves opened root)).map (.leaves ·.effectiveName) ∧
      ∀ place, tipAt? place (unpackAll root members tree).1.top
        = ((members.takeWhile fun member => !leaves opened root member).reverse.findSome?
            (standsFor opened root place)).or (tipAt? place tree.top) := by
  induction members generalizing tree with
  | nil => exact ⟨rfl, fun _ => rfl⟩
  | cons member members ih =>
      have same : ∀ {target}, tree.resolve (root.below member.effectiveName) = .ok target →
          goal opened root member = some target := fun resolves =>
        goal_of_resolve
          (resolve_of_extends extended (isAbsolute_below linkless.isAbsolute _) resolves)
      have step := step_unpackMember (linkless.of_extends extended) member
      generalize outcome : unpackMember tree root member = result at step
      cases step with
      | failed after fault inside =>
          rw [unpackAll, outcome, onward_some] at no_fault
          exact absurd rfl (no_fault fault)
      | left target resolves out =>
          have leads_out : leaves opened root member = true := by
            rw [leaves, same resolves, Option.any_some, out, Bool.not_false]
          rw [unpackAll, outcome, onward_some]
          simp [leads_out]
      | unpacked target resolves within after inside tips =>
          have stays : leaves opened root member = false := by
            rw [leaves, same resolves, Option.any_some, within, Bool.not_true]
          have stands_for (place : List String) :
              standsFor opened root place member = madeAt target.segments member place := by
            rw [standsFor, same resolves, Option.bind_some]
          rw [unpackAll, outcome, onward_none] at no_fault ⊢
          obtain ⟨error_eq, places⟩ := ih (extended.trans inside) no_fault
          refine ⟨by simpa [stays] using error_eq, fun place => ?_⟩
          rw [places, tips, List.takeWhile_cons_of_pos (by simp [stays]), List.reverse_cons,
            List.findSome?_append, List.findSome?_singleton, stands_for, Option.or_assoc]

/-! ## The destination -/

theorem opens_iff : openDestination tree destination = (opened, .ok root) ↔
    tree.makeDirectories destination = (opened, none) ∧ opened.resolve destination = .ok root := by
  unfold openDestination
  generalize tree.makeDirectories destination = outcome
  match outcome with
  | (between, none) =>
      rw [Prod.mk.injEq, Prod.mk.injEq]
      refine ⟨?_, ?_⟩
      · rintro ⟨rfl, resolves⟩
        exact ⟨⟨rfl, rfl⟩, resolves⟩
      · rintro ⟨⟨rfl, _⟩, resolves⟩
        exact ⟨rfl, resolves⟩
  | (between, some fault) => simp

/-- Opening the destination makes directories where nothing stood. -/
theorem deepens_of_opens (no_dot : "." ∉ destination.segments)
    (opens : openDestination tree destination = (opened, .ok root)) :
    Deepens (fun _ => True) tree.top opened.top := by
  obtain ⟨_, provided⟩ := provides_makeDirectories no_dot (opens_iff.mp opens).1
  exact provided.deepens

/-- In a directory that stands, the destination is all that opening it makes. -/
theorem deepens_of_opens_parent (no_dot : "." ∉ destination.segments)
    (parent : tree.isDirectory destination.parent = .ok true)
    (opens : openDestination tree destination = (opened, .ok root)) :
    Deepens (Inside root) tree.top opened.top := by
  obtain ⟨made, resolves⟩ := opens_iff.mp opens
  rw [makeDirectories_of_parent parent] at made
  obtain ⟨place, provided⟩ := provides_ensureDirectory no_dot made
  obtain rfl := segments_of_locate no_dot provided.located resolves
  refine provided.deepens.mono ?_
  rintro _ rfl
  exact List.prefix_rfl

/-- A destination without links is opened as one. -/
theorem isLinkless_of_opens (no_dot : "." ∉ destination.segments)
    (home : ∀ name ∈ tree.workingDirectory, name ≠ "." ∧ name ≠ "..")
    (no_link : ∀ place, Inside root place → ∀ target, tree.top.at? place ≠ some (.link target))
    (opens : openDestination tree destination = (opened, .ok root)) : IsLinkless opened root := by
  obtain ⟨made, resolves⟩ := opens_iff.mp opens
  obtain ⟨place, provided⟩ := provides_makeDirectories no_dot made
  obtain rfl := segments_of_locate no_dot provided.located resolves
  have start : ∀ name ∈ opened.startOf destination, name ≠ "." ∧ name ≠ ".." := by
    unfold startOf
    split
    · exact nofun
    · rwa [provided.home]
  refine ⟨eq_absolute_of_resolve resolves, fun name present => ⟨?_, ?_⟩, provided.stands, ?_⟩
  · rintro rfl
    refine dot_not_mem_of_resolve ?_ resolves present
    rw [List.mem_append, not_or]
    exact ⟨fun dot => (start _ dot).1 rfl, no_dot⟩
  · rintro rfl
    exact dots_not_mem_of_resolve (fun dots => (start _ dots).2 rfl) resolves present
  · intro place inside target stands
    exact no_link place inside target (provided.deepens.toExtends.link_iff.mp stands)

/-- An archive is unpacked into a destination without links. Opening the destination makes no more
than directories where nothing stood, and none outside of the destination if the directory above
stands. After that nothing outside of it changes, however the run ends. If no file operation fails,
the run ends at the first member whose name leads out of the destination, if there is one, and
leaves what the members before that one stand for. -/
theorem unpack_stays_inside (no_dot : "." ∉ destination.segments)
    (home : ∀ name ∈ tree.workingDirectory, name ≠ "." ∧ name ≠ "..")
    (opens : openDestination tree destination = (opened, .ok root))
    (no_link : ∀ place, Inside root place → ∀ target, tree.top.at? place ≠ some (.link target))
    (members : List ArchiveMember) :
    (∀ place, tipAt? place opened.top = tipAt? place tree.top ∨
        tipAt? place tree.top = none ∧ tipAt? place opened.top = some (.directory [])) ∧
      (tree.isDirectory destination.parent = .ok true → ∀ place, ¬ Inside root place →
        tipAt? place opened.top = tipAt? place tree.top) ∧
      (∀ place, ¬ Inside root place →
        tipAt? place (unpack (.listing members) tree destination).1.top
          = tipAt? place opened.top) ∧
      ((∀ fault, (unpack (.listing members) tree destination).2 ≠ some (.file fault)) →
        (unpack (.listing members) tree destination).2
            = (members.find? (leaves opened root)).map (.leaves ·.effectiveName) ∧
          ∀ place, tipAt? place (unpack (.listing members) tree destination).1.top
            = ((members.takeWhile fun member => !leaves opened root member).reverse.findSome?
                (standsFor opened root place)).or (tipAt? place opened.top)) := by
  have linkless := isLinkless_of_opens no_dot home no_link opens
  have run : unpack (.listing members) tree destination = unpackAll root members opened := by
    rw [unpack, opens]
  rw [run]
  refine ⟨fun place => ?_, fun parent place outside => ?_, fun place outside => ?_, ?_⟩
  · exact (deepens_of_opens no_dot opens place).imp id And.right
  · exact (deepens_of_opens_parent no_dot parent opens).toExtends.outside outside
  · exact (extends_unpackAll linkless members).outside outside
  · exact unpackAll_of_no_fault linkless (.refl _ _) members

/-- A file, a file beside the destination, and another file. -/
def escaping : List ArchiveMember :=
  [⟨"a/b", .ofText "1"⟩, ⟨"a/../../c", .ofText "2"⟩, ⟨"d", .ofText "3"⟩]

/-- A tree with nothing in it. -/
def bare : FileTree := { top := .directory [] }

theorem unpack_escaping :
    (unpack (.listing escaping) bare (.absolute ["out"])).2 = some (.leaves "a/../../c") ∧
      (∀ place, ¬ Inside (.absolute ["out"]) place →
        tipAt? place (unpack (.listing escaping) bare (.absolute ["out"])).1.top
          = tipAt? place bare.top) ∧
      tipAt? ["out", "a", "b"] (unpack (.listing escaping) bare (.absolute ["out"])).1.top
        = some (.file (.ofText "1")) ∧
      tipAt? ["out", "d"] (unpack (.listing escaping) bare (.absolute ["out"])).1.top = none := by
  have opens : openDestination bare (.absolute ["out"])
      = ({ top := .directory [("out", .directory [])] }, .ok (.absolute ["out"])) := rfl
  have no_link : ∀ place, Inside (.absolute ["out"]) place →
      ∀ target, bare.top.at? place ≠ some (.link target) := by
    rintro _ ⟨rest, rfl⟩ target
    exact nofun
  have ended : (unpack (.listing escaping) bare (.absolute ["out"])).2
      = some (.leaves "a/../../c") := rfl
  obtain ⟨_, opened_outside, outside, run⟩ :=
    unpack_stays_inside (by decide) (by decide) opens no_link escaping
  obtain ⟨_, places⟩ := run fun fault failed => nomatch ended.symm.trans failed
  refine ⟨ended, fun place apart => ?_, ?_, ?_⟩
  · exact (outside place apart).trans (opened_outside rfl place apart)
  · exact (places ["out", "a", "b"]).trans rfl
  · exact (places ["out", "d"]).trans rfl

end Archive

end CodeGraph
