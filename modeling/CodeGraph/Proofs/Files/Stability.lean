import CodeGraph.Proofs.Files.Making
import CodeGraph.Proofs.Files.Resolution

/-!
# Resolution in a tree that grows

A resolution looks at links alone, and any bound on links inside of each other will do that is not
below the number of links. So where files and directories are added to a tree, a path that can be
resolved afterwards could be resolved before, with the same answer.
-/

namespace CodeGraph

open Entry (Extends)

namespace Resolving

variable {top top' : Entry} {segments : List String} {state after : Resolving}
  {follow follow' : Resolving → String → Except Interruption Resolving}
  {depth depth' count : Nat}

/-- Something has been noted about the link at a place. -/
def Notes (place : List String) (state : Resolving) : Prop :=
  (state.links.lookup place).isSome

theorem Notes.cons {place other : List String} {known : Option (List String)}
    (noted : Notes other state) :
    Notes other { state with links := (place, known) :: state.links } := by
  rw [Notes, List.lookup_cons]
  split
  · rfl
  · exact noted

/-- At least so many different links have been met. -/
def HasMet (top : Entry) (count : Nat) (state : Resolving) : Prop :=
  ∃ met : List (List String), met.Nodup ∧ met.length = count ∧
    ∀ place ∈ met, Notes place state ∧ ∃ target, top.at? place = some (.link target)

namespace HasMet

theorem mono (met : HasMet top count state)
    (kept : ∀ place, Notes place state → Notes place after) : HasMet top count after := by
  obtain ⟨places, different, length_eq, all⟩ := met
  exact ⟨places, different, length_eq, fun place present =>
    ⟨kept place (all place present).1, (all place present).2⟩⟩

theorem of_sameLinks (met : HasMet top count state)
    (same : ∀ place target, top'.at? place = some (.link target)
      ↔ top.at? place = some (.link target)) : HasMet top' count state := by
  obtain ⟨places, different, length_eq, all⟩ := met
  refine ⟨places, different, length_eq, fun place present => ?_⟩
  obtain ⟨known, target, stands⟩ := all place present
  exact ⟨known, target, (same place target).mpr stands⟩

/-- A link that has not been met yet is one more. -/
theorem next {place : List String} {target : String} (met : HasMet top count state)
    (stands : top.at? place = some (.link target)) (fresh : state.links.lookup place = none)
    (known : Option (List String)) :
    HasMet top (count + 1) { state with links := (place, known) :: state.links } := by
  obtain ⟨places, different, length_eq, all⟩ := met
  refine ⟨place :: places, List.nodup_cons.mpr ⟨fun present => ?_, different⟩,
    by rw [List.length_cons, length_eq],
    List.forall_mem_cons.mpr ⟨⟨by simp [Notes], target, stands⟩, ?_⟩⟩
  · have noted := (all place present).1
    rw [Notes, fresh] at noted
    exact nomatch noted
  · exact fun other present => ⟨(all other present).1.cons, (all other present).2⟩

/-- No more links are met than there are. -/
theorem le_leafCount (met : HasMet top count state) : count ≤ top.leafCount := by
  obtain ⟨places, different, length_eq, all⟩ := met
  rw [← length_eq]
  refine Entry.length_le_leafCount different fun place present => ?_
  obtain ⟨_, target, stands⟩ := all place present
  exact ⟨.link target, stands, rfl⟩

end HasMet

/-- What has been noted about links is not forgotten. -/
theorem notes_walk
    (keeps : ∀ state target after, follow state target = .ok after →
      ∀ place, Notes place state → Notes place after)
    (walked : walk top follow segments state = .ok after) (place : List String)
    (noted : Notes place state) : Notes place after := by
  refine walk_keeps (fun _ noted => noted) (fun _ _ _ _ noted => noted)
    (fun _ _ _ _ noted => noted) ?_ noted walked
  exact fun state other target inner noted followed =>
    (keeps _ target inner followed place noted.cons).cons

theorem notes_followLink (depth : Nat) (state : Resolving) (target : String) (after : Resolving)
    (followed : followLink top depth state target = .ok after) (place : List String)
    (noted : Notes place state) : Notes place after := by
  induction depth generalizing state target after place with
  | zero =>
      obtain rfl := Except.ok.inj followed
      exact noted
  | succ depth ih => exact notes_walk ih followed place noted

theorem walk_cons_of_no_link {name : String} {rest : List String} (no_dots : name ≠ "..")
    (usable : Path.nameFault? name = none)
    (no_link : ∀ target, top.at? (state.place ++ [name]) ≠ some (.link target)) :
    walk top follow (name :: rest) state
      = walk top follow rest { state with place := state.place ++ [name] } := by
  rw [walk, if_neg (by simpa using no_dots), usable]
  split
  next same => cases same
  next target _ stands => exact absurd stands (no_link target)
  next => rfl

/-- Two walks agree in trees with the same links, if they agree on the links that they follow. -/
theorem walk_congr {kept : Resolving → Prop}
    (same : ∀ place target, top'.at? place = some (.link target)
      ↔ top.at? place = some (.link target))
    (moves : ∀ state place, kept state → kept { state with place })
    (agree : ∀ state place target, kept state → top.at? place = some (.link target) →
      state.links.lookup place = none →
      follow { state with links := (place, none) :: state.links } target
        = follow' { state with links := (place, none) :: state.links } target)
    (keeps : ∀ state place target inner, kept state →
      follow { state with links := (place, none) :: state.links } target = .ok inner →
      kept { inner with links := (place, some inner.place) :: inner.links })
    (start : kept state) :
    walk top follow segments state = walk top' follow' segments state := by
  induction segments generalizing state with
  | nil => rfl
  | cons name rest ih =>
      by_cases dots : name = ".."
      · rw [walk, walk, if_pos (by simpa using dots), if_pos (by simpa using dots)]
        exact ih (moves state _ start)
      cases usable : Path.nameFault? name with
      | some fault =>
          rw [walk, walk, if_neg (by simpa using dots), if_neg (by simpa using dots), usable]
      | none =>
          by_cases link : ∃ target, top.at? (state.place ++ [name]) = some (.link target)
          · obtain ⟨target, stands⟩ := link
            rw [walk, walk, if_neg (by simpa using dots), if_neg (by simpa using dots), usable,
              stands, (same _ target).mpr stands]
            dsimp only
            cases fresh : state.links.lookup (state.place ++ [name]) with
            | some known? =>
                cases known? with
                | some known => exact ih (moves state known start)
                | none => rfl
            | none =>
                dsimp only
                rw [← agree state _ target start stands fresh]
                cases followed : follow
                    { state with links := (state.place ++ [name], none) :: state.links } target with
                | error interruption => cases interruption <;> rfl
                | ok inner => exact ih (keeps state _ target inner start followed)
          · rw [walk_cons_of_no_link dots usable fun target stands => link ⟨target, stands⟩,
              walk_cons_of_no_link dots usable fun target stands =>
                link ⟨target, (same _ target).mp stands⟩]
            exact ih (moves state _ start)

theorem HasMet.through {place : List String} {target : String} {inner : Resolving}
    (met : HasMet top count state)
    (followed : followLink top depth { state with links := (place, none) :: state.links } target
      = .ok inner) :
    HasMet top count { inner with links := (place, some inner.place) :: inner.links } :=
  met.mono fun other noted => (notes_followLink depth _ target inner followed other noted.cons).cons

/-- In trees with the same links, walks along the same segments agree, whatever the bounds on
links inside of each other, if there are no more links to be met than these bounds. -/
theorem walk_eq_of_sameLinks
    (same : ∀ place target, top'.at? place = some (.link target)
      ↔ top.at? place = some (.link target))
    (met : HasMet top count state) (enough : top.leafCount ≤ depth + count)
    (enough' : top'.leafCount ≤ depth' + count) :
    walk top (followLink top depth) segments state
      = walk top' (followLink top' depth') segments state := by
  induction depth generalizing depth' count segments state with
  | zero =>
      refine walk_congr same (fun _ _ met => met) ?_ (fun _ _ _ _ met => met.through) met
      intro state place target met stands fresh
      have bound := (met.next stands fresh none).le_leafCount
      omega
  | succ depth ih =>
      refine walk_congr same (fun _ _ met => met) ?_ (fun _ _ _ _ met => met.through) met
      intro state place target met stands fresh
      have met_next := met.next stands fresh none
      have bound := (met_next.of_sameLinks same).le_leafCount
      obtain ⟨less, rfl⟩ : ∃ less, depth' = less + 1 := ⟨depth' - 1, by omega⟩
      rw [followLink, followLink]
      exact ih met_next (by omega) (by omega)

end Resolving

/-! ## Lookups in a tree that grows -/

variable {top top' : Entry} {tree tree' : FileTree} {region : List String → Prop}
  {done segments more goal : List String} {path resolved : Path} {links : Nat} {halt : Halt}

namespace Halt

/-- A halt with further segments behind it: where a walk has arrived, it goes on. -/
def goOn (top : Entry) (more : List String) : Halt → Except FileFault Halt
  | .arrived place => FileTree.advance top false place more
  | .link directory target rest => .ok (.link directory target (rest ++ more))

/-- What a halt has arrived at is a directory. -/
def InDirectory (top : Entry) : Halt → Prop
  | .arrived place => ∃ entries, top.at? place = some (.directory entries)
  | .link .. => True

end Halt

namespace FileTree

/-- A walk that comes to a halt at a link or in a directory starts in a directory. -/
theorem Advances.exists_directory (advances : Advances top false done segments halt)
    (nonempty : segments = [] → halt.InDirectory top) :
    ∃ entries, top.at? done = some (.directory entries) := by
  cases advances with
  | arrived => exact nonempty rfl
  | dot stands | up stands | link stands | down stands | fresh stands => exact ⟨_, stands⟩

/-- A walk is the same in a tree that has been extended, and goes on with further segments. -/
theorem Advances.append_of_extends (advances : Advances top false done segments halt)
    (extended : Extends region top top') (inside : halt.InDirectory top) (more : List String) :
    advance top' false done (segments ++ more) = halt.goOn top' more := by
  induction advances with
  | arrived => rfl
  | dot stands _ ih =>
      obtain ⟨_, stands'⟩ := extended.directory ⟨_, stands⟩
      rw [List.cons_append, advance_dot stands']
      exact ih inside
  | up stands _ ih =>
      obtain ⟨_, stands'⟩ := extended.directory ⟨_, stands⟩
      rw [List.cons_append, advance_dots stands']
      exact ih inside
  | link stands plain short found rest =>
      obtain ⟨_, stands'⟩ := extended.directory ⟨_, stands⟩
      rw [List.cons_append, advance_name stands' plain short, extended.link_iff.mpr found]
      rfl
  | down stands plain short _ _ later ih =>
      obtain ⟨_, stands'⟩ := extended.directory ⟨_, stands⟩
      obtain ⟨_, below⟩ := extended.directory (later.exists_directory fun _ => inside)
      rw [List.cons_append, advance_name stands' plain short, below]
      exact ih inside
  | fresh _ _ _ _ creates => exact nomatch creates

theorem follow_congr {creating : Bool} {done' segments' : List String}
    (same : advance top creating done segments = advance top creating done' segments') :
    follow top creating links done segments = follow top creating links done' segments' := by
  unfold follow
  rw [same]

/-- A lookup that ends in a directory does so in a tree that has been extended, and goes on with
further segments. -/
theorem Follows.append_of_extends (follows : Follows top false links done segments goal)
    (extended : Extends region top top')
    (inside : ∃ entries, top.at? goal = some (.directory entries)) (more : List String) :
    ∃ left, follow top' false links done (segments ++ more) = follow top' false left goal more := by
  induction follows with
  | arrives advances =>
      exact ⟨_, follow_congr (advances.append_of_extends extended inside more)⟩
  | onward advances _ ih =>
      obtain ⟨left, goes_on⟩ := ih inside
      have halts := advances.append_of_extends extended trivial more
      refine ⟨left, ?_⟩
      rw [follow, halts]
      rw [List.append_assoc] at goes_on
      exact goes_on

theorem advance_ne_tooManyLinks (top : Entry) (creating : Bool) (done segments : List String) :
    advance top creating done segments ≠ .error .tooManyLinks := by
  induction segments generalizing done with
  | nil => rintro ⟨⟩
  | cons name rest ih =>
      unfold advance
      split
      next => rintro ⟨⟩
      next =>
        split
        next => exact ih _
        next =>
          split
          next => exact ih _
          next =>
            split
            next => rintro ⟨⟩
            next =>
              split
              next => rintro ⟨⟩
              next => exact ih _
              next => split <;> rintro ⟨⟩
      next => rintro ⟨⟩

/-- A lookup that meets too many links does so in a tree that has been extended. -/
theorem tooManyLinks_of_extends (extended : Extends region top top')
    (followed : follow top false links done segments = .error .tooManyLinks) :
    follow top' false links done segments = .error .tooManyLinks := by
  have same : ∀ {done segments directory target rest},
      advance top false done segments = .ok (.link directory target rest) →
      advance top' false done segments = .ok (.link directory target rest) := by
    intro done segments directory target rest advanced
    have advances := advance_eq_ok_iff.mp advanced
    simpa [Halt.goOn] using advances.append_of_extends extended trivial []
  induction links generalizing done segments with
  | zero =>
      unfold follow at followed
      split at followed
      next fault advanced =>
        obtain rfl := Except.error.inj followed
        exact absurd advanced (advance_ne_tooManyLinks top false done segments)
      next => exact nomatch followed
      next advanced =>
        rw [follow, same advanced]
  | succ links ih =>
      unfold follow at followed
      split at followed
      next fault advanced =>
        obtain rfl := Except.error.inj followed
        exact absurd advanced (advance_ne_tooManyLinks top false done segments)
      next => exact nomatch followed
      next advanced =>
        rw [follow, same advanced]
        exact ih followed

/-! ## Resolution -/

theorem find_tooManyLinks_of_extends {place : List String}
    (extended : Extends region tree.top tree'.top) (usable : (Path.absolute place).fault? = none)
    (found : tree.find (.absolute place) = .error .tooManyLinks) :
    tree'.find (.absolute place) = .error .tooManyLinks := by
  have accepted :
      accept (.absolute place) = .error .tooLong ∨ accept (.absolute place) = .ok () := by
    rw [accept, usable]
    dsimp only
    split
    · exact .inl rfl
    · exact .inr rfl
  rw [find, locate] at found ⊢
  rcases accepted with long | accepted
  · rw [long] at found
    cases found
  rw [accepted] at found ⊢
  change (follow tree.top false maxLinks [] place >>= _) = _ at found
  change (follow tree'.top false maxLinks [] place >>= _) = _
  cases followed : follow tree.top false maxLinks [] place with
  | error fault =>
      rw [followed] at found
      obtain rfl := Except.error.inj found
      rw [tooManyLinks_of_extends extended followed]
      rfl
  | ok goal =>
      rw [followed] at found
      dsimp only [bind, Except.bind] at found
      split at found <;> cases found

/-- What a path resolves to in a tree that has been extended, it resolved to before. -/
theorem resolve_of_extends (extended : Extends region tree.top tree'.top)
    (absolute : path.isAbsolute = true) (resolves : tree'.resolve path = .ok resolved) :
    tree.resolve path = .ok resolved := by
  have start : ∀ tree : FileTree, tree.startOf path = [] := fun tree => if_pos absolute
  have walks : tree.walkOf path = tree'.walkOf path := by
    rw [walkOf, walkOf, start, start]
    exact Resolving.walk_eq_of_sameLinks (fun _ _ => extended.link_iff)
      ⟨[], List.nodup_nil, rfl, by simp⟩ (Nat.le_add_right _ _) (Nat.le_add_right _ _)
  refine resolve_eq_ok_iff.mpr ?_
  cases resolve_eq_ok_iff.mp resolves with
  | arrives walked => exact .arrives (walks.trans walked)
  | circles walked usable leaves =>
      exact .circles (walks.trans walked) usable fun hindered =>
        leaves (find_tooManyLinks_of_extends extended usable hindered)

end FileTree

end CodeGraph
