import CodeGraph.Files.Resolution
import CodeGraph.Proofs.Files.Lookup
import CodeGraph.Proofs.Files.Names

/-!
# Resolution agrees with lookup

Where a lookup finds an entry, resolution names the place at which it stands: both follow the same
way. What a resolution has noted about links is right, and a link that it is following cannot come
up again, since the way to the link's target has fewer links than the way to it.
-/

namespace CodeGraph

open FileTree

namespace Resolving

variable {top : Entry} {done segments goal : List String} {links : Nat}

/-- A link at a place leads to a goal. -/
def LinkLeads (top : Entry) (place : List String) (links : Nat) (goal : List String) : Prop :=
  ∃ target, top.at? place = some (.link target) ∧
    Leads top (targetStart place.dropLast target) (targetSegments target) links goal

theorem LinkLeads.unique {place goal' : List String} {links' : Nat}
    (leads : LinkLeads top place links goal) (leads' : LinkLeads top place links' goal') :
    links = links' ∧ goal = goal' := by
  obtain ⟨target, stands, way⟩ := leads
  obtain ⟨target', stands', way'⟩ := leads'
  rw [stands] at stands'
  obtain ⟨⟩ := Option.some.inj stands'
  exact way.unique way'

/-- The links that are being followed are different links, and the way to the target of each one
passes at least as many links as are still to come. -/
structure Pending (top : Entry) (pending : List (List String)) (links : Nat) : Prop where
  different : pending.Nodup
  leads : ∀ place ∈ pending, ∃ inside goal, LinkLeads top place inside goal ∧ links ≤ inside

/-- What is noted about links is right. -/
structure Noted (top : Entry) (pending : List (List String))
    (noted : List (List String × Option (List String))) : Prop where
  known : ∀ {place goal}, noted.lookup place = some (some goal) →
    ∃ links, LinkLeads top place links goal
  pending : ∀ {place}, noted.lookup place = some none → place ∈ pending

/-- A resolution ends at a goal with right notes, unless it meets an unusable segment. -/
def Ends (top : Entry) (pending : List (List String)) (goal : List String)
    (result : Except Interruption Resolving) : Prop :=
  match result with
  | .ok state => state.place = goal ∧ Noted top pending state.links
  | .error (.unusable _) => True
  | .error (.circle _) => False

namespace Pending

variable {pending : List (List String)}

theorem mono {fewer : Nat} (waiting : Pending top pending links) (le : fewer ≤ links) :
    Pending top pending fewer where
  different := waiting.different
  leads place present := by
    obtain ⟨inside, goal, leads, bound⟩ := waiting.leads place present
    exact ⟨inside, goal, leads, Nat.le_trans le bound⟩

/-- A link on the way that lies ahead is not being followed. -/
theorem not_mem {place : List String} (waiting : Pending top pending links)
    (leads : LinkLeads top place inside goal) (ahead : inside < links) : place ∉ pending := by
  intro present
  obtain ⟨inside', goal', leads', bound⟩ := waiting.leads place present
  obtain ⟨rfl, rfl⟩ := leads.unique leads'
  omega

theorem cons {place : List String} (waiting : Pending top pending links)
    (leads : LinkLeads top place inside goal) (ahead : inside < links) :
    Pending top (place :: pending) inside where
  different := List.nodup_cons.mpr ⟨waiting.not_mem leads ahead, waiting.different⟩
  leads := List.forall_mem_cons.mpr
    ⟨⟨inside, goal, leads, Nat.le_refl inside⟩, (waiting.mono (Nat.le_of_lt ahead)).leads⟩

/-- Links inside of each other are no more than there are leaves. -/
theorem length_le (waiting : Pending top pending links) : pending.length ≤ top.leafCount := by
  refine Entry.length_le_leafCount waiting.different fun place present => ?_
  obtain ⟨_, _, ⟨target, stands, _⟩, _⟩ := waiting.leads place present
  exact ⟨.link target, stands, rfl⟩

end Pending

namespace Noted

variable {pending : List (List String)} {noted : List (List String × Option (List String))}
  {place : List String}

theorem start (right : Noted top pending noted) :
    Noted top (place :: pending) ((place, none) :: noted) where
  known {other goal} found := by
    rw [List.lookup_cons] at found
    split at found
    · exact nomatch found
    · exact right.known found
  pending {other} found := by
    rw [List.lookup_cons] at found
    split at found
    next same => exact List.mem_cons.mpr (.inl (beq_iff_eq.mp same))
    next => exact List.mem_cons_of_mem _ (right.pending found)

theorem finish (right : Noted top (place :: pending) noted)
    (leads : LinkLeads top place links goal) :
    Noted top pending ((place, some goal) :: noted) where
  known {other goal'} found := by
    rw [List.lookup_cons] at found
    split at found
    next same =>
      obtain rfl := beq_iff_eq.mp same
      obtain rfl := Option.some.inj (Option.some.inj found)
      exact ⟨links, leads⟩
    next => exact right.known found
  pending {other} found := by
    rw [List.lookup_cons] at found
    split at found
    · exact nomatch found
    next different =>
      rcases List.mem_cons.mp (right.pending found) with same | present
      · exact absurd (beq_iff_eq.mpr same) (by simp [different])
      · exact present

end Noted

theorem segments_ofText (target : String) :
    (Path.ofText target).segments = (targetSegments target).filter (· != ".") := by
  unfold Path.ofText targetSegments
  dsimp only
  split <;> simp [List.filter_filter, Bool.and_comm]

section Link

variable {pending : List (List String)} {state : Resolving} {name target : String}
  {reached rest : List String} {inside depth : Nat}

/-- A link that lies ahead is passed, if its target and the rest of the way are. -/
theorem ends_walk_link (no_dots : name ≠ "..")
    (stands : top.at? (state.place ++ [name]) = some (.link target))
    (leads : LinkLeads top (state.place ++ [name]) inside reached) (ahead : inside < links)
    (waiting : Pending top pending links) (right : Noted top pending state.links)
    (enough : top.leafCount ≤ pending.length + depth)
    (inner : ∀ less, depth = less + 1 → Ends top ((state.place ++ [name]) :: pending) reached
      (followLink top depth { state with links := (state.place ++ [name], none) :: state.links }
        target))
    (later : ∀ after : Resolving, after.place = reached → Noted top pending after.links →
      Ends top pending goal (walk top (followLink top depth) rest after)) :
    Ends top pending goal (walk top (followLink top depth) (name :: rest) state) := by
  rw [walk, if_neg (by simpa using no_dots), stands]
  split
  next => trivial
  next _ same =>
    obtain ⟨⟩ := Option.some.inj same
    split
    next known found =>
      obtain ⟨_, leads'⟩ := right.known found
      obtain ⟨rfl, rfl⟩ := leads.unique leads'
      exact later _ rfl right
    next found => exact absurd (right.pending found) (waiting.not_mem leads ahead)
    next fresh =>
      cases depth with
      | zero =>
          have bound := (waiting.cons leads ahead).length_le
          rw [List.length_cons] at bound
          omega
      | succ depth =>
          have ends := inner depth rfl
          cases followed : followLink top (depth + 1)
              { state with links := (state.place ++ [name], none) :: state.links } target with
          | ok after =>
              rw [followed] at ends
              obtain ⟨arrived, right⟩ := ends
              subst arrived
              exact later _ rfl (right.finish leads)
          | error interruption =>
              rw [followed] at ends
              cases interruption with
              | unusable fault => trivial
              | circle way => exact ends
  next no_link => exact absurd rfl (no_link target)

end Link

/-- A resolution goes along the way. -/
theorem ends_walk (leads : Leads top done segments links goal) :
    ∀ {depth : Nat} {pending : List (List String)} {state : Resolving}, state.place = done →
      Pending top pending links → Noted top pending state.links →
      top.leafCount ≤ pending.length + depth →
      Ends top pending goal
        (walk top (followLink top depth) (segments.filter (· != ".")) state) := by
  induction leads with
  | here => exact fun here _ right _ => ⟨here, right⟩
  | dot is_dot _ ih =>
      intro depth pending state here waiting right enough
      subst is_dot
      exact ih here waiting right enough
  | up is_dots _ ih =>
      intro depth pending state here waiting right enough
      subst is_dots
      rw [List.filter_cons_of_pos (by decide), walk, if_pos (by decide)]
      exact ih (by rw [← here]) waiting right enough
  | @down place _ _ name _ entry plain stands no_link _ ih =>
      intro depth pending state here waiting right enough
      rw [List.filter_cons_of_pos (by simpa using plain.1), walk, if_neg (by simpa using plain.2)]
      subst here
      rw [stands]
      split
      next => trivial
      next same => exact absurd (Option.some.inj same) (no_link _)
      next => exact ih rfl waiting right enough
  | @link place _ _ reached name target inside links plain stands inner _ inner_ih later_ih =>
      intro depth pending state here waiting right enough
      rw [List.filter_cons_of_pos (by simpa using plain.1)]
      subst here
      have leads : LinkLeads top (state.place ++ [name]) inside reached :=
        ⟨target, stands, by simpa using inner⟩
      have ahead : inside < inside + links + 1 := by omega
      have waiting_later := waiting.mono (by omega : links ≤ inside + links + 1)
      refine ends_walk_link plain.2 stands leads ahead waiting right enough ?_ ?_
      · rintro less rfl
        rw [followLink, segments_ofText]
        refine inner_ih rfl (waiting.cons leads ahead) right.start ?_
        rw [List.length_cons]
        omega
      · exact fun after arrived right => later_ih arrived waiting_later right enough

/-! ## No dots in a resolved path -/

section Walk

variable {state after : Resolving} {follow : Resolving → String → Except Interruption Resolving}

/-- What each step of a walk keeps is kept by the walk. -/
theorem walk_keeps {kept : Resolving → Prop}
    (up : ∀ state, kept state → kept { state with place := state.place.dropLast })
    (down : ∀ state, ∀ name ∈ segments, name ≠ ".." → kept state →
      kept { state with place := state.place ++ [name] })
    (again : ∀ state place known, (place, some known) ∈ state.links → kept state →
      kept { state with place := known })
    (through : ∀ state place target inner, kept state →
      follow { state with links := (place, none) :: state.links } target = .ok inner →
      kept { inner with links := (place, some inner.place) :: inner.links })
    (start : kept state) (walked : walk top follow segments state = .ok after) : kept after := by
  induction segments generalizing state with
  | nil =>
      obtain rfl := Except.ok.inj walked
      exact start
  | cons name rest ih =>
      have later : ∀ {state}, kept state → walk top follow rest state = .ok after → kept after :=
        ih fun state other present => down state other (List.mem_cons_of_mem name present)
      rw [walk] at walked
      split at walked
      next => exact later (up state start) walked
      next no_dots =>
        split at walked
        next => exact nomatch walked
        next =>
          split at walked
          next known found =>
            obtain ⟨front, back, links_eq, _⟩ := List.lookup_eq_some_iff.mp found
            have noted : (state.place ++ [name], some known) ∈ state.links := by simp [links_eq]
            exact later (again state _ known noted start) walked
          next => exact nomatch walked
          next =>
            split at walked
            next inner followed => exact later (through state _ _ inner start followed) walked
            next => exact nomatch walked
            next => exact nomatch walked
        next =>
          exact later (down state name List.mem_cons_self (by simpa using no_dots) start) walked

/-- No place that the resolution has got holds the word. -/
structure WordFree (word : String) (state : Resolving) : Prop where
  place : word ∉ state.place
  links : ∀ entry ∈ state.links, ∀ goal ∈ entry.2, word ∉ goal

variable {word : String}

theorem WordFree.move {place : List String} (free : WordFree word state) (absent : word ∉ place) :
    WordFree word { state with place } where
  place := absent
  links := free.links

theorem WordFree.note {place : List String} {known : Option (List String)}
    (free : WordFree word state) (absent : ∀ goal ∈ known, word ∉ goal) :
    WordFree word { state with links := (place, known) :: state.links } where
  place := free.place
  links := List.forall_mem_cons.mpr ⟨absent, free.links⟩

theorem wordFree_walk
    (keeps : ∀ state target after,
      WordFree word state → follow state target = .ok after → WordFree word after)
    (absent : ∀ name ∈ segments, name ≠ ".." → name ≠ word) (free : WordFree word state)
    (walked : walk top follow segments state = .ok after) : WordFree word after := by
  refine walk_keeps ?_ ?_ ?_ ?_ free walked
  · exact fun state free => free.move fun present => free.place (List.dropLast_subset _ present)
  · intro state name present no_dots free
    refine free.move ?_
    simpa using ⟨free.place, (absent name present no_dots).symm⟩
  · exact fun state place known noted free => free.move (free.links _ noted known rfl)
  · intro state place target inner free followed
    have inner_free := keeps _ target inner (free.note (by simp)) followed
    refine inner_free.note ?_
    rintro goal ⟨⟩
    exact inner_free.place

end Walk

theorem dot_not_mem_segments (target : String) : "." ∉ (Path.ofText target).segments := by
  simp [Path.ofText]

/-- The word is a dot or a pair of dots. -/
def IsDots (word : String) : Prop :=
  word = "." ∨ word = ".."

theorem ne_dots_of_mem_segments {word name target : String} (dots : IsDots word)
    (present : name ∈ (Path.ofText target).segments) (no_dots : name ≠ "..") : name ≠ word := by
  rcases dots with rfl | rfl
  · rintro rfl
    exact dot_not_mem_segments target present
  · exact no_dots

theorem wordFree_followLink {word : String} (dots : IsDots word) (depth : Nat)
    (state : Resolving) (target : String) (after : Resolving) (free : WordFree word state)
    (followed : followLink top depth state target = .ok after) : WordFree word after := by
  induction depth generalizing state target after with
  | zero =>
      obtain rfl := Except.ok.inj followed
      exact free
  | succ depth ih =>
      refine wordFree_walk ih (fun name => ne_dots_of_mem_segments dots) (free.move ?_) followed
      split
      · exact List.not_mem_nil
      · exact free.place

end Resolving

namespace FileTree

open Resolving (IsDots)

theorem not_mem_of_pushes {word segment : String} (dots : IsDots word) {before after : List String}
    (absent : word ∉ before) (pushes : PathText.Pushes true before segment after) :
    word ∉ after := by
  cases pushes with
  | blank | top => exact absent
  | name _ no_dot no_dots =>
      refine List.not_mem_cons_of_ne_of_not_mem ?_ absent
      rcases dots with rfl | rfl
      · exact no_dot.symm
      · exact no_dots.symm
  | back => exact (not_or.mp (List.mem_cons.not.mp absent)).2
  | higher =>
      have other := (not_or.mp (List.mem_cons.not.mp absent)).1
      exact List.not_mem_cons_of_ne_of_not_mem other absent
  | above relative => exact nomatch relative

theorem not_mem_cancelDots {word : String} (dots : IsDots word) (segments : List String) :
    word ∉ PathText.cancelDots segments := by
  rw [PathText.cancelDots, List.mem_reverse]
  refine List.foldlRecOn (motive := fun before => word ∉ before) segments _ List.not_mem_nil ?_
  exact fun before absent segment _ =>
    not_mem_of_pushes dots absent (PathText.pushes_pushSegment true before segment)

/-- How the segments of a path are gone along. -/
def walkOf (tree : FileTree) (path : Path) : Except Interruption Resolving :=
  Resolving.walk tree.top (Resolving.followLink tree.top tree.top.leafCount) path.segments
    { place := tree.startOf path }

/-- A path is resolved: the way is gone to its end, or up to a circle of links, which a path without
its pairs of dots does not lead into again. -/
inductive Resolves (tree : FileTree) (path : Path) : Path → Prop
  | arrives {state : Resolving} (walked : tree.walkOf path = .ok state) :
      Resolves tree path (.absolute state.place)
  | circles {way : List String} (walked : tree.walkOf path = .error (.circle way))
      (usable : (Path.absolute (PathText.cancelDots way)).fault? = none)
      (leaves : tree.find (.absolute (PathText.cancelDots way)) ≠ .error .tooManyLinks) :
      Resolves tree path (.absolute (PathText.cancelDots way))

theorem resolve_eq_ok_iff {tree : FileTree} {path resolved : Path} :
    tree.resolve path = .ok resolved ↔ Resolves tree path resolved := by
  constructor
  · intro resolves
    unfold resolve at resolves
    split at resolves
    next state walked =>
      obtain rfl := Except.ok.inj resolves
      exact .arrives walked
    next => exact nomatch resolves
    next way walked =>
      dsimp only at resolves
      split at resolves
      next => exact nomatch resolves
      next => exact nomatch resolves
      next usable leaves =>
        obtain rfl := Except.ok.inj resolves
        exact .circles walked usable leaves
  · rintro (⟨walked⟩ | ⟨walked, usable, leaves⟩)
    · rw [walkOf] at walked
      rw [resolve, walked]
    · rw [walkOf] at walked
      rw [resolve, walked]
      dsimp only
      rw [usable]
      split
      next same => exact nomatch same
      next hindered => exact absurd hindered leaves
      next => rfl

/-- A word of dots is no segment of a resolved path, if it is none of the place where the path
starts, and a single dot is no segment of the path. -/
theorem not_mem_of_resolve {tree : FileTree} {path resolved : Path} {word : String}
    (dots : IsDots word) (start : word ∉ tree.startOf path)
    (absent : ∀ name ∈ path.segments, name ≠ ".." → name ≠ word)
    (resolves : tree.resolve path = .ok resolved) : word ∉ resolved.segments := by
  cases resolve_eq_ok_iff.mp resolves with
  | arrives walked =>
      have free : Resolving.WordFree word { place := tree.startOf path } :=
        { place := start, links := by simp }
      exact
        (Resolving.wordFree_walk (Resolving.wordFree_followLink dots _) absent free walked).place
  | circles => exact not_mem_cancelDots dots _

/-- A resolved path is absolute. -/
theorem eq_absolute_of_resolve {tree : FileTree} {path resolved : Path}
    (resolves : tree.resolve path = .ok resolved) : resolved = .absolute resolved.segments := by
  cases resolve_eq_ok_iff.mp resolves with
  | arrives | circles => rfl

/-- A resolved path has no dot among its segments. -/
theorem dot_not_mem_of_resolve {tree : FileTree} {path resolved : Path}
    (no_dot : "." ∉ tree.startOf path ++ path.segments)
    (resolves : tree.resolve path = .ok resolved) : "." ∉ resolved.segments := by
  rw [List.mem_append, not_or] at no_dot
  refine not_mem_of_resolve (.inl rfl) no_dot.1 (fun name present _ => ?_) resolves
  rintro rfl
  exact no_dot.2 present

/-- A resolved path has no pair of dots among its segments. -/
theorem dots_not_mem_of_resolve {tree : FileTree} {path resolved : Path}
    (start : ".." ∉ tree.startOf path) (resolves : tree.resolve path = .ok resolved) :
    ".." ∉ resolved.segments :=
  not_mem_of_resolve (.inr rfl) start (fun _ _ no_dots => no_dots) resolves

/-- The resolved path names the place that the way leads to. -/
theorem segments_of_resolve {tree : FileTree} {path resolved : Path} {links : Nat}
    {place : List String} (no_dot : "." ∉ path.segments)
    (leads : Leads tree.top (tree.startOf path) path.segments links place)
    (resolves : tree.resolve path = .ok resolved) : resolved.segments = place := by
  have nothing : Resolving.Pending tree.top [] links :=
    { different := List.nodup_nil, leads := fun _ present => nomatch present }
  have unnoted : Resolving.Noted tree.top [] [] :=
    { known := by simp, pending := by simp }
  have all : path.segments.filter (· != ".") = path.segments := by
    refine List.filter_eq_self.mpr fun segment present => ?_
    rw [bne_iff_ne]
    rintro rfl
    exact no_dot present
  have ends : Resolving.Ends tree.top [] place (tree.walkOf path) := by
    rw [walkOf, ← all]
    exact Resolving.ends_walk leads rfl nothing unnoted (by simp)
  cases resolve_eq_ok_iff.mp resolves with
  | arrives walked =>
      rw [walked] at ends
      exact ends.1
  | circles walked =>
      rw [walked] at ends
      exact ends.elim

/-- What a lookup finds stands at the place that the resolved path names. -/
theorem at?_of_resolve {tree : FileTree} {path resolved : Path} {entry : Entry}
    (no_dot : "." ∉ path.segments) (found : tree.find path = .ok entry)
    (resolves : tree.resolve path = .ok resolved) :
    tree.top.at? resolved.segments = some entry := by
  obtain ⟨links, place, leads, stands⟩ := exists_leads_of_find found
  rw [segments_of_resolve no_dot leads resolves, stands]

end FileTree

end CodeGraph
