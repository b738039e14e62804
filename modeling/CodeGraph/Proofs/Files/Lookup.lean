import CodeGraph.Proofs.Files.Walks

/-!
# Where segments lead

A way through a file tree is a derivation: each segment is a dot, a pair of dots, an entry that is
no link, or a link whose target is a way of its own. Segments have at most one way, and it counts
the links on it, so no link is passed on the way to its own target. A lookup that succeeds has
found the way.
-/

namespace CodeGraph

namespace FileTree

/-- From a place, segments lead to a goal, with a number of links on the way. -/
inductive Leads (top : Entry) : List String → List String → Nat → List String → Prop where
  | here (place : List String) : Leads top place [] 0 place
  | dot {place rest goal : List String} {name : String} {links : Nat} (is_dot : name = ".")
      (later : Leads top place rest links goal) : Leads top place (name :: rest) links goal
  | up {place rest goal : List String} {name : String} {links : Nat} (is_dots : name = "..")
      (later : Leads top place.dropLast rest links goal) : Leads top place (name :: rest) links goal
  | down {place rest goal : List String} {name : String} {links : Nat} {entry : Entry}
      (plain : name ≠ "." ∧ name ≠ "..") (stands : top.at? (place ++ [name]) = some entry)
      (no_link : ∀ target, entry ≠ .link target)
      (later : Leads top (place ++ [name]) rest links goal) :
      Leads top place (name :: rest) links goal
  | link {place rest goal reached : List String} {name target : String} {inside links : Nat}
      (plain : name ≠ "." ∧ name ≠ "..")
      (stands : top.at? (place ++ [name]) = some (.link target))
      (inner : Leads top (targetStart place target) (targetSegments target) inside reached)
      (later : Leads top reached rest links goal) :
      Leads top place (name :: rest) (inside + links + 1) goal

variable {top : Entry} {place front rest segments goal goal' : List String} {links links' : Nat}

namespace Leads

/-- Segments have at most one way. -/
theorem unique (leads : Leads top place segments links goal)
    (leads' : Leads top place segments links' goal') : links = links' ∧ goal = goal' := by
  induction leads generalizing links' goal' with
  | here =>
      cases leads' with
      | here => exact ⟨rfl, rfl⟩
  | dot is_dot _ ih =>
      cases leads' with
      | dot _ later => exact ih later
      | up is_dots => exact absurd (is_dot.symm.trans is_dots) (by decide)
      | down plain => exact absurd is_dot plain.1
      | link plain => exact absurd is_dot plain.1
  | up is_dots _ ih =>
      cases leads' with
      | dot is_dot => exact absurd (is_dot.symm.trans is_dots) (by decide)
      | up _ later => exact ih later
      | down plain => exact absurd is_dots plain.2
      | link plain => exact absurd is_dots plain.2
  | down plain stands no_link _ ih =>
      cases leads' with
      | dot is_dot => exact absurd is_dot plain.1
      | up is_dots => exact absurd is_dots plain.2
      | down _ _ _ later => exact ih later
      | link _ stands' =>
          rw [stands] at stands'
          exact absurd (Option.some.inj stands') (no_link _)
  | link plain stands _ _ inner_ih later_ih =>
      cases leads' with
      | dot is_dot => exact absurd is_dot plain.1
      | up is_dots => exact absurd is_dots plain.2
      | down _ stands' no_link =>
          rw [stands] at stands'
          exact absurd (Option.some.inj stands').symm (no_link _)
      | link _ stands' inner later =>
          rw [stands] at stands'
          obtain ⟨⟩ := Option.some.inj stands'
          obtain ⟨rfl, rfl⟩ := inner_ih inner
          obtain ⟨rfl, rfl⟩ := later_ih later
          exact ⟨rfl, rfl⟩

/-- A way along segments passes the place that the segments in front lead to. -/
theorem exists_split (leads : Leads top place (front ++ rest) links goal) :
    ∃ inside after reached, links = inside + after ∧ Leads top place front inside reached ∧
      Leads top reached rest after goal := by
  induction front generalizing place links with
  | nil => exact ⟨0, links, place, (Nat.zero_add links).symm, .here place, leads⟩
  | cons name front ih =>
      cases leads with
      | dot is_dot later =>
          obtain ⟨inside, after, reached, rfl, before, behind⟩ := ih later
          exact ⟨inside, after, reached, rfl, .dot is_dot before, behind⟩
      | up is_dots later =>
          obtain ⟨inside, after, reached, rfl, before, behind⟩ := ih later
          exact ⟨inside, after, reached, rfl, .up is_dots before, behind⟩
      | down plain stands no_link later =>
          obtain ⟨inside, after, reached, rfl, before, behind⟩ := ih later
          exact ⟨inside, after, reached, rfl, .down plain stands no_link before, behind⟩
      | @link _ _ _ _ _ _ through _ plain stands inner later =>
          obtain ⟨inside, after, reached, rfl, before, behind⟩ := ih later
          exact ⟨through + inside + 1, after, reached, by omega, .link plain stands inner before,
            behind⟩

end Leads

/-- A walk that comes to a halt has gone along the way: up to its goal, or up to a link on it. -/
def Halts (top : Entry) (done segments : List String) : Halt → Prop
  | .arrived goal => Leads top done segments 0 goal
  | .link directory target rest => ∀ links goal,
      Leads top (targetStart directory target) (targetSegments target ++ rest) links goal →
      Leads top done segments (links + 1) goal

/-- A walk goes along the way if it does so behind the first segment. -/
theorem Halts.of_step {halt : Halt} {done next rest : List String} {name : String}
    (step : ∀ links goal,
      Leads top next rest links goal → Leads top done (name :: rest) links goal)
    (halts : Halts top next rest halt) : Halts top done (name :: rest) halt := by
  cases halt with
  | arrived goal => exact step 0 goal halts
  | link directory target rest =>
      exact fun links goal later => step (links + 1) goal (halts links goal later)

theorem Advances.halts {done segments : List String} {halt : Halt}
    (advances : Advances top false done segments halt) : Halts top done segments halt := by
  induction advances with
  | arrived done => exact .here done
  | dot _ _ ih => exact ih.of_step fun _ _ => .dot rfl
  | up _ _ ih => exact ih.of_step fun _ _ => .up rfl
  | link _ plain _ found rest =>
      intro links goal later
      obtain ⟨inside, after, reached, rfl, inner, behind⟩ := later.exists_split
      exact .link plain found inner behind
  | down _ plain _ found no_link _ ih => exact ih.of_step fun _ _ => .down plain found no_link
  | fresh _ _ _ _ creates => exact nomatch creates

/-- A lookup that succeeds has found the way. -/
theorem Follows.exists_leads {bound : Nat} {done segments goal : List String}
    (follows : Follows top false bound done segments goal) :
    ∃ links, Leads top done segments links goal := by
  induction follows with
  | arrives advances => exact ⟨0, advances.halts⟩
  | onward advances _ ih =>
      obtain ⟨links, later⟩ := ih
      exact ⟨links + 1, advances.halts links _ later⟩

theorem exists_leads_of_find {tree : FileTree} {path : Path} {entry : Entry}
    (found : tree.find path = .ok entry) :
    ∃ links place, Leads tree.top (tree.startOf path) path.segments links place ∧
      tree.top.at? place = some entry := by
  obtain ⟨place, located, stands⟩ := find_eq_ok_iff.mp found
  obtain ⟨links, leads⟩ := (locate_eq_ok_iff.mp located).2.exists_leads
  exact ⟨links, place, leads, stands⟩

end FileTree

end CodeGraph
