import CodeGraph.Files.Entry
import Mathlib.Data.List.Nodup
import Mathlib.Data.List.Perm.Subperm

/-!
# Leaves of a file tree

Files and links are the leaves of a file tree. Different places with a leaf are at most as many as
there are leaves, which bounds how long one can go on meeting new files or new links.
-/

namespace CodeGraph

namespace Entry

/-- The entry is a file or a link. -/
def isLeaf : Entry → Bool
  | .file _ | .link _ => true
  | .directory _ => false

mutual

/-- The places of the files and links at and below an entry that stands at a place. -/
def leaves (place : List String) : Entry → List (List String)
  | .file _ | .link _ => [place]
  | .directory entries => leavesOfAll place entries

/-- The places of the files and links at and below the entries of a directory. -/
def leavesOfAll (place : List String) : List (String × Entry) → List (List String)
  | [] => []
  | (name, entry) :: entries => leaves (place ++ [name]) entry ++ leavesOfAll place entries

end

mutual

theorem length_leaves : ∀ (place : List String) (entry : Entry),
    (leaves place entry).length = leafCount entry
  | _, .file _ | _, .link _ => rfl
  | place, .directory entries => length_leavesOfAll place entries

theorem length_leavesOfAll : ∀ (place : List String) (entries : List (String × Entry)),
    (leavesOfAll place entries).length = leafCountAll entries
  | _, [] => rfl
  | place, (name, entry) :: entries => by
      rw [leavesOfAll, leafCountAll, List.length_append, length_leaves, length_leavesOfAll]

end

mutual

theorem mem_leaves : ∀ {entry leaf : Entry} (front : List String) {place : List String},
    at? place entry = some leaf → leaf.isLeaf = true → front ++ place ∈ leaves front entry
  | .file _, _, front, [], _, _ | .link _, _, front, [], _, _ => by simp [leaves]
  | .directory _, _, _, [], stands, is_leaf => by
      obtain rfl := Option.some.inj stands
      exact nomatch is_leaf
  | .file _, _, _, _ :: _, stands, _ | .link _, _, _, _ :: _, stands, _ => nomatch stands
  | .directory entries, _, front, name :: rest, stands, is_leaf => by
      obtain ⟨entry, found, stands⟩ := Option.bind_eq_some_iff.mp stands
      exact mem_leavesOfAll front found stands is_leaf

theorem mem_leavesOfAll : ∀ {entries : List (String × Entry)} {entry leaf : Entry}
    {name : String} (front : List String) {rest : List String},
    entries.lookup name = some entry →
    at? rest entry = some leaf → leaf.isLeaf = true →
    front ++ name :: rest ∈ leavesOfAll front entries
  | (other, first) :: entries, entry, leaf, name, front, rest, found, stands, is_leaf => by
      rw [leavesOfAll]
      by_cases same : name = other
      · subst same
        rw [List.lookup_cons, beq_self_eq_true] at found
        obtain rfl := Option.some.inj found
        have below := mem_leaves (front ++ [name]) stands is_leaf
        rw [List.append_assoc, List.singleton_append] at below
        exact List.mem_append_left _ below
      · rw [List.lookup_cons, beq_eq_false_iff_ne.mpr same] at found
        exact List.mem_append_right _ (mem_leavesOfAll front found stands is_leaf)

end

/-- Different places with a leaf are no more than there are leaves. -/
theorem length_le_leafCount {top : Entry} {places : List (List String)} (different : places.Nodup)
    (leaf : ∀ place ∈ places, ∃ leaf, at? place top = some leaf ∧ leaf.isLeaf = true) :
    places.length ≤ leafCount top := by
  have subset : places ⊆ leaves [] top := by
    intro place present
    obtain ⟨leaf, stands, is_leaf⟩ := leaf place present
    exact mem_leaves [] stands is_leaf
  rw [← length_leaves []]
  exact (different.subperm subset).length_le

theorem at?_append (front rest : List String) (entry : Entry) :
    at? (front ++ rest) entry = (at? front entry).bind (at? rest) := by
  induction front generalizing entry with
  | nil => rfl
  | cons name front ih =>
      simp only [List.cons_append, at?]
      cases entry.entries.lookup name with
      | none => rfl
      | some inner => exact ih inner

/-- What stands in a directory is what the directory names. -/
theorem at?_concat {top : Entry} {place : List String} {entries : List (String × Entry)}
    (stands : top.at? place = some (.directory entries)) (name : String) :
    top.at? (place ++ [name]) = entries.lookup name := by
  rw [at?_append, stands]
  cases found : entries.lookup name <;> simp [at?, Entry.entries, found]

end Entry

end CodeGraph
