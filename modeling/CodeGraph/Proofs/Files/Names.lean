import CodeGraph.Files.Entry
import CodeGraph.Files.Path
import CodeGraph.Proofs.Text.Pieces

/-!
# Names in a file tree

The names in one directory are all different, and none of them could be taken for a part of a
path. So a path of names as text tells the names, and the entries of a directory are what a lookup
of their names finds.
-/

namespace CodeGraph

namespace Path

/-- The text can be the name of an entry: it is not empty, has no slash, and stands neither for
the directory itself nor for the one above it. -/
def IsName (name : String) : Prop :=
  name ≠ "" ∧ '/' ∉ name.toList ∧ name ≠ "." ∧ name ≠ ".."

instance (name : String) : Decidable (IsName name) :=
  inferInstanceAs (Decidable (_ ∧ _))

variable {names others : List String}

/-- The pieces of a path of names are the names. -/
theorem segments_ofSegments (nonempty : names ≠ []) (proper : ∀ name ∈ names, IsName name) :
    PathText.segments (PathText.ofSegments names) = names := by
  exact Text.split_intercalate_of_plain '/' nonempty fun name present => (proper name present).2.1

theorem ofSegments_eq_empty_iff (proper : ∀ name ∈ names, IsName name) :
    PathText.ofSegments names = "" ↔ names = [] := by
  constructor
  · intro empty
    refine Decidable.byContradiction fun nonempty => ?_
    have pieces := segments_ofSegments nonempty proper
    rw [empty] at pieces
    have alone : names = [""] := pieces.symm.trans (by decide)
    exact (proper "" (by simp [alone])).1 rfl
  · rintro rfl
    rfl

/-- A path as text tells its names. -/
theorem ofSegments_inj (proper : ∀ name ∈ names, IsName name)
    (proper' : ∀ name ∈ others, IsName name)
    (same : PathText.ofSegments names = PathText.ofSegments others) : names = others := by
  by_cases empty : names = []
  · subst empty
    exact ((ofSegments_eq_empty_iff proper').mp (same.symm.trans rfl)).symm
  · have nonempty : others ≠ [] := fun empty' =>
      empty ((ofSegments_eq_empty_iff proper).mp (same.trans (by rw [empty']; rfl)))
    rw [← segments_ofSegments empty proper, same, segments_ofSegments nonempty proper']

/-- What a path of names means below a directory. -/
theorem below_ofSegments (base : Path) (nonempty : names ≠ [])
    (proper : ∀ name ∈ names, IsName name) :
    base.below (PathText.ofSegments names)
      = { base with segments := base.segments ++ names } := by
  have kept : names.filter (fun segment => segment != "" && segment != ".") = names := by
    refine List.filter_eq_self.mpr fun name present => ?_
    obtain ⟨not_empty, _, no_dot, _⟩ := proper name present
    simp [not_empty, no_dot]
  have relative : PathText.anchor (PathText.ofSegments names) = "" := by
    have no_slash : ∀ start : List Char,
        ('/' :: start).isPrefixOf (PathText.ofSegments names).toList = false := by
      intro start
      obtain ⟨first, rest, rfl⟩ := List.exists_cons_of_ne_nil nonempty
      obtain ⟨not_empty, no_slash, _⟩ := proper first List.mem_cons_self
      obtain ⟨char, chars, first_eq⟩ := List.exists_cons_of_ne_nil
        (fun empty => not_empty (String.toList_eq_nil_iff.mp empty))
      have ne : '/' ≠ char := by
        rintro rfl
        exact no_slash (by simp [first_eq])
      have opens : ∃ more, (PathText.ofSegments (first :: rest)).toList = char :: more := by
        cases rest with
        | nil => exact ⟨chars, by simp [PathText.ofSegments, first_eq]⟩
        | cons next rest =>
            rw [PathText.ofSegments, String.intercalate_cons_of_ne_nil (by simp)]
            exact ⟨_, by simp [first_eq]; rfl⟩
      obtain ⟨more, opens⟩ := opens
      simp [opens, List.isPrefixOf, ne]
    simp [PathText.anchor, Text.startsWith, no_slash]
  rw [below, ofText, join, isAbsolute, relative, segments_ofSegments nonempty proper, kept]
  rfl

end Path

namespace PathText

/-- One more segment onto the segments before it, which stand in reverse order. -/
inductive Pushes (anchored : Bool) : List String → String → List String → Prop
  /-- An empty segment and a dot are left out. -/
  | blank {before : List String} {segment : String} (is_blank : segment = "" ∨ segment = ".") :
      Pushes anchored before segment before
  /-- A name is kept. -/
  | name {before : List String} {segment : String} (not_empty : segment ≠ "")
      (no_dot : segment ≠ ".") (no_dots : segment ≠ "..") :
      Pushes anchored before segment (segment :: before)
  /-- A pair of dots takes the name before it away. -/
  | back {before : List String} {last : String} (no_dots : last ≠ "..") :
      Pushes anchored (last :: before) ".." before
  /-- Behind a pair of dots another one is kept. -/
  | higher {before : List String} : Pushes anchored (".." :: before) ".." (".." :: ".." :: before)
  /-- There is nothing above the start of an absolute path. -/
  | top (is_anchored : anchored = true) : Pushes anchored [] ".." []
  /-- A relative path goes above its start. -/
  | above (relative : anchored = false) : Pushes anchored [] ".." [".."]

theorem pushSegment_of_blank {anchored : Bool} {before : List String} {segment : String}
    (is_blank : segment = "" ∨ segment = ".") : pushSegment anchored before segment = before :=
  if_pos (by simpa using is_blank)

theorem pushSegment_of_name {anchored : Bool} {before : List String} {segment : String}
    (not_empty : segment ≠ "") (no_dot : segment ≠ ".") (no_dots : segment ≠ "..") :
    pushSegment anchored before segment = segment :: before := by
  simp [pushSegment, not_empty, no_dot, no_dots]

theorem pushSegment_back {anchored : Bool} {before : List String} {last : String}
    (no_dots : last ≠ "..") : pushSegment anchored (last :: before) ".." = before := by
  simp [pushSegment, no_dots]

theorem pushes_pushSegment (anchored : Bool) (before : List String) (segment : String) :
    Pushes anchored before segment (pushSegment anchored before segment) := by
  by_cases is_blank : segment = "" ∨ segment = "."
  · rw [pushSegment_of_blank is_blank]
    exact .blank is_blank
  obtain ⟨not_empty, no_dot⟩ := not_or.mp is_blank
  by_cases no_dots : segment ≠ ".."
  · rw [pushSegment_of_name not_empty no_dot no_dots]
    exact .name not_empty no_dot no_dots
  obtain rfl := Decidable.not_not.mp no_dots
  cases before with
  | nil =>
      cases anchored with
      | true => exact .top rfl
      | false => exact .above rfl
  | cons last before =>
      by_cases again : last = ".."
      · subst again
        exact .higher
      · rw [pushSegment_back again]
        exact .back again

end PathText

namespace Entry

mutual

/-- At and below an entry the names in each directory are all different, and each is the name of
an entry. -/
def Proper : Entry → Prop
  | .file _ | .link _ => True
  | .directory entries => (entries.map (·.1)).Nodup ∧ ProperAll entries

/-- The entries of a directory have names, and so do the entries below them. -/
def ProperAll : List (String × Entry) → Prop
  | [] => True
  | (name, entry) :: entries => Path.IsName name ∧ Proper entry ∧ ProperAll entries

end

theorem properAll_iff {entries : List (String × Entry)} :
    ProperAll entries ↔
      ∀ name entry, (name, entry) ∈ entries → Path.IsName name ∧ entry.Proper := by
  induction entries with
  | nil => simp [ProperAll]
  | cons first entries ih =>
      obtain ⟨name, entry⟩ := first
      simp only [ProperAll, ih, List.mem_cons, Prod.mk.injEq]
      constructor
      · rintro ⟨named, proper, others⟩ _ _ (⟨rfl, rfl⟩ | later)
        · exact ⟨named, proper⟩
        · exact others _ _ later
      · intro all
        have first := all name entry (.inl ⟨rfl, rfl⟩)
        exact ⟨first.1, first.2, fun _ _ later => all _ _ (.inr later)⟩

variable {entries : List (String × Entry)} {name : String} {entry leaf : Entry}

/-- The entries of a directory are what a lookup of their names finds. -/
theorem Proper.mem_iff_lookup (proper : (Entry.directory entries).Proper) :
    (name, entry) ∈ entries ↔ entries.lookup name = some entry :=
  ⟨Ordered.get?_of_mem proper.1, Ordered.mem_of_get?⟩

theorem Proper.of_lookup (proper : (Entry.directory entries).Proper)
    (found : entries.lookup name = some entry) : Path.IsName name ∧ entry.Proper :=
  properAll_iff.mp proper.2 name entry (Ordered.mem_of_get? found)

/-- A place where something stands is a path of names. -/
theorem Proper.isName_of_at? {place : List String} (proper : entry.Proper)
    (stands : entry.at? place = some leaf) : ∀ name ∈ place, Path.IsName name := by
  induction place generalizing entry with
  | nil => simp
  | cons name rest ih =>
      obtain ⟨inner, found, below⟩ := Option.bind_eq_some_iff.mp stands
      cases entry with
      | file | link => exact nomatch found
      | directory entries =>
          obtain ⟨named, inner_proper⟩ := proper.of_lookup found
          exact List.forall_mem_cons.mpr ⟨named, ih inner_proper below⟩

end Entry

end CodeGraph
