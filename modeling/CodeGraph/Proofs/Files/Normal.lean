import CodeGraph.Proofs.Files.Names
import Mathlib.Data.List.DropRight

/-!
# Normalised paths

A normalised path is made of names, with pairs of dots in front of them where it is relative and
leads above the place it starts from. So a relative path that does not lead out of the project is
made of names alone, and it is the path of one place in the project.
-/

namespace CodeGraph

namespace PathText

open CodeGraph.Path (IsName)

variable {path text segment : String} {names : List String}

/-! ## First segments -/

theorem segments_ne_nil (path : String) : segments path ≠ [] :=
  Text.split_ne_nil '/' path

/-- Segments without slashes are the segments of the path that is joined from them. -/
theorem segments_ofSegments_of_plain {pieces : List String} (nonempty : pieces ≠ [])
    (plain : ∀ piece ∈ pieces, '/' ∉ piece.toList) : segments (ofSegments pieces) = pieces :=
  Text.split_intercalate_of_plain '/' nonempty plain

theorem ofSegments_segments (path : String) : ofSegments (segments path) = path :=
  Text.intercalate_split '/' path

/-- The path starts at the top of the tree. -/
def IsAbsolute (path : String) : Prop :=
  Text.startsWith path "/" = true

instance (path : String) : Decidable (IsAbsolute path) :=
  inferInstanceAs (Decidable (_ = true))

/-- A path is absolute exactly if it has several segments and the first one is empty. -/
theorem isAbsolute_iff :
    IsAbsolute path ↔ ∃ rest, rest ≠ [] ∧ segments path = "" :: rest := by
  have plain : '/' ∉ "".toList := List.not_mem_nil
  exact Text.startsWith_piece_iff '/' plain

/-- A path leads out exactly if its first segment is a pair of dots. -/
theorem leavesRoot_iff : leavesRoot path = true ↔ ∃ rest, segments path = ".." :: rest := by
  have plain : '/' ∉ "..".toList := by decide
  rw [leavesRoot, Bool.or_eq_true, beq_iff_eq, show "../" = ".." ++ String.singleton '/' from rfl,
    Text.startsWith_piece_iff '/' plain]
  constructor
  · rintro (rfl | ⟨rest, _, pieces⟩)
    · exact ⟨[], by decide⟩
    · exact ⟨rest, pieces⟩
  · rintro ⟨rest, pieces⟩
    by_cases alone : rest = []
    · left
      rw [← ofSegments_segments path, pieces, alone]
      rfl
    · exact .inr ⟨rest, alone, pieces⟩

theorem anchor_eq_empty_iff : anchor path = "" ↔ ¬ IsAbsolute path := by
  have longer : ∀ start, Text.startsWith path ("/" ++ start) = true → IsAbsolute path := by
    intro start begins
    obtain ⟨rest, rfl⟩ := Text.startsWith_iff.mp begins
    exact Text.startsWith_iff.mpr ⟨start ++ rest, by simp [String.append_assoc]⟩
  have two : Text.startsWith path "//" = true → IsAbsolute path := longer "/"
  have three : Text.startsWith path "///" = true → IsAbsolute path := longer "//"
  unfold anchor
  split
  next begins => simp [three begins]
  next =>
    split
    next begins => simp [two begins]
    next =>
      split
      next begins => simpa [IsAbsolute] using begins
      next relative => simpa [IsAbsolute] using relative

/-! ## What a normalised path is made of -/

/-- Names after some pairs of dots, in reverse order; an absolute path has no pairs of dots. -/
def Tidy (anchored : Bool) (before : List String) : Prop :=
  ∃ names dots, before = names ++ List.replicate dots ".." ∧ (∀ name ∈ names, IsName name) ∧
    (anchored = true → dots = 0)

/-- One more segment leaves segments tidy. -/
theorem Tidy.push {anchored : Bool} {before after : List String} (tidy : Tidy anchored before)
    (plain : '/' ∉ segment.toList) (pushes : Pushes anchored before segment after) :
    Tidy anchored after := by
  obtain ⟨names, dots, whole, proper, rooted⟩ := tidy
  cases pushes with
  | blank => exact ⟨names, dots, whole, proper, rooted⟩
  | name not_empty no_dot no_dots =>
      have named : IsName segment := ⟨not_empty, plain, no_dot, no_dots⟩
      exact ⟨segment :: names, dots, by rw [whole, List.cons_append],
        List.forall_mem_cons.mpr ⟨named, proper⟩, rooted⟩
  | @back _ last no_dots =>
      cases names with
      | nil =>
          have present : last ∈ [] ++ List.replicate dots ".." := whole ▸ List.mem_cons_self
          exact absurd (List.eq_of_mem_replicate present) no_dots
      | cons name names =>
          obtain ⟨-, rfl⟩ := List.cons.inj whole
          exact ⟨names, dots, rfl, (List.forall_mem_cons.mp proper).2, rooted⟩
  | higher =>
      cases names with
      | nil =>
          refine ⟨[], dots + 1, by rw [whole]; rfl, List.forall_mem_nil _, fun absolute => ?_⟩
          rw [rooted absolute] at whole
          exact nomatch whole
      | cons name names =>
          obtain ⟨rfl, -⟩ := List.cons.inj whole
          exact absurd rfl (proper ".." List.mem_cons_self).2.2.2
  | top => exact ⟨[], 0, rfl, List.forall_mem_nil _, fun _ => rfl⟩
  | above relative =>
      exact ⟨[], 1, rfl, List.forall_mem_nil _,
        fun absolute => nomatch relative.symm.trans absolute⟩

/-- The segments of a normalised path are names after some pairs of dots. -/
theorem normalSegments_eq (path : String) :
    ∃ dots names, normalSegments path = List.replicate dots ".." ++ names ∧
      (∀ name ∈ names, IsName name) ∧ (IsAbsolute path → dots = 0) := by
  have tidy : Tidy (anchor path != "")
      ((segments path).foldl (pushSegment (anchor path != "")) []) := by
    refine List.foldlRecOn (motive := Tidy (anchor path != "")) _ _
      ⟨[], 0, rfl, by simp, fun _ => rfl⟩ fun before tidy segment present => ?_
    exact tidy.push (Text.not_mem_of_mem_split '/' present) (pushes_pushSegment _ before segment)
  obtain ⟨names, dots, whole, proper, rooted⟩ := tidy
  refine ⟨dots, names.reverse, ?_, by simpa using proper, fun absolute => rooted ?_⟩
  · rw [normalSegments, whole, List.reverse_append, List.reverse_replicate]
  · rw [bne_iff_ne, Ne, anchor_eq_empty_iff]
    exact not_not.mpr absolute

theorem plain_of_mem_normalSegments (present : segment ∈ normalSegments path) :
    segment ≠ "" ∧ '/' ∉ segment.toList := by
  obtain ⟨dots, names, whole, proper, _⟩ := normalSegments_eq path
  rw [whole] at present
  rcases List.mem_append.mp present with above | name
  · obtain rfl := List.eq_of_mem_replicate above
    decide
  · exact ⟨(proper segment name).1, (proper segment name).2.1⟩

/-- The normalised form of a relative path. -/
theorem normalize_of_relative (relative : ¬ IsAbsolute path) :
    normalize path
      = if normalSegments path = [] then "." else ofSegments (normalSegments path) := by
  rw [normalize, anchor_eq_empty_iff.mpr relative, String.empty_append]
  by_cases none : normalSegments path = []
  · rw [if_pos none, none]
    rfl
  · have something : ofSegments (normalSegments path) ≠ "" := by
      intro empty
      have pieces := segments_ofSegments_of_plain none
        fun piece present => (plain_of_mem_normalSegments present).2
      rw [empty] at pieces
      have present : "" ∈ normalSegments path := by
        rw [← pieces]
        decide
      exact (plain_of_mem_normalSegments present).1 rfl
    rw [if_neg none, if_neg (by simpa using something)]

/-- A segment of a normalised path is one of those that normalising keeps, apart from a single dot
and the empty ones in front of an absolute path. -/
theorem mem_segments_normalize (present : segment ∈ segments (normalize path)) :
    segment = "" ∨ segment = "." ∨ segment ∈ normalSegments path := by
  have inner : ∀ segment ∈ segments (ofSegments (normalSegments path)),
      segment = "" ∨ segment = "." ∨ segment ∈ normalSegments path := by
    intro segment present
    by_cases none : normalSegments path = []
    · rw [none] at present
      exact .inl (List.mem_singleton.mp present)
    · rw [segments_ofSegments_of_plain none
        fun piece mem => (plain_of_mem_normalSegments mem).2] at present
      exact .inr (.inr present)
  have behind : ∀ rest : String, segments ("/" ++ rest) = "" :: segments rest := by
    intro rest
    have pieces := Text.split_append '/' "" rest
    rw [String.empty_append] at pieces
    exact pieces
  rw [normalize] at present
  split at present
  · exact .inr (.inl (List.mem_singleton.mp present))
  · unfold anchor at present
    split at present
    next =>
      rw [behind] at present
      exact (List.mem_cons.mp present).elim .inl (inner segment)
    next =>
      split at present
      next =>
        rw [show "//" = "/" ++ "/" from rfl, String.append_assoc, behind, behind] at present
        rcases List.mem_cons.mp present with rfl | present
        · exact .inl rfl
        · exact (List.mem_cons.mp present).elim .inl (inner segment)
      next =>
        split at present
        · rw [behind] at present
          exact (List.mem_cons.mp present).elim .inl (inner segment)
        · exact inner segment (by simpa using present)

/-- A relative path stays relative when it is normalised. -/
theorem not_isAbsolute_normalize (relative : ¬ IsAbsolute path) :
    ¬ IsAbsolute (normalize path) := by
  rw [normalize_of_relative relative]
  split
  · decide
  next some =>
    intro absolute
    obtain ⟨rest, _, pieces⟩ := isAbsolute_iff.mp absolute
    rw [segments_ofSegments_of_plain some
      fun piece present => (plain_of_mem_normalSegments present).2] at pieces
    have present : "" ∈ normalSegments path := by simp [pieces]
    exact (plain_of_mem_normalSegments present).1 rfl

/-- A normalised path that does not begin with a pair of dots has none at all. -/
theorem dots_not_mem_segments_normalize (inside : leavesRoot (normalize path) = false) :
    ".." ∉ segments (normalize path) := by
  intro present
  rcases mem_segments_normalize present with empty | dot | kept
  · exact absurd empty (by decide)
  · exact absurd dot (by decide)
  obtain ⟨dots, names, whole, proper, rooted⟩ := normalSegments_eq path
  have above : dots ≠ 0 := by
    rintro rfl
    rw [whole] at kept
    exact (proper ".." (by simpa using kept)).2.2.2 rfl
  have relative : ¬ IsAbsolute path := mt rooted above
  obtain ⟨fewer, rfl⟩ := Nat.exists_eq_succ_of_ne_zero above
  have first : normalSegments path = ".." :: (List.replicate fewer ".." ++ names) := by
    rw [whole, List.replicate_succ, List.cons_append]
  have leaves : leavesRoot (normalize path) = true := by
    rw [normalize_of_relative relative, if_neg (by simp [first]), leavesRoot_iff,
      segments_ofSegments_of_plain (by simp [first])
        fun piece mem => (plain_of_mem_normalSegments mem).2]
    exact ⟨_, first⟩
  exact absurd (leaves.symm.trans inside) (by decide)

/-! ## Paths of files in the project -/

/-- The normalised relative path of a place in the project other than its root. -/
structure IsInside (path : String) : Prop where
  normal : normalize path = path
  relative : ¬ IsAbsolute path
  inside : leavesRoot path = false
  not_root : path ≠ "."

/-- Such a path is made of names. -/
theorem IsInside.exists_names (inside : IsInside path) :
    ∃ names, names ≠ [] ∧ (∀ name ∈ names, IsName name) ∧ path = ofSegments names := by
  have normal := normalize_of_relative inside.relative
  rw [inside.normal] at normal
  split at normal
  · exact absurd normal inside.not_root
  next some =>
    obtain ⟨dots, names, whole, proper, _⟩ := normalSegments_eq path
    have pieces : segments path = normalSegments path := by
      conv_lhs => rw [normal]
      exact segments_ofSegments_of_plain some
        fun piece present => (plain_of_mem_normalSegments present).2
    have within : dots = 0 := by
      cases dots with
      | zero => rfl
      | succ dots =>
          have leaves : leavesRoot path = true :=
            leavesRoot_iff.mpr ⟨_, by rw [pieces, whole, List.replicate_succ]; rfl⟩
          exact absurd (leaves.symm.trans inside.inside) (by decide)
    rw [within, List.replicate_zero, List.nil_append] at whole
    rw [whole] at some normal
    exact ⟨names, some, proper, normal⟩

/-! ## Going along names and up again -/

theorem foldl_push_names (anchored : Bool) (before : List String)
    (proper : ∀ name ∈ names, IsName name) :
    names.foldl (pushSegment anchored) before = names.reverse ++ before := by
  induction names generalizing before with
  | nil => rfl
  | cons name names ih =>
      obtain ⟨⟨not_empty, _, no_dot, no_dots⟩, proper⟩ := List.forall_mem_cons.mp proper
      rw [List.foldl_cons, pushSegment_of_name not_empty no_dot no_dots, ih _ proper,
        List.reverse_cons, List.append_assoc]
      rfl

/-- As many pairs of dots as there are names lead back to where the names began. -/
theorem foldl_push_dots (anchored : Bool) (before : List String)
    (proper : ∀ name ∈ names, IsName name) :
    (names.map fun _ => "..").foldl (pushSegment anchored) (names ++ before) = before := by
  induction names with
  | nil => rfl
  | cons name names ih =>
      obtain ⟨⟨_, _, _, no_dots⟩, proper⟩ := List.forall_mem_cons.mp proper
      rw [List.map_cons, List.cons_append, List.foldl_cons, pushSegment_back no_dots, ih proper]

end PathText

end CodeGraph
