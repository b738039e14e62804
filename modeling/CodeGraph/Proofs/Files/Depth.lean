import CodeGraph.Proofs.Files.Normal

/-!
# Paths that go above their start

A relative path goes down with each name and up with each pair of dots. Its normalised form leads
out of the directory it starts from exactly if the way goes above that directory somewhere, even if
it comes back down.
-/

namespace CodeGraph

namespace PathText

variable {path segment : String} {before front back : List String} {depth : Nat}

/-- How far below its start the way along segments ends, from a given depth on. A way that goes
above its start has no such depth. -/
def depthAfter? : (depth : Nat) → List String → Option Nat
  | depth, [] => some depth
  | depth, segment :: rest =>
      if segment == "" || segment == "." then depthAfter? depth rest
      else if segment != ".." then depthAfter? (depth + 1) rest
      else if depth = 0 then none
      else depthAfter? (depth - 1) rest

theorem depthAfter?_append (depth : Nat) (front back : List String) :
    depthAfter? depth (front ++ back) = (depthAfter? depth front).bind (depthAfter? · back) := by
  induction front generalizing depth with
  | nil => rfl
  | cons segment front ih =>
      rw [List.cons_append, depthAfter?, depthAfter?, ih, ih, ih]
      split
      · rfl
      · split
        · rfl
        · split <;> rfl

/-- An absolute path goes on being one when it is normalised. -/
theorem IsAbsolute.normalize (absolute : IsAbsolute path) : IsAbsolute (normalize path) := by
  have anchored : ∃ rest, anchor path = "/" ++ rest := by
    unfold anchor
    split
    · exact ⟨"", rfl⟩
    · split
      · exact ⟨"/", rfl⟩
      · exact ⟨"", if_pos absolute⟩
  obtain ⟨rest, anchor_eq⟩ := anchored
  rw [PathText.normalize, anchor_eq, String.append_assoc]
  have something : ("/" ++ (rest ++ ofSegments (normalSegments path))).isEmpty = false := by simp
  rw [if_neg (by simp [something])]
  exact Text.startsWith_iff.mpr ⟨_, rfl⟩

/-- Once a way has gone above its start, it counts as having done so. -/
theorem getLast?_of_pushes {after : List String} (above : before.getLast? = some "..")
    (pushes : Pushes false before segment after) : after.getLast? = some ".." := by
  cases pushes with
  | blank => exact above
  | name | higher => rw [List.getLast?_cons, above]; rfl
  | @back _ last no_dots =>
      cases after with
      | nil => exact absurd (Option.some.inj above) no_dots
      | cons next after => rwa [List.getLast?_cons_cons] at above
  | top | above => exact nomatch above

/-- From names on, a way goes above its start exactly if what is left of it begins with a pair of
dots. -/
theorem depthAfter?_eq_none_iff (segments : List String) (names : ∀ name ∈ before, name ≠ "..") :
    depthAfter? before.length segments = none ↔
      (segments.foldl (pushSegment false) before).getLast? = some ".." := by
  induction segments generalizing before with
  | nil =>
      refine iff_of_false nofun fun above => ?_
      exact names ".." (List.mem_of_getLast? above) rfl
  | cons segment segments ih =>
      rw [depthAfter?, List.foldl_cons]
      by_cases blank : (segment == "" || segment == ".") = true
      · rw [if_pos blank, pushSegment_of_blank (by simpa using blank)]
        exact ih names
      by_cases name : (segment != "..") = true
      · have kept : segment ≠ "" ∧ segment ≠ "." := by simpa using blank
        rw [if_neg blank, if_pos name,
          pushSegment_of_name kept.1 kept.2 (by simpa using name)]
        exact ih (List.forall_mem_cons.mpr ⟨by simpa using name, names⟩)
      obtain rfl : segment = ".." := by simpa using name
      cases before with
      | nil =>
          refine iff_of_true rfl ?_
          exact List.foldlRecOn (motive := fun kept : List String => kept.getLast? = some "..")
            segments _ rfl fun before above segment _ =>
              getLast?_of_pushes above (pushes_pushSegment false before segment)
      | cons last rest =>
          obtain ⟨no_dots, names⟩ := List.forall_mem_cons.mp names
          rw [pushSegment_back no_dots]
          exact ih names

/-- A normalised path leads out exactly if the way along the path goes above its start. -/
theorem leavesRoot_normalize_iff (relative : ¬ IsAbsolute path) :
    leavesRoot (normalize path) = true ↔ depthAfter? 0 (segments path) = none := by
  have first : depthAfter? 0 (segments path) = none ↔ (normalSegments path).head? = some ".." := by
    rw [normalSegments, anchor_eq_empty_iff.mpr relative, List.head?_reverse]
    exact depthAfter?_eq_none_iff (segments path) (List.forall_mem_nil _)
  rw [first, leavesRoot_iff, normalize_of_relative relative]
  by_cases none : normalSegments path = []
  · rw [if_pos none, none]
    have dot : segments "." = ["."] := by decide
    simp [dot]
  · rw [if_neg none, segments_ofSegments_of_plain none
      fun piece present => (plain_of_mem_normalSegments present).2, List.head?_eq_some_iff]

/-- The path lies in the directory that it starts from, as far as its text tells: it is relative,
and its first segment is no pair of dots. -/
def StaysInside (path : String) : Prop :=
  ¬ IsAbsolute path ∧ leavesRoot path = false

instance (path : String) : Decidable (StaysInside path) :=
  inferInstanceAs (Decidable (_ ∧ _))

/-- A path stays inside exactly if it is relative and its way does not go above its start. -/
theorem staysInside_normalize_iff :
    StaysInside (normalize path) ↔ ¬ IsAbsolute path ∧ (depthAfter? 0 (segments path)).isSome := by
  by_cases absolute : IsAbsolute path
  · exact iff_of_false (fun stays => stays.1 absolute.normalize) fun stays => stays.1 absolute
  · have leaves := leavesRoot_normalize_iff absolute
    rw [StaysInside, and_iff_right (not_isAbsolute_normalize absolute), and_iff_right absolute,
      ← Bool.not_eq_true, leaves, Option.isSome_iff_ne_none]

/-- The way along a relative path that is joined to another one is the way along both. -/
theorem depthAfter?_segments_join (base : String) (relative : ¬ IsAbsolute path) :
    depthAfter? depth (segments (join base path))
      = depthAfter? depth (segments base ++ segments path) := by
  have joins (front : String) : segments (front ++ "/" ++ path) = segments front ++ segments path :=
    Text.split_append '/' front path
  rw [join, if_neg (by simpa [IsAbsolute] using relative)]
  split
  next ends =>
    by_cases empty : base = ""
    · rw [empty, String.empty_append]
      exact (depthAfter?_append depth [""] (segments path)).symm
    · have slash : Text.endsWith base "/" = true := by simpa [empty] using ends
      obtain ⟨front, whole⟩ := List.isSuffixOf_iff_suffix.mp slash
      have base_eq : base = String.ofList front ++ "/" := by
        rw [← String.toList_inj, ← whole]
        simp
      have pieces : segments base = segments (String.ofList front) ++ [""] := by
        have cut := Text.split_append '/' (String.ofList front) ""
        rw [String.append_empty] at cut
        rw [base_eq]
        exact cut
      rw [pieces, base_eq, joins, List.append_assoc, depthAfter?_append, depthAfter?_append]
      rfl
  next => rw [joins]

end PathText

end CodeGraph
