import CodeGraph.Routes.RouteTree
import Mathlib.Data.List.DropRight

/-!
# Whole paths

The whole path of a route is built up on the way down to it, by joining a path that has been joined
before with the next one. Joining such a path again changes nothing about it. So the whole path can
be said at once: it is joined from the paths on the way, from the last one on that begins with a
slash.
-/

namespace CodeGraph

namespace Text

variable {test : Char → Bool} {chars : List Char}

/-- No character at the ends satisfies a test. -/
structure Trimmed (test : Char → Bool) (chars : List Char) : Prop where
  /-- The first character does not. -/
  head : ∀ char ∈ chars.head?, test char = false
  /-- The last one does not. -/
  last : ∀ char ∈ chars.getLast?, test char = false

theorem trimmed_trimWhile (test : Char → Bool) (chars : List Char) :
    Trimmed test (trimWhile test chars) := by
  refine ⟨fun char found => ?_, fun char found => ?_⟩
  · have found : ((chars.dropWhile test).rdropWhile test).head? = some char := found
    have first := List.head?_dropWhile_not test chars
    obtain ⟨back, whole⟩ := List.rdropWhile_prefix test (chars.dropWhile test)
    rw [← whole, List.head?_append, found] at first
    exact first
  · have present : char ∈ ((chars.dropWhile test).rdropWhile test).getLast? := found
    obtain ⟨nonempty, rfl⟩ := List.mem_getLast?_eq_getLast present
    simpa using List.rdropWhile_last_not test (chars.dropWhile test) nonempty

theorem Trimmed.trimWhile_eq (trimmed : Trimmed test chars) : trimWhile test chars = chars := by
  have front : chars.dropWhile test = chars := by
    refine List.dropWhile_eq_self_iff.mpr fun nonempty => ?_
    simpa using trimmed.head _ (List.head?_eq_getElem? ▸ List.getElem?_eq_getElem nonempty)
  have back : chars.rdropWhile test = chars := by
    refine List.rdropWhile_eq_self_iff.mpr fun nonempty => ?_
    simpa using trimmed.last _ (List.getLast?_eq_some_getLast nonempty)
  rw [trimWhile, front]
  exact back

/-- What stands between two trimmed texts does not matter. -/
theorem Trimmed.around {first second : List Char} (front : Trimmed test first)
    (back : Trimmed test second) (first_ne : first ≠ []) (second_ne : second ≠ [])
    (middle : List Char) : Trimmed test (first ++ middle ++ second) := by
  obtain ⟨head, first, rfl⟩ := List.exists_cons_of_ne_nil first_ne
  refine ⟨fun char found => front.head char (by simpa using found), fun char found => ?_⟩
  refine back.last char ?_
  rwa [List.getLast?_append_of_ne_nil _ second_ne] at found

end Text

namespace RoutePath

/-! ## Segments without slashes at their ends -/

/-- The segment neither begins nor ends with a slash. -/
def IsTrimmed (segment : String) : Prop :=
  Text.Trimmed (['/'].contains ·) segment.toList

theorem isTrimmed_trimSlashes (segment : String) : IsTrimmed (trimSlashes segment) := by
  rw [IsTrimmed, trimSlashes, Text.trimAll, String.toList_ofList]
  exact Text.trimmed_trimWhile ..

theorem IsTrimmed.trimSlashes_eq {segment : String} (trimmed : IsTrimmed segment) :
    trimSlashes segment = segment := by
  rw [trimSlashes, Text.trimAll, trimmed.trimWhile_eq, String.ofList_toList]

theorem isTrimmed_empty : IsTrimmed "" :=
  ⟨by simp, by simp⟩

/-- A slash in front is trimmed off. -/
theorem trimSlashes_slash (segment : String) :
    trimSlashes ("/" ++ segment) = trimSlashes segment := by
  rw [trimSlashes, trimSlashes, Text.trimAll, Text.trimAll, String.toList_append]
  rfl

/-! ## Joining -/

/-- What is left of segments: trimmed, and without the empty ones. -/
def parts (segments : List String) : List String :=
  (segments.map trimSlashes).filter (!·.isEmpty)

theorem joinSegments_eq (segments : List String) :
    joinSegments segments = String.intercalate "/" (parts segments) := rfl

theorem parts_append (first second : List String) :
    parts (first ++ second) = parts first ++ parts second := by
  simp [parts]

theorem mem_parts {segments : List String} {part : String} (present : part ∈ parts segments) :
    IsTrimmed part ∧ part ≠ "" := by
  obtain ⟨listed, nonempty⟩ := List.mem_filter.mp present
  obtain ⟨segment, _, rfl⟩ := List.mem_map.mp listed
  exact ⟨isTrimmed_trimSlashes segment, by simpa using nonempty⟩

/-- Joined from trimmed segments that are not empty, a path is trimmed, and it is empty only if
there are none. -/
theorem isTrimmed_intercalate {segments : List String}
    (all : ∀ segment ∈ segments, IsTrimmed segment ∧ segment ≠ "") :
    IsTrimmed (String.intercalate "/" segments) ∧
      (segments ≠ [] → String.intercalate "/" segments ≠ "") := by
  induction segments with
  | nil => exact ⟨isTrimmed_empty, fun nonempty => absurd rfl nonempty⟩
  | cons segment segments ih =>
      obtain ⟨⟨here, here_ne⟩, further⟩ := List.forall_mem_cons.mp all
      cases segments with
      | nil => simpa using ⟨here, here_ne⟩
      | cons next segments =>
          obtain ⟨rest, rest_ne⟩ := ih further
          replace rest_ne := rest_ne (by simp)
          rw [String.intercalate_cons_of_ne_nil (by simp)]
          refine ⟨?_, fun _ => by simp [here_ne]⟩
          rw [IsTrimmed, String.toList_append, String.toList_append]
          exact here.around rest (mt String.toList_eq_nil_iff.mp here_ne)
            (mt String.toList_eq_nil_iff.mp rest_ne) _

theorem parts_joinSegments {segments : List String} (nonempty : parts segments ≠ []) :
    parts ["/" ++ joinSegments segments] = [joinSegments segments] := by
  have whole := isTrimmed_intercalate fun part (present : part ∈ parts segments) =>
    mem_parts present
  rw [← joinSegments_eq] at whole
  simp [parts, trimSlashes_slash, whole.1.trimSlashes_eq, whole.2 nonempty]

/-- Joining a path that has been joined before with further segments joins all of them. -/
theorem joinSegments_joinSegments (first second : List String) :
    joinSegments (("/" ++ joinSegments first) :: second) = joinSegments (first ++ second) := by
  rw [← List.singleton_append, joinSegments_eq (_ ++ second), joinSegments_eq (first ++ second),
    parts_append, parts_append]
  by_cases empty : parts first = []
  · have joined : joinSegments first = "" := by rw [joinSegments_eq, empty, String.intercalate_nil]
    have none : parts ["/" ++ ""] = [] := by decide +kernel
    rw [joined, none, empty]
  · rw [parts_joinSegments empty]
    by_cases last : parts second = []
    · rw [last, List.append_nil, List.append_nil, String.intercalate_singleton, joinSegments_eq]
    · rw [List.singleton_append, String.intercalate_cons_of_ne_nil last,
        String.intercalate_append_of_ne_nil empty last, joinSegments_eq]

/-! ## The way down to a route -/

/-- The paths on the way to a route from the last one on that begins with a slash, or all of them if
none does. -/
def sinceRoot : List String → List String
  | [] => []
  | path :: paths =>
      if paths.any (Text.startsWith · "/") then sinceRoot paths else path :: paths

/-- The whole path of the last of the routes with these paths, each around the next one: a slash,
and what is left of the paths since the root, with slashes between. -/
def whole (paths : List String) : String :=
  "/" ++ String.intercalate "/" (parts (sinceRoot paths))

theorem whole_eq (paths : List String) : whole paths = "/" ++ joinSegments (sinceRoot paths) := rfl

theorem sinceRoot_concat (paths : List String) (path : String) :
    sinceRoot (paths ++ [path])
      = if Text.startsWith path "/" then [path] else sinceRoot paths ++ [path] := by
  induction paths with
  | nil => simp [sinceRoot]
  | cons first paths ih =>
      rw [List.cons_append, sinceRoot, ih, sinceRoot]
      cases begins : Text.startsWith path "/" <;>
        cases later : paths.any (Text.startsWith · "/") <;> simp [begins, later]

theorem full_empty (path : String) : full "" path = whole [path] := by
  have blank : parts [""] = [] := by decide +kernel
  have leading : parts ["", path] = parts [path] := by
    rw [← List.singleton_append, parts_append, blank, List.nil_append]
  have only : sinceRoot [path] = [path] := rfl
  rw [full, whole_eq, only, joinSegments_eq ["", path], leading, ← joinSegments_eq, ite_self]

/-- The whole path of a route is that of the route around it, carried on. -/
theorem full_whole (paths : List String) (path : String) :
    full (whole paths) path = whole (paths ++ [path]) := by
  rw [full, whole_eq, whole_eq, sinceRoot_concat]
  split
  · rfl
  · rw [joinSegments_joinSegments]

end RoutePath

namespace Routes

theorem fullPath_none (path : String) : fullPath none path = RoutePath.whole [path] :=
  RoutePath.full_empty path

theorem fullPath_some {parent : MadeRoute} {paths : List String}
    (parent_eq : parent.fullPath = RoutePath.whole paths) (path : String) :
    fullPath (some parent) path = RoutePath.whole (paths ++ [path]) := by
  rw [← RoutePath.full_whole, ← parent_eq]
  rfl

end Routes

end CodeGraph
