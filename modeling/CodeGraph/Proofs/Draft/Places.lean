import CodeGraph.Draft.Declaration
import CodeGraph.Draft.Draft
import Mathlib.Data.Prod.Lex
import Mathlib.Data.String.Basic

/-!
# The order of places

Places are ordered by file, line and column. A missing number counts as zero, so places whose
numbers count from one are told apart by their rank, and of any such places one is the first,
whatever order they come in.
-/

namespace CodeGraph

open Syntax

namespace SourceRef

/-- What places are ordered by. -/
def rank (place : SourceRef) : Lex (String × Lex (Int × Int)) :=
  toLex (place.file, toLex (place.line.getD 0, place.col.getD 0))

/-- A place comes before another one when its rank is less. -/
theorem isBefore_iff (left right : SourceRef) :
    left.isBefore right = true ↔ left.rank < right.rank := by
  simp only [isBefore, sortKey, rank, Prod.Lex.toLex_lt_toLex]
  by_cases file : left.file = right.file
  · by_cases line : left.line.getD 0 = right.line.getD 0
    · simp only [file, line, bne_self_eq_false, Bool.false_eq_true, if_false, lt_self_iff_false,
        true_and, false_or]
      exact decide_eq_true_iff
    · simp only [file, bne_self_eq_false, Bool.false_eq_true, if_false, bne_iff_ne, ne_eq, line,
        not_false_eq_true, if_true, lt_self_iff_false, true_and, false_or, false_and, or_false]
      exact decide_eq_true_iff
  · simp only [bne_iff_ne, ne_eq, file, not_false_eq_true, if_true, false_and, or_false]
    exact decide_eq_true_iff

/-- The numbers of the place, where there are any, count from one. -/
structure CountsFromOne (place : SourceRef) : Prop where
  line_pos : ∀ line ∈ place.line, 1 ≤ line
  col_pos : ∀ col ∈ place.col, 1 ≤ col

/-- Numbers that count from one differ from a missing one. -/
theorem eq_of_getD_eq {left right : Option Int} (left_pos : ∀ number ∈ left, 1 ≤ number)
    (right_pos : ∀ number ∈ right, 1 ≤ number) (same : left.getD 0 = right.getD 0) :
    left = right := by
  cases left with
  | none =>
      cases right with
      | none => rfl
      | some right =>
          have pos := right_pos right rfl
          have zero : (0 : Int) = right := same
          omega
  | some left =>
      cases right with
      | none =>
          have pos := left_pos left rfl
          have zero : left = 0 := same
          omega
      | some right => exact congrArg some same

/-- Places that count from one are told apart by their rank. -/
theorem CountsFromOne.eq_of_rank_eq {left right : SourceRef} (left_counts : left.CountsFromOne)
    (right_counts : right.CountsFromOne) (same : left.rank = right.rank) : left = right := by
  obtain ⟨file, numbers⟩ := Prod.mk.inj same
  obtain ⟨line, col⟩ := Prod.mk.inj numbers
  obtain ⟨leftFile, leftLine, leftCol⟩ := left
  obtain ⟨rightFile, rightLine, rightCol⟩ := right
  obtain rfl : leftFile = rightFile := file
  obtain rfl := eq_of_getD_eq left_counts.line_pos right_counts.line_pos line
  obtain rfl := eq_of_getD_eq left_counts.col_pos right_counts.col_pos col
  rfl

/-- The place of a node counts from one. -/
theorem countsFromOne_place (source : Source) (node : Node) :
    (source.place node).CountsFromOne := by
  constructor
  · rintro line ⟨⟩
    rw [Source.lineOf]
    omega
  · rintro col ⟨⟩
    rw [Source.columnOf]
    omega

/-! ## The first of several places -/

/-- A further place never makes the first one later. -/
theorem exists_earliest (place : SourceRef) (new : Option SourceRef) :
    ∃ first, earliest (some place) new = some first ∧ first.rank ≤ place.rank := by
  cases new with
  | none => exact ⟨place, rfl, le_rfl⟩
  | some new =>
      rw [earliest]
      split
      next before => exact ⟨new, rfl, ((isBefore_iff new place).mp before).le⟩
      next => exact ⟨place, rfl, le_rfl⟩

@[simp]
theorem earliest_none (old : Option SourceRef) : earliest old none = old := by
  cases old <;> rfl

/-- Of two places that count from one, it does not matter which is taken in first. -/
theorem earliest_comm {first second : Option SourceRef} (old : Option SourceRef)
    (first_counts : ∀ place ∈ first, place.CountsFromOne)
    (second_counts : ∀ place ∈ second, place.CountsFromOne) :
    earliest (earliest old first) second = earliest (earliest old second) first := by
  cases first with
  | none => simp
  | some first =>
      cases second with
      | none => simp
      | some second =>
          -- Places with one rank are the same, so the ranks settle which one stays.
          have same : first.rank = second.rank → first = second :=
            (first_counts first rfl).eq_of_rank_eq (second_counts second rfl)
          cases old with
          | none =>
              simp only [earliest, isBefore_iff]
              grind
          | some old =>
              simp only [earliest, isBefore_iff]
              grind

/-- The place is the first among others, and it is missing only where there are none. -/
structure IsFirst (places : List SourceRef) (first : Option SourceRef) : Prop where
  /-- It is one of them. -/
  mem : ∀ place ∈ first, place ∈ places
  /-- None of them comes before it. -/
  le : ∀ other ∈ places, ∃ place ∈ first, place.rank ≤ other.rank

variable {places others : List SourceRef} {first : Option SourceRef}

theorem isFirst_toList (first : Option SourceRef) : IsFirst first.toList first := by
  cases first with
  | none => exact ⟨by simp, by simp⟩
  | some place => exact ⟨by simp, by simp⟩

/-- Taking in a further place keeps the first one. -/
theorem IsFirst.earliest (isFirst : IsFirst places first) (new : Option SourceRef) :
    IsFirst (places ++ new.toList) (earliest first new) := by
  obtain ⟨mem, le⟩ := isFirst
  cases first with
  | none =>
      have none_there : places = [] := by
        refine List.eq_nil_iff_forall_not_mem.mpr fun other present => ?_
        obtain ⟨place, absurd_mem, _⟩ := le other present
        exact nomatch absurd_mem
      subst none_there
      exact isFirst_toList new
  | some place =>
      cases new with
      | none => simpa [SourceRef.earliest] using ⟨mem, le⟩
      | some new =>
          have le_place : ∀ other ∈ places, place.rank ≤ other.rank := by
            intro other present
            obtain ⟨_, ⟨rfl⟩, bound⟩ := le other present
            exact bound
          rw [SourceRef.earliest]
          split
          next before =>
            have less := (isBefore_iff new place).mp before
            refine ⟨by simp, fun other present => ⟨new, rfl, ?_⟩⟩
            rcases List.mem_append.mp present with early | here
            · exact less.le.trans (le_place other early)
            · rw [List.mem_singleton.mp here]
          next late =>
            have bound : place.rank ≤ new.rank :=
              le_of_not_gt fun less => late ((isBefore_iff new place).mpr less)
            refine ⟨fun other other_mem => ?_, fun other present => ⟨place, rfl, ?_⟩⟩
            · exact List.mem_append_left _ (mem other other_mem)
            · rcases List.mem_append.mp present with early | here
              · exact le_place other early
              · rwa [List.mem_singleton.mp here]

end SourceRef

end CodeGraph
