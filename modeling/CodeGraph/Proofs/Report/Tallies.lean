import CodeGraph.Proofs.Json.Record
import CodeGraph.Report.Log
import Mathlib.Algebra.BigOperators.Group.List.Basic
import Mathlib.Algebra.Ring.Int.Defs

/-!
# What a tally holds

A tally holds each kind that has been counted, once, with the sum of its amounts. What its amounts
sum to is therefore what all counted amounts sum to, and sorting changes neither.
-/

namespace CodeGraph

namespace Tally

variable {tally : Tally} {kind other : String} {amount : Int} {counts : List (String × Int)}

/-- Adds amounts one after the other. -/
def addAll (tally : Tally) (counts : List (String × Int)) : Tally :=
  counts.foldl (fun tally (kind, amount) => tally.add kind amount) tally

/-- What the amounts of a kind sum to. -/
def total (counts : List (String × Int)) (kind : String) : Int :=
  ((counts.filter (·.1 == kind)).map (·.2)).sum

/-- What each kind has come to: nothing for a kind that has not been counted. -/
def amountOf? (counts : List (String × Int)) (kind : String) : Option Int :=
  if kind ∈ Ordered.keys counts then some (total counts kind) else none

/-- Adding to a kind sets it to its amount so far and the new one. -/
theorem add_eq_set (tally : Tally) (kind : String) (amount : Int) :
    tally.add kind amount
      = Ordered.set tally kind (((Ordered.get? tally kind).getD 0) + amount) := by
  induction tally with
  | nil => simp [add, Ordered.set]
  | cons entry rest ih =>
      obtain ⟨first, old⟩ := entry
      by_cases same : first = kind
      · simp [add, Ordered.set, Ordered.get?_cons, same]
      · simp [add, Ordered.set, Ordered.get?_cons, same, Ne.symm same, ih]

theorem total_cons (other kind : String) (amount : Int) (counts : List (String × Int)) :
    total ((other, amount) :: counts) kind
      = (if other = kind then amount else 0) + total counts kind := by
  by_cases same : other = kind <;> simp [total, same]

theorem total_of_not_mem (absent : kind ∉ Ordered.keys counts) : total counts kind = 0 := by
  have none : counts.filter (·.1 == kind) = [] := by
    refine List.filter_eq_nil_iff.mpr fun entry present same => absent ?_
    exact List.mem_map.mpr ⟨entry, present, by simpa using same⟩
  simp [total, none]

theorem addAll_cons (tally : Tally) (kind : String) (amount : Int)
    (counts : List (String × Int)) :
    tally.addAll ((kind, amount) :: counts) = (tally.add kind amount).addAll counts := rfl

/-- Each counted kind gains the sum of its amounts, and no other kind changes. -/
theorem get?_addAll (tally : Tally) (counts : List (String × Int)) (kind : String) :
    Ordered.get? (tally.addAll counts) kind
      = if kind ∈ Ordered.keys counts then
          some ((Ordered.get? tally kind).getD 0 + total counts kind)
        else Ordered.get? tally kind := by
  induction counts generalizing tally with
  | nil => rfl
  | cons entry counts ih =>
      obtain ⟨other, amount⟩ := entry
      have keys_eq : Ordered.keys ((other, amount) :: counts) = other :: Ordered.keys counts := rfl
      rw [addAll_cons, ih, add_eq_set, total_cons, keys_eq]
      by_cases same : other = kind
      · subst same
        rw [Ordered.get?_set_self, if_pos List.mem_cons_self, if_pos rfl]
        split
        · simp [Int.add_assoc]
        next once => simp [total_of_not_mem once]
      · rw [Ordered.get?_set_of_ne _ _ (Ne.symm same)]
        simp [same, Ne.symm same]

theorem nodup_keys_addAll (nodup : (Ordered.keys tally).Nodup) (counts : List (String × Int)) :
    (Ordered.keys (tally.addAll counts)).Nodup := by
  induction counts generalizing tally with
  | nil => exact nodup
  | cons entry counts ih =>
      obtain ⟨kind, amount⟩ := entry
      rw [addAll_cons, add_eq_set]
      exact ih (Ordered.nodup_keys_set nodup)

theorem sorted_perm (tally : Tally) : tally.sorted.Perm tally :=
  sortOn_perm textLe (fun entry : String × Int => entry.1) tally

/-- A sorted tally says the same of each kind. -/
theorem get?_sorted (nodup : (Ordered.keys tally).Nodup) (kind : String) :
    Ordered.get? tally.sorted kind = Ordered.get? tally kind := by
  have perm := tally.sorted_perm
  exact Json.lookup_eq_of_perm perm ((perm.map Prod.fst).nodup_iff.mpr nodup) kind

/-- The tally holds each kind that was counted, once, with what its amounts sum to. -/
structure Totals (tally : Tally) (counts : List (String × Int)) : Prop where
  /-- No kind stands in the tally twice. -/
  nodup : (Ordered.keys tally).Nodup
  /-- Each kind has come to the sum of its amounts. -/
  get?_eq : ∀ kind, Ordered.get? tally kind = amountOf? counts kind

/-- The sorted tally of counts holds their totals. -/
theorem totals_sorted_addAll (counts : List (String × Int)) :
    Totals (addAll [] counts).sorted counts := by
  have none : (Ordered.keys ([] : Tally)).Nodup := List.nodup_nil
  have nodup := nodup_keys_addAll none counts
  refine ⟨((sorted_perm _).map Prod.fst).nodup_iff.mpr nodup, fun kind => ?_⟩
  rw [get?_sorted nodup, get?_addAll, amountOf?]
  simp

/-! ## Tallies of texts -/

theorem ofList_eq (texts : List String) : ofList texts = addAll [] (texts.map (·, 1)) := by
  rw [ofList, addAll, List.foldl_map]

theorem total_ones (texts : List String) (kind : String) :
    total (texts.map (·, 1)) kind = texts.count kind := by
  induction texts with
  | nil => rfl
  | cons text texts ih =>
      rw [List.map_cons, total_cons, ih, List.count_cons]
      by_cases same : text = kind
      · simp [same, Int.add_comm]
      · simp [same]

/-- How often a text occurs: nothing for one that does not. -/
def countOf? (texts : List String) (text : String) : Option Int :=
  if text ∈ texts then some (texts.count text : Int) else none

/-- What each text has come to is how often it occurs. -/
theorem amountOf?_ones (texts : List String) (text : String) :
    amountOf? (texts.map (·, 1)) text = countOf? texts text := by
  rw [amountOf?, countOf?, total_ones]
  simp [Ordered.keys]

/-! ## Sums of tallies -/

/-- What the amounts of all kinds sum to. -/
def sum (tally : Tally) : Int :=
  (Ordered.values tally).sum

theorem sum_add (tally : Tally) (kind : String) (amount : Int) :
    (tally.add kind amount).sum = tally.sum + amount := by
  induction tally with
  | nil => simp [add, sum, Ordered.values]
  | cons entry rest ih =>
      obtain ⟨other, total⟩ := entry
      simp only [sum, Ordered.values] at ih
      rw [add]
      split
      · simp [sum, Ordered.values]
        omega
      · simp [sum, Ordered.values, ih]
        omega

theorem sum_addAll (tally : Tally) (counts : List (String × Int)) :
    (tally.addAll counts).sum = tally.sum + (counts.map (·.2)).sum := by
  induction counts generalizing tally with
  | nil => simp [addAll]
  | cons entry counts ih =>
      obtain ⟨kind, amount⟩ := entry
      rw [addAll_cons, ih, sum_add, List.map_cons, List.sum_cons, Int.add_assoc]

theorem sum_sorted (tally : Tally) : tally.sorted.sum = tally.sum :=
  (tally.sorted_perm.map Prod.snd).sum_eq

/-- A tally of texts sums to how many there are. -/
theorem sum_sorted_ofList (texts : List String) : (ofList texts).sorted.sum = texts.length := by
  rw [sum_sorted, ofList_eq, sum_addAll, List.map_map]
  have ones : (fun entry : String × Int => entry.2) ∘ (·, 1) = fun _ : String => (1 : Int) := rfl
  rw [ones, List.map_const', List.sum_replicate]
  simp [sum, Ordered.values]

end Tally

end CodeGraph
