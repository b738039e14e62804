/-!
# The order of texts

Texts are ordered by code points, pairs of texts lexicographically. Sorting by a key is stable:
items with the same key keep their order.
-/

namespace CodeGraph

/-- Order of texts by code points. -/
def textLe (left right : String) : Bool :=
  decide (left ≤ right)

/-- Lexicographic order of two texts. -/
def pairLe (left right : String × String) : Bool :=
  if left.1 == right.1 then textLe left.2 right.2 else textLe left.1 right.1

/-- Sorts by a key, stably. -/
def sortOn {α κ : Type} (le : κ → κ → Bool) (key : α → κ) (items : List α) : List α :=
  items.mergeSort fun left right => le (key left) (key right)

theorem textLe_total (left right : String) : (textLe left right || textLe right left) = true := by
  simpa [textLe] using String.le_total left right

theorem textLe_trans (left middle right : String) (first : textLe left middle = true)
    (second : textLe middle right = true) : textLe left right = true := by
  simp only [textLe, decide_eq_true_eq] at *
  exact String.le_trans first second

theorem textLe_antisymm {left right : String} (first : textLe left right = true)
    (second : textLe right left = true) : left = right := by
  simp only [textLe, decide_eq_true_eq] at *
  exact String.le_antisymm first second

theorem pairLe_total (left right : String × String) :
    (pairLe left right || pairLe right left) = true := by
  by_cases same : left.1 = right.1
  · simpa [pairLe, same] using textLe_total left.2 right.2
  · simpa [pairLe, same, Ne.symm same] using textLe_total left.1 right.1

theorem pairLe_trans (left middle right : String × String) (first : pairLe left middle = true)
    (second : pairLe middle right = true) : pairLe left right = true := by
  by_cases low : left.1 = middle.1 <;> by_cases high : middle.1 = right.1
  · simp only [pairLe, low, high, beq_self_eq_true, ↓reduceIte] at *
    exact textLe_trans _ _ _ first second
  · simpa [pairLe, low, high] using second
  · have apart : left.1 ≠ right.1 := high ▸ low
    simpa [pairLe, low, high, apart] using first
  · simp only [pairLe, low, high, beq_iff_eq, ↓reduceIte] at first second
    have apart : left.1 ≠ right.1 := fun same =>
      low (textLe_antisymm first (same ▸ second))
    simpa [pairLe, apart] using textLe_trans _ _ _ first second

theorem pairLe_antisymm {left right : String × String} (first : pairLe left right = true)
    (second : pairLe right left = true) : left = right := by
  by_cases same : left.1 = right.1
  · simp only [pairLe, same, beq_self_eq_true, ↓reduceIte] at first second
    exact Prod.ext same (textLe_antisymm first second)
  · simp only [pairLe, same, Ne.symm same, beq_iff_eq, ↓reduceIte] at first second
    exact absurd (textLe_antisymm first second) same

section Sorting

variable {α κ : Type} (le : κ → κ → Bool) (key : α → κ)

/-- Sorting keeps every item. -/
theorem sortOn_perm (items : List α) : (sortOn le key items).Perm items :=
  List.mergeSort_perm items _

@[simp]
theorem length_sortOn (items : List α) : (sortOn le key items).length = items.length :=
  (sortOn_perm le key items).length_eq

@[simp]
theorem mem_sortOn {item : α} {items : List α} : item ∈ sortOn le key items ↔ item ∈ items :=
  (sortOn_perm le key items).mem_iff

/-- The items of a sorted list follow each other in the order of their keys. -/
theorem pairwise_sortOn (trans : ∀ a b c, le a b = true → le b c = true → le a c = true)
    (total : ∀ a b, (le a b || le b a) = true) (items : List α) :
    (sortOn le key items).Pairwise fun left right => le (key left) (key right) = true :=
  List.pairwise_mergeSort (fun left middle right => trans (key left) (key middle) (key right))
    (fun left right => total (key left) (key right)) items

end Sorting

end CodeGraph
