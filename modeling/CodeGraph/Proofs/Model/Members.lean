import CodeGraph.Model.Basic
import Mathlib.Data.List.Basic

/-!
# What is added once

Names, keys and tags are added at the end of a list unless they are there. So what is there stays
at the front, and nothing is there twice.
-/

namespace CodeGraph

/-- The items with one more at the end, unless it is among them. -/
def addLast {α : Type} [DecidableEq α] (items : List α) (item : α) : List α :=
  if item ∈ items then items else items ++ [item]

section

variable {α : Type} [DecidableEq α] {items more : List α} {item : α}

theorem prefix_addLast (items : List α) (item : α) : items <+: addLast items item := by
  rw [addLast]
  split
  · exact List.prefix_rfl
  · exact List.prefix_append items [item]

theorem addLast_of_not_mem (fresh : item ∉ items) : addLast items item = items ++ [item] :=
  if_neg fresh

theorem nodup_addLast (nodup : items.Nodup) (item : α) : (addLast items item).Nodup := by
  rw [addLast]
  split
  · exact nodup
  next fresh =>
    refine List.nodup_append.mpr ⟨nodup, by simp, fun other present _ added same => ?_⟩
    exact fresh (List.mem_singleton.mp added ▸ same ▸ present)

theorem mem_addLast {other : α} : other ∈ addLast items item ↔ other ∈ items ∨ other = item := by
  rw [addLast]
  split
  next known => exact ⟨.inl, fun present => present.elim id fun same => same ▸ known⟩
  next => simp

theorem mem_foldl_addLast : item ∈ more.foldl addLast items ↔ item ∈ items ∨ item ∈ more := by
  induction more generalizing items with
  | nil => simp
  | cons next more ih => rw [List.foldl_cons, ih, mem_addLast, List.mem_cons, or_assoc]

/-- Items that are all there add nothing. -/
theorem foldl_addLast_of_subset (subset : more ⊆ items) : more.foldl addLast items = items := by
  induction more with
  | nil => rfl
  | cons item more ih =>
      obtain ⟨here, further⟩ := List.cons_subset.mp subset
      rw [List.foldl_cons, addLast, if_pos here, ih further]

/-- What tells items apart is added as they are. -/
theorem map_foldl_addLast {β : Type} [DecidableEq β] {key : α → β}
    (apart : ∀ first ∈ items ++ more, ∀ second ∈ items ++ more,
      key first = key second → first = second) :
    (more.foldl addLast items).map key = (more.map key).foldl addLast (items.map key) := by
  induction more generalizing items with
  | nil => rfl
  | cons item more ih =>
      have key_mem : key item ∈ items.map key ↔ item ∈ items := by
        constructor
        · intro present
          obtain ⟨other, other_mem, same⟩ := List.mem_map.mp present
          exact apart other (by simp [other_mem]) item (by simp) same ▸ other_mem
        · exact List.mem_map_of_mem
      have step : (addLast items item).map key = addLast (items.map key) (key item) := by
        by_cases present : item ∈ items
        · rw [addLast, addLast, if_pos present, if_pos (key_mem.mpr present)]
        · rw [addLast_of_not_mem present, addLast_of_not_mem (mt key_mem.mp present)]
          simp
      rw [List.foldl_cons, List.map_cons, List.foldl_cons, ← step]
      refine ih fun first first_mem second second_mem => apart first ?_ second ?_
      all_goals simp_all [mem_addLast, or_assoc]

theorem prefix_foldl_addLast (items more : List α) : items <+: more.foldl addLast items := by
  induction more generalizing items with
  | nil => exact List.prefix_rfl
  | cons item more ih => exact (prefix_addLast items item).trans (ih _)

theorem nodup_foldl_addLast (nodup : items.Nodup) : (more.foldl addLast items).Nodup := by
  induction more generalizing items with
  | nil => exact nodup
  | cons item more ih => exact ih (nodup_addLast nodup item)

/-- Items that are all new are added as they are. -/
theorem foldl_addLast_of_nodup (nodup : (items ++ more).Nodup) :
    more.foldl addLast items = items ++ more := by
  induction more generalizing items with
  | nil => simp
  | cons item more ih =>
      have fresh : item ∉ items := fun present =>
        (List.nodup_append.mp nodup).2.2 item present item List.mem_cons_self rfl
      rw [List.foldl_cons, addLast_of_not_mem fresh, ih (by simpa using nodup), List.append_assoc]
      rfl

end

/-- An item with a new name is added to items with different names. -/
theorem nodup_map_concat {α β : Type} {name : α → β} {items : List α} {item : α}
    (nodup : (items.map name).Nodup) (fresh : ∀ other ∈ items, name other ≠ name item) :
    ((items ++ [item]).map name).Nodup := by
  rw [List.map_append, List.map_singleton]
  refine List.nodup_append.mpr ⟨nodup, by simp, ?_⟩
  rintro shared present _ added rfl
  obtain ⟨other, other_mem, same⟩ := List.mem_map.mp present
  exact fresh other other_mem (same.trans (List.mem_singleton.mp added))

/-! ## Tags -/

namespace Tag

/-- The keys of tags. -/
def keys (tags : List Tag) : List String :=
  tags.map (·.key)

/-- Every tag has a key that is not empty. -/
def Named (tags : List Tag) : Prop :=
  ∀ tag ∈ tags, tag.key ≠ ""

theorem Named.append {tags more : List Tag} (named : Named tags) (more_named : Named more) :
    Named (tags ++ more) :=
  List.forall_mem_append.mpr ⟨named, more_named⟩

theorem named_option {α : Type} {key : String} (named : key ≠ "") (write : α → String)
    (value : Option α) : Named (value.map fun value => Tag.mk key (write value)).toList := by
  cases value <;> simp [Named, named]

theorem Named.set {tags : List Tag} (named : Named tags) {key : String} (key_named : key ≠ "")
    (value : String) : Named (set tags key value) := by
  induction tags with
  | nil => simpa [Tag.set, Named] using key_named
  | cons tag tags ih =>
      obtain ⟨here, further⟩ := List.forall_mem_cons.mp named
      rw [Tag.set]
      split
      · exact List.forall_mem_cons.mpr ⟨here, further⟩
      · exact List.forall_mem_cons.mpr ⟨here, ih further⟩

theorem Named.foldl_set {tags more : List Tag} (named : Named tags) (more_named : Named more) :
    Named (more.foldl (fun done tag => Tag.set done tag.key tag.value) tags) := by
  induction more generalizing tags with
  | nil => exact named
  | cons tag more ih =>
      obtain ⟨here, further⟩ := List.forall_mem_cons.mp more_named
      exact ih (named.set here tag.value) further

/-- Setting a tag adds its key once. -/
theorem keys_set (tags : List Tag) (key value : String) :
    keys (set tags key value) = addLast (keys tags) key := by
  induction tags with
  | nil => rfl
  | cons tag tags ih =>
      rw [set]
      by_cases same : tag.key = key
      · simp [same, keys, addLast]
      · rw [if_neg (by simpa using same)]
        change tag.key :: keys (set tags key value) = addLast (tag.key :: keys tags) key
        rw [ih, addLast, addLast]
        by_cases present : key ∈ keys tags <;> simp [present, Ne.symm same]

theorem nodup_keys_set {tags : List Tag} (nodup : (keys tags).Nodup) (key value : String) :
    (keys (set tags key value)).Nodup :=
  keys_set tags key value ▸ nodup_addLast nodup key

theorem nodup_keys_foldl_set {tags : List Tag} (nodup : (keys tags).Nodup) (more : List Tag) :
    (keys (more.foldl (fun done tag => set done tag.key tag.value) tags)).Nodup := by
  induction more generalizing tags with
  | nil => exact nodup
  | cons tag more ih => exact ih (nodup_keys_set nodup tag.key tag.value)

/-- A tag that is taken out and put at the end leaves no key twice. -/
theorem nodup_keys_replace {tags : List Tag} (nodup : (keys tags).Nodup) (mark : Tag) :
    (keys (tags.filter (·.key != mark.key) ++ [mark])).Nodup := by
  have kept : (keys (tags.filter (·.key != mark.key))).Nodup :=
    nodup.sublist (List.filter_sublist.map _)
  exact nodup_map_concat kept fun tag tag_mem => by simpa using (List.mem_filter.mp tag_mem).2

/-- Tags without repetitions are tags that are added once. -/
theorem unique_eq (tags : List Tag) : unique tags = tags.foldl addLast [] := by
  simp only [unique, List.contains_iff_mem]
  rfl

theorem nodup_unique (tags : List Tag) : (unique tags).Nodup :=
  unique_eq tags ▸ nodup_foldl_addLast List.nodup_nil

/-- Tags that are united with others stay in front of them. -/
theorem prefix_unique_append {tags : List Tag} (nodup : tags.Nodup) (more : List Tag) :
    tags <+: unique (tags ++ more) := by
  have settled : tags.foldl addLast [] = tags := by
    exact foldl_addLast_of_nodup (List.nil_append tags ▸ nodup)
  rw [unique_eq, List.foldl_append, settled]
  exact prefix_foldl_addLast tags more

end Tag

/-! ## Members -/

namespace Classifier

variable {classifier : Classifier} {fresh : Attribute} {change : Attribute → Attribute}

/-- Changing an attribute adds its name once. -/
theorem names_updateAttribute (kept : ∀ member, (change member).name = member.name) :
    (classifier.updateAttribute fresh change).attributes.map (·.name)
      = addLast (classifier.attributes.map (·.name)) fresh.name := by
  change (updateAttribute.update fresh change classifier.attributes).map (·.name) = _
  induction classifier.attributes with
  | nil => simp [updateAttribute.update, addLast, kept]
  | cons member members ih =>
      rw [updateAttribute.update]
      by_cases same : member.name = fresh.name
      · simp [same, kept, addLast]
      · rw [if_neg (by simpa using same), List.map_cons, ih, List.map_cons, addLast, addLast]
        by_cases present : fresh.name ∈ members.map (·.name) <;>
          simp [present, Ne.symm same]

/-- What holds of all attributes and of a fresh one and survives the change still holds. -/
theorem forall_updateAttribute {holds : Attribute → Prop}
    (old : ∀ member ∈ classifier.attributes, holds member) (new : holds fresh)
    (survives : ∀ member, holds member → holds (change member)) :
    ∀ member ∈ (classifier.updateAttribute fresh change).attributes, holds member := by
  change ∀ member ∈ updateAttribute.update fresh change classifier.attributes, holds member
  generalize classifier.attributes = members at old ⊢
  induction members with
  | nil => simpa [updateAttribute.update] using survives fresh new
  | cons member members ih =>
      obtain ⟨here, further⟩ := List.forall_mem_cons.mp old
      rw [updateAttribute.update]
      split
      · exact List.forall_mem_cons.mpr ⟨survives member here, further⟩
      · exact List.forall_mem_cons.mpr ⟨here, ih further⟩

end Classifier

end CodeGraph
