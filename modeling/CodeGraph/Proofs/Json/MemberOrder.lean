import CodeGraph.Proofs.Json.Reading
import CodeGraph.Proofs.Model.Canonical
import Mathlib.Data.List.Nodup

/-!
# The order of members is not seen in the stable layout

Two values are alike when they differ in the order of their objects' members alone. Alike values
have the same stable layout, and a value is alike to what is read back from its layout. Hence the
stable layouts of two values are the same text exactly if the values are alike.
-/

namespace CodeGraph

namespace Json

/-- The values differ in the order of members alone. -/
inductive Alike : Json → Json → Prop
  | null : Alike .null .null
  | bool (value : Bool) : Alike (.bool value) (.bool value)
  | int (value : Int) : Alike (.int value) (.int value)
  | real (value : Decimal) : Alike (.real value) (.real value)
  | text (value : String) : Alike (.text value) (.text value)
  /-- Arrays are alike if they have alike items in the same places. -/
  | list {items others : List Json} (length_eq : items.length = others.length)
      (alike : ∀ place (low : place < items.length) (low' : place < others.length),
        Alike items[place] others[place]) : Alike (.list items) (.list others)
  /-- Objects are alike if they have the same names and alike values under each name. -/
  | object {members others : List (String × Json)}
      (names : (members.map (·.1)).Perm (others.map (·.1)))
      (alike : ∀ name value other, (name, value) ∈ members → (name, other) ∈ others →
        Alike value other) : Alike (.object members) (.object others)

namespace Alike

variable {first second third : Json}

theorem symm (alike : Alike first second) : Alike second first := by
  induction alike with
  | null => exact .null
  | bool value => exact .bool value
  | int value => exact .int value
  | real value => exact .real value
  | text value => exact .text value
  | list length_eq _ ih => exact .list length_eq.symm fun place low low' => ih place low' low
  | object names _ ih =>
      exact .object names.symm fun name value other value_mem other_mem =>
        ih name other value other_mem value_mem

theorem trans (alike : Alike first second) (alike' : Alike second third) : Alike first third := by
  induction alike generalizing third with
  | null | bool | int | real | text => exact alike'
  | list length_eq _ ih =>
      cases alike' with
      | list length_eq' further =>
          refine .list (length_eq.trans length_eq') fun place low low' => ?_
          exact ih place low (length_eq ▸ low) (further place (length_eq ▸ low) low')
  | object names _ ih =>
      cases alike' with
      | object names' further =>
          refine .object (names.trans names') fun name value other value_mem other_mem => ?_
          have known : name ∈ _ := names.mem_iff.mp (List.mem_map_of_mem (f := (·.1)) value_mem)
          obtain ⟨⟨_, middle⟩, middle_mem, rfl⟩ := List.mem_map.mp known
          exact ih _ value middle value_mem middle_mem
            (further _ middle other middle_mem other_mem)

end Alike

variable {value other : Json}

/-- A member with a name is the only one where names are different. -/
theorem value_eq_of_names {α : Type} {members : List (String × α)}
    (names : (members.map (·.1)).Nodup) {name : String} {first second : α}
    (first_mem : (name, first) ∈ members) (second_mem : (name, second) ∈ members) :
    first = second :=
  (Prod.mk.inj (List.inj_on_of_nodup_map names first_mem second_mem rfl)).2

/-- Sorting members by name leaves a value alike. -/
theorem Plain.alike_sorted (plain : Plain value) : Alike value.sorted value := by
  induction plain with
  | null => exact .null
  | bool value => exact .bool value
  | int value => exact .int value
  | text value => exact .text value
  | list _ ih =>
      rw [sorted, sortedItems_eq_map]
      refine .list (List.length_map _) fun place low low' => ?_
      rw [List.getElem_map]
      exact ih _ (List.getElem_mem low')
  | @object members names _ ih =>
      rw [sorted, sortedMembers_eq_map, mergeSort_map_value]
      have perm := List.mergeSort_perm members nameOrder
      refine .object ?_ fun name value other value_mem other_mem => ?_
      · rw [List.map_map]
        exact perm.map _
      · obtain ⟨⟨_, original⟩, original_mem, same⟩ := List.mem_map.mp value_mem
        obtain ⟨rfl, rfl⟩ := Prod.mk.inj same
        obtain rfl := value_eq_of_names names (perm.mem_iff.mp original_mem) other_mem
        exact ih _ other_mem

/-- Members with different names that have the same values under each name have one sorted list. -/
theorem mergeSort_eq_of_names {α β : Type} (change : α → β) {members others : List (String × α)}
    (names : (members.map (·.1)).Nodup) (perm : (members.map (·.1)).Perm (others.map (·.1)))
    (same : ∀ name value other, (name, value) ∈ members → (name, other) ∈ others →
      change value = change other) :
    (members.map fun member => (member.1, change member.2)).mergeSort nameOrder
      = (others.map fun member => (member.1, change member.2)).mergeSort nameOrder := by
  let changed (members : List (String × α)) := members.map fun member => (member.1, change member.2)
  have names_changed : ∀ members, (changed members).map (·.1) = members.map (·.1) :=
    fun members => List.map_map ..
  have nodup : ((changed members).map (·.1)).Nodup := names_changed members ▸ names
  have nodup' : ((changed others).map (·.1)).Nodup :=
    names_changed others ▸ perm.nodup_iff.mp names
  have changed_perm : (changed members).Perm (changed others) := by
    refine (List.perm_ext_iff_of_nodup nodup.of_map nodup'.of_map).mpr fun entry => ?_
    simp only [changed, List.mem_map]
    constructor
    · rintro ⟨⟨name, value⟩, value_mem, rfl⟩
      have known : name ∈ others.map (·.1) := perm.mem_iff.mp (List.mem_map_of_mem value_mem)
      obtain ⟨⟨_, other⟩, other_mem, rfl⟩ := List.mem_map.mp known
      exact ⟨_, other_mem, by rw [same _ value other value_mem other_mem]⟩
    · rintro ⟨⟨name, other⟩, other_mem, rfl⟩
      have known : name ∈ members.map (·.1) := perm.mem_iff.mpr (List.mem_map_of_mem other_mem)
      obtain ⟨⟨_, value⟩, value_mem, rfl⟩ := List.mem_map.mp known
      exact ⟨_, value_mem, by rw [same _ value other value_mem other_mem]⟩
  have apart : ∀ left ∈ changed members, ∀ right ∈ changed members,
      left.1 = right.1 → left = right :=
    fun left left_mem right right_mem => List.inj_on_of_nodup_map nodup left_mem right_mem
  exact textLe_keyOrder.sortOn_eq_of_perm changed_perm apart

/-- Alike values have the same stable layout. -/
theorem Alike.renderAt_eq (alike : Alike value other) (plain : Plain value) (plain' : Plain other)
    (level : Nat) : renderAt level value = renderAt level other := by
  induction alike generalizing level with
  | null | bool | int | real | text => rfl
  | list length_eq _ ih =>
      cases plain with
      | list plain =>
          cases plain' with
          | list plain' =>
              rw [renderAt, renderAt, renderItems_eq_map, renderItems_eq_map]
              refine congrArg (block '[' ']' level) ?_
              refine List.ext_getElem (by simpa using length_eq) fun place low low' => ?_
              rw [List.getElem_map, List.getElem_map]
              rw [List.length_map] at low low'
              exact ih place low low' (plain _ (List.getElem_mem low))
                (plain' _ (List.getElem_mem low')) (level + 1)
  | object perm _ ih =>
      cases plain with
      | object names plain =>
          cases plain' with
          | object _ plain' =>
              have sorted_eq := mergeSort_eq_of_names (renderAt (level + 1)) names perm
                fun name value other value_mem other_mem =>
                  ih name value other value_mem other_mem (plain _ value_mem) (plain' _ other_mem) _
              rw [renderAt, renderAt, renderMembers_eq_map, renderMembers_eq_map, sorted_eq]

/-- The stable layout says all of a value but the order of members: what is read back from it is
alike, and two values have the same layout exactly if they are alike. -/
theorem render_is_canonical (value other : Json) (plain : Plain value) (plain' : Plain other) :
    (∃ read, parse? value.render = some read ∧ Alike read value) ∧
      (value.render = other.render ↔ Alike value other) := by
  have read := parse?_render plain
  have read' := parse?_render plain'
  refine ⟨⟨value.sorted, read, plain.alike_sorted⟩, fun same => ?_, fun alike => ?_⟩
  · have sorted_eq : value.sorted = other.sorted := by
      rw [same, read', Option.some.injEq] at read
      exact read.symm
    exact plain.alike_sorted.symm.trans (sorted_eq ▸ plain'.alike_sorted)
  · rw [render, render, alike.renderAt_eq plain plain' 0]

/-- A book with its title first. -/
def book : Json :=
  .object [("title", .text "\x22\\\n\x01"), ("parts", .list [.int (-12), .object [], .bool true])]

/-- The book with its parts first. -/
def bookByParts : Json :=
  .object [("parts", .list [.int (-12), .object [], .bool true]), ("title", .text "\x22\\\n\x01")]

/-- The books are alike, so they have the same text, and what is read back is alike to them. -/
theorem render_book :
    (Plain book ∧ Plain bookByParts) ∧ book.render = bookByParts.render ∧ Alike book bookByParts ∧
      ∃ read, parse? book.render = some read ∧ Alike read book := by
  have parts : Plain (.list [.int (-12), .object [], .bool true]) := by
    refine .list ?_
    simp only [List.mem_cons, List.not_mem_nil, or_false, forall_eq_or_imp, forall_eq]
    exact ⟨.int _, .object List.nodup_nil (by simp), .bool true⟩
  have plain : Plain book := .object (by decide) (by simp [parts, Plain.text])
  have plain' : Plain bookByParts := .object (by decide) (by simp [parts, Plain.text])
  have alike : Alike book bookByParts := by
    refine .object (.swap ..) fun name value other value_mem other_mem => ?_
    simp only [List.mem_cons, List.not_mem_nil, or_false, Prod.mk.injEq] at value_mem other_mem
    obtain ⟨rfl, rfl⟩ | ⟨rfl, rfl⟩ := value_mem <;> obtain ⟨same, rfl⟩ | ⟨same, rfl⟩ := other_mem
    · exact absurd same (by decide)
    · exact .text _
    · exact parts.alike_sorted.symm.trans parts.alike_sorted
    · exact absurd same (by decide)
  obtain ⟨read, layout_iff⟩ := render_is_canonical book bookByParts plain plain'
  exact ⟨⟨plain, plain'⟩, layout_iff.mpr alike, alike, read⟩

end Json

end CodeGraph
