import CodeGraph.Model.Decode
import CodeGraph.Proofs.Json.Reading

/-!
# Records in JSON

A record is written as an object with one member for each field that has a value. The fields are
found again by name wherever the members stand, so nothing depends on their order.
-/

namespace CodeGraph.Json

attribute [simp] Plain.null Plain.bool Plain.int Plain.text

/-- The members of the fields that have a value. -/
def present (fields : List (String × Option Json)) : List (String × Json) :=
  fields.flatMap fun field => optional field.1 field.2

/-- The object of the fields that have a value. -/
def record (fields : List (String × Option Json)) : Json :=
  .object (present fields)

theorem names_present (fields : List (String × Option Json)) :
    ((present fields).map (·.1)).Sublist (fields.map (·.1)) := by
  induction fields with
  | nil => exact .slnil
  | cons field fields ih =>
      obtain ⟨name, value⟩ := field
      rw [present, List.flatMap_cons, List.map_append, List.map_cons]
      cases value with
      | none => exact ih.cons name
      | some value => exact ih.cons_cons name

/-- A field has no value or a plain one. -/
def PlainField (value : Option Json) : Prop :=
  ∀ json ∈ value, Plain json

@[simp]
theorem plainField_some {value : Json} : PlainField (some value) ↔ Plain value := by
  simp [PlainField]

@[simp]
theorem plainField_map {α : Type} {write : α → Json} (plain : ∀ value, Plain (write value))
    (value : Option α) : PlainField (value.map write) := by
  intro json written
  obtain ⟨value, _, rfl⟩ := Option.map_eq_some_iff.mp written
  exact plain value

/-- A record with different field names and plain values is plain. -/
theorem plain_record {fields : List (String × Option Json)} (names : (fields.map (·.1)).Nodup)
    (plain : ∀ field ∈ fields, PlainField field.2) : Plain (record fields) := by
  refine .object (names.sublist (names_present fields)) ?_
  intro member written
  obtain ⟨⟨name, value⟩, listed, written⟩ := List.mem_flatMap.mp written
  cases value with
  | none => exact absurd written List.not_mem_nil
  | some value =>
      obtain rfl := List.mem_singleton.mp written
      exact plain _ listed value rfl

theorem lookup_cons {α : Type} (key other : String) (value : α) (members : List (String × α)) :
    ((other, value) :: members).lookup key
      = if key = other then some value else members.lookup key :=
  Ordered.get?_cons other key value members

/-- The value of a key does not depend on the order of members with different names. -/
theorem lookup_eq_of_perm {α : Type} {first second : List (String × α)} (perm : first.Perm second)
    (names : (first.map (·.1)).Nodup) (key : String) : first.lookup key = second.lookup key := by
  induction perm with
  | nil => rfl
  | cons entry _ ih =>
      obtain ⟨name, value⟩ := entry
      rw [lookup_cons, lookup_cons, ih (List.nodup_cons.mp names).2]
  | swap left right rest =>
      obtain ⟨leftName, leftValue⟩ := left
      obtain ⟨rightName, rightValue⟩ := right
      have ne : rightName ≠ leftName := by
        rintro rfl
        simp at names
      simp only [lookup_cons]
      by_cases same : key = leftName
      · rw [if_pos same, if_pos same, if_neg (same ▸ ne.symm)]
      · rw [if_neg same, if_neg same]
  | trans front _ first_ih second_ih =>
      rw [first_ih names, second_ih ((front.map _).nodup_iff.mp names)]

theorem lookup_eq_none {α : Type} {members : List (String × α)} {name : String}
    (absent : name ∉ members.map (·.1)) : members.lookup name = none := by
  refine List.lookup_eq_none_iff.mpr fun member listed => bne_iff_ne.mpr ?_
  rintro rfl
  exact absent (List.mem_map_of_mem listed)

theorem lookup_map_value {α β : Type} (change : α → β) (members : List (String × α))
    (key : String) :
    (members.map fun member => (member.1, change member.2)).lookup key
      = (members.lookup key).map change := by
  induction members with
  | nil => rfl
  | cons member members ih =>
      obtain ⟨name, value⟩ := member
      rw [List.map_cons, lookup_cons, lookup_cons, ih]
      split <;> rfl

/-- Sorting members keeps their names apart. -/
theorem names_sorted {members : List (String × Json)} (names : (members.map (·.1)).Nodup) :
    (((sortedMembers members).mergeSort nameOrder).map (·.1)).Nodup := by
  have kept : (sortedMembers members).map (·.1) = members.map (·.1) := by
    rw [sortedMembers_eq_map, List.map_map]
    rfl
  exact ((List.mergeSort_perm _ nameOrder).map _).nodup_iff.mpr (kept ▸ names)

/-- Members of a sorted object are found as before, their values sorted. -/
theorem lookup_sorted {members : List (String × Json)} (names : (members.map (·.1)).Nodup)
    (name : String) :
    ((sortedMembers members).mergeSort nameOrder).lookup name
      = (members.lookup name).map sorted := by
  rw [lookup_eq_of_perm (List.mergeSort_perm _ nameOrder) (names_sorted names) name,
    sortedMembers_eq_map, lookup_map_value]

theorem lookup_present {fields : List (String × Option Json)} (names : (fields.map (·.1)).Nodup)
    {name : String} {value : Option Json} (listed : (name, value) ∈ fields) :
    (present fields).lookup name = value := by
  induction fields with
  | nil => exact absurd listed List.not_mem_nil
  | cons field fields ih =>
      obtain ⟨first, firstValue⟩ := field
      obtain ⟨fresh, names⟩ := List.nodup_cons.mp names
      rw [present, List.flatMap_cons, List.lookup_append]
      rcases List.mem_cons.mp listed with same | later
      · obtain ⟨rfl, rfl⟩ := Prod.mk.inj same
        rw [← present, lookup_eq_none fun known => fresh ((names_present fields).subset known)]
        cases value <;> simp [optional]
      · have ne : name ≠ first := by
          rintro rfl
          exact fresh (List.mem_map_of_mem (f := (·.1)) later)
        rw [← present, ih names later]
        cases firstValue <;> simp [optional, lookup_cons, ne]

variable {fields : List (String × Option Json)}

/-- A field is found by its name among the sorted members of a record. -/
theorem lookup_sorted_present (names : (fields.map (·.1)).Nodup) {name : String}
    {value : Option Json} (listed : (name, value) ∈ fields) :
    ((sortedMembers (present fields)).mergeSort nameOrder).lookup name = value.map sorted := by
  rw [lookup_sorted (names.sublist (names_present fields)), lookup_present names listed]

theorem member?_record (names : (fields.map (·.1)).Nodup) {name : String} {value : Option Json}
    (listed : (name, value) ∈ fields) :
    (record fields).sorted.member? name = value.map sorted := by
  rw [record, sorted, member?, lookup_sorted_present names listed]

theorem field?_record (names : (fields.map (·.1)).Nodup) {name : String} {value : Option Json}
    (listed : (name, value) ∈ fields) (not_null : value ≠ some .null) :
    (record fields).sorted.field? name = value.map sorted := by
  rw [field?, member?_record names listed]
  cases value with
  | none => rfl
  | some value =>
      cases value with
      | null => exact absurd rfl not_null
      | _ => rfl

theorem fieldText?_record (names : (fields.map (·.1)).Nodup) (name : String) (text : Option String)
    (listed : (name, text.map .text) ∈ fields) :
    (record fields).sorted.fieldText? name = text := by
  rw [fieldText?, field?_record names listed (by cases text <;> simp)]
  cases text <;> rfl

theorem fieldInt?_record (names : (fields.map (·.1)).Nodup) (name : String) (number : Option Int)
    (listed : (name, number.map .int) ∈ fields) :
    (record fields).sorted.fieldInt? name = number := by
  rw [fieldInt?, field?_record names listed (by cases number <;> simp)]
  cases number <;> rfl

theorem fieldBool?_record (names : (fields.map (·.1)).Nodup) (name : String) (truth : Option Bool)
    (listed : (name, truth.map .bool) ∈ fields) :
    (record fields).sorted.fieldBool? name = truth := by
  rw [fieldBool?, field?_record names listed (by cases truth <;> simp)]
  cases truth <;> rfl

theorem fieldItems_record (names : (fields.map (·.1)).Nodup) {name : String} {items : List Json}
    (listed : (name, some (.list items)) ∈ fields) :
    (record fields).sorted.fieldItems name = items.map sorted := by
  rw [fieldItems, field?_record names listed (by simp), Option.map_some, Option.map_some, sorted,
    sortedItems_eq_map]
  rfl

/-! ## What is written and read back -/

/-- Values of a type are written as plain JSON, and are read back from it with sorted members. -/
structure RoundTrip {α : Type} (write : α → Json) (read : Json → Option α) : Prop where
  /-- What is written is plain. -/
  plain : ∀ value, Plain (write value)
  /-- It is an object, and so not the null value. -/
  not_null : ∀ value, write value ≠ .null
  /-- It is read back. -/
  read_write : ∀ value, read (write value).sorted = some value

namespace RoundTrip

variable {α : Type} {write : α → Json} {read : Json → Option α}

theorem plain_list (trip : RoundTrip write read) (values : List α) :
    Plain (.list (values.map write)) := by
  refine .list fun item listed => ?_
  obtain ⟨value, _, rfl⟩ := List.mem_map.mp listed
  exact trip.plain value

theorem mapM_map (trip : RoundTrip write read) (values : List α) :
    ((values.map write).map sorted).mapM read = some values := by
  induction values with
  | nil => rfl
  | cons value values ih =>
      rw [List.map_cons, List.map_cons, List.mapM_cons, trip.read_write, ih]
      rfl

/-- A list in a field is read back. -/
theorem mapM_fieldItems (trip : RoundTrip write read) (names : (fields.map (·.1)).Nodup)
    (name : String) (values : List α)
    (listed : (name, some (.list (values.map write))) ∈ fields) :
    ((record fields).sorted.fieldItems name).mapM read = some values := by
  rw [fieldItems_record names listed, trip.mapM_map]

/-- A value in a field is read back, if there is one. -/
theorem bind_field? (trip : RoundTrip write read) (names : (fields.map (·.1)).Nodup)
    (name : String) (value : Option α) (listed : (name, value.map write) ∈ fields) :
    ((record fields).sorted.field? name).bind read = value := by
  have not_null : value.map write ≠ some .null := by
    cases value with
    | none => simp
    | some value => simpa using trip.not_null value
  rw [field?_record names listed not_null]
  cases value with
  | none => rfl
  | some value => exact trip.read_write value

/-- Records are read back if their fields are. -/
theorem of_record {fields : α → List (String × Option Json)}
    (written : ∀ value, write value = record (fields value))
    (names : ∀ value, ((fields value).map (·.1)).Nodup)
    (plain : ∀ value, ∀ field ∈ fields value, PlainField field.2)
    (read_record : ∀ value, read (record (fields value)).sorted = some value) :
    RoundTrip write read where
  plain value := written value ▸ plain_record (names value) (plain value)
  not_null value := by simp [written value, record]
  read_write value := by rw [written value, read_record]

end RoundTrip

end CodeGraph.Json
