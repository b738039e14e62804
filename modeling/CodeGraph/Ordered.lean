/-!
# Tables in insertion order

A table keeps its keys in the order in which they were set first. Setting a key again changes its
value and leaves its place.
-/

namespace CodeGraph

/-- A table in insertion order. -/
abbrev Ordered (α : Type) := List (String × α)

namespace Ordered

variable {α : Type}

/-- Sets a key: in its old place if it is present, at the end otherwise. -/
def set (table : Ordered α) (key : String) (value : α) : Ordered α :=
  match table with
  | [] => [(key, value)]
  | (other, old) :: rest =>
      if other == key then (key, value) :: rest else (other, old) :: set rest key value

/-- The value of a key. -/
def get? (table : Ordered α) (key : String) : Option α :=
  table.lookup key

/-- The keys in order. -/
def keys (table : Ordered α) : List String :=
  table.map (·.1)

/-- The values in order. -/
def values (table : Ordered α) : List α :=
  table.map (·.2)

/-- The table with the entries of another one set in order. -/
def setAll (table entries : Ordered α) : Ordered α :=
  entries.foldl (fun table (key, value) => set table key value) table

@[simp]
theorem get?_nil (key : String) : get? ([] : Ordered α) key = none := rfl

theorem get?_cons (other key : String) (value : α) (table : Ordered α) :
    get? ((other, value) :: table) key = if key = other then some value else get? table key := by
  by_cases same : key = other
  · simp [get?, same]
  · simp [get?, List.lookup_cons, beq_eq_false_iff_ne.mpr same, same]

/-- A key that has been set has the value that it was set to. -/
@[simp]
theorem get?_set_self (table : Ordered α) (key : String) (value : α) :
    get? (set table key value) key = some value := by
  induction table with
  | nil => simp [set, get?_cons]
  | cons entry rest ih =>
      obtain ⟨other, old⟩ := entry
      by_cases same : other = key
      · simp [set, same, get?_cons]
      · simp [set, same, get?_cons, Ne.symm same, ih]

/-- Setting a key leaves the values of all others. -/
theorem get?_set_of_ne (table : Ordered α) {key other : String} (value : α) (ne : other ≠ key) :
    get? (set table key value) other = get? table other := by
  induction table with
  | nil => simp [set, get?_cons, ne]
  | cons entry rest ih =>
      obtain ⟨first, old⟩ := entry
      by_cases same : first = key
      · simp [set, same, get?_cons, ne]
      · simp [set, same, get?_cons, ih]

/-- Setting a key adds it at the end unless it is present. -/
theorem keys_set (table : Ordered α) (key : String) (value : α) :
    keys (set table key value) = if key ∈ keys table then keys table else keys table ++ [key] := by
  induction table with
  | nil => simp [set, keys]
  | cons entry rest ih =>
      obtain ⟨other, old⟩ := entry
      by_cases same : other = key
      · simp [set, same, keys]
      · have tail : keys (set ((other, old) :: rest) key value)
            = other :: keys (set rest key value) := by simp [set, same, keys]
        rw [tail, ih]
        by_cases present : key ∈ keys rest <;> simp_all [keys, Ne.symm same]

/-- The keys of a table are those that have a value. -/
theorem isSome_get?_iff {table : Ordered α} {key : String} :
    (get? table key).isSome ↔ key ∈ keys table := by
  induction table with
  | nil => simp [keys]
  | cons entry rest ih =>
      obtain ⟨other, value⟩ := entry
      by_cases same : key = other
      · simp [get?_cons, same, keys]
      · simpa [get?_cons, same, keys] using ih

/-- An entry of a table after a key is set is the new one or was there before. -/
theorem mem_of_mem_set {table : Ordered α} {key : String} {value : α} {entry : String × α}
    (present : entry ∈ set table key value) : entry = (key, value) ∨ entry ∈ table := by
  induction table with
  | nil => exact .inl (by simpa [set] using present)
  | cons first rest ih =>
      rw [set] at present
      split at present
      · rcases List.mem_cons.mp present with rfl | later
        · exact .inl rfl
        · exact .inr (List.mem_cons_of_mem first later)
      · rcases List.mem_cons.mp present with rfl | later
        · exact .inr List.mem_cons_self
        · exact (ih later).imp id (List.mem_cons_of_mem first)

/-- The value of a key stands in the table. -/
theorem mem_of_get? {table : Ordered α} {key : String} {value : α}
    (present : get? table key = some value) : (key, value) ∈ table := by
  obtain ⟨front, back, rfl, _⟩ := List.lookup_eq_some_iff.mp present
  simp

/-- A key of two tables has its value in the first one that has it. -/
theorem get?_append (table entries : Ordered α) (key : String) :
    get? (table ++ entries) key = (get? table key).or (get? entries key) :=
  List.lookup_append

/-! ## Tables without repeated keys -/

/-- Setting an absent key adds an entry at the end. -/
theorem set_of_absent {table : Ordered α} {key : String} (absent : key ∉ keys table) (value : α) :
    set table key value = table ++ [(key, value)] := by
  induction table with
  | nil => rfl
  | cons entry rest ih =>
      obtain ⟨other, old⟩ := entry
      have ne : other ≠ key := by
        rintro rfl
        exact absent (by simp [keys])
      have later : key ∉ keys rest := fun present => absent (List.mem_cons_of_mem other present)
      simp [set, ne, ih later]

/-- Setting keys that are all new adds the entries at the end. -/
theorem setAll_of_nodup {table entries : Ordered α} (nodup : (keys (table ++ entries)).Nodup) :
    setAll table entries = table ++ entries := by
  induction entries generalizing table with
  | nil => simp [setAll]
  | cons entry entries ih =>
      obtain ⟨key, value⟩ := entry
      have absent : key ∉ keys table := by
        rw [keys, List.map_append, List.map_cons, List.nodup_append] at nodup
        exact fun present => nodup.2.2 key present key List.mem_cons_self rfl
      have step : setAll table ((key, value) :: entries) = setAll (set table key value) entries :=
        rfl
      rw [step, set_of_absent absent, ih (by simpa using nodup), List.append_assoc]
      rfl

variable {table : Ordered α} {key : String} {value : α}

theorem nodup_keys_set (nodup : (keys table).Nodup) : (keys (set table key value)).Nodup := by
  rw [keys_set]
  split
  · exact nodup
  next absent =>
    refine List.nodup_append.mpr ⟨nodup, by simp, ?_⟩
    rintro other present _ added rfl
    exact absent (List.mem_singleton.mp added ▸ present)

/-- In a table with different keys every entry is found. -/
theorem get?_of_mem (nodup : (keys table).Nodup) (present : (key, value) ∈ table) :
    get? table key = some value := by
  induction table with
  | nil => exact absurd present List.not_mem_nil
  | cons entry rest ih =>
      obtain ⟨other, old⟩ := entry
      obtain ⟨fresh, nodup⟩ := List.nodup_cons.mp nodup
      rw [get?_cons]
      rcases List.mem_cons.mp present with same | later
      · obtain ⟨rfl, rfl⟩ := Prod.mk.inj same
        exact if_pos rfl
      · have ne : key ≠ other := by
          rintro rfl
          exact fresh (List.mem_map.mpr ⟨_, later, rfl⟩)
        rw [if_neg ne, ih nodup later]

/-! ## Filtered tables -/

variable {keep : String × α → Bool}

/-- A key whose entries are all kept has its value in the filtered table. -/
theorem get?_filter (kept : ∀ value, (key, value) ∈ table → keep (key, value) = true) :
    get? (table.filter keep) key = get? table key := by
  induction table with
  | nil => rfl
  | cons entry rest ih =>
      obtain ⟨other, old⟩ := entry
      have rest_eq := ih fun value present => kept value (List.mem_cons_of_mem _ present)
      rw [List.filter_cons, get?_cons]
      by_cases same : key = other
      · subst same
        rw [if_pos (kept old List.mem_cons_self), get?_cons, if_pos rfl, if_pos rfl]
      · rw [if_neg same]
        split
        · rw [get?_cons, if_neg same, rest_eq]
        · exact rest_eq

/-- Setting a key whose entries are all kept sets it in the filtered table. -/
theorem filter_set_of_kept (new : keep (key, value) = true)
    (kept : ∀ value, (key, value) ∈ table → keep (key, value) = true) :
    (set table key value).filter keep = set (table.filter keep) key value := by
  induction table with
  | nil => simp [set, new]
  | cons entry rest ih =>
      obtain ⟨other, old⟩ := entry
      have rest_eq := ih fun value present => kept value (List.mem_cons_of_mem _ present)
      by_cases same : other = key
      · subst same
        have old_kept := kept old List.mem_cons_self
        simp [set, new, old_kept]
      · cases keep_old : keep (other, old) <;> simp [set, same, keep_old, rest_eq]

/-- Setting a key whose entries are all dropped leaves the filtered table. -/
theorem filter_set_of_dropped (new : keep (key, value) = false)
    (dropped : ∀ value, (key, value) ∈ table → keep (key, value) = false) :
    (set table key value).filter keep = table.filter keep := by
  induction table with
  | nil => simp [set, new]
  | cons entry rest ih =>
      obtain ⟨other, old⟩ := entry
      have rest_eq := ih fun value present => dropped value (List.mem_cons_of_mem _ present)
      by_cases same : other = key
      · subst same
        have old_dropped := dropped old List.mem_cons_self
        simp [set, new, old_dropped]
      · cases keep_old : keep (other, old) <;> simp [set, same, keep_old, rest_eq]

end Ordered

end CodeGraph
