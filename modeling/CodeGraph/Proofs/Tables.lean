import CodeGraph.Ordered

/-!
# Setting many keys of a table
-/

namespace CodeGraph

namespace Ordered

variable {α : Type} {table entries : Ordered α}

theorem setAll_cons (table : Ordered α) (key : String) (value : α) (entries : Ordered α) :
    setAll table ((key, value) :: entries) = setAll (set table key value) entries := rfl

theorem length_set (table : Ordered α) (key : String) (value : α) :
    (set table key value).length
      = if key ∈ keys table then table.length else table.length + 1 := by
  have lengths := congrArg List.length (keys_set table key value)
  split at lengths <;> simp_all [keys]

theorem length_setAll_le (table entries : Ordered α) :
    (setAll table entries).length ≤ table.length + entries.length := by
  induction entries generalizing table with
  | nil => exact Nat.le_refl _
  | cons entry entries ih =>
      have later := ih (set table entry.1 entry.2)
      rw [length_set] at later
      rw [setAll_cons, List.length_cons]
      split at later <;> omega

/-- Keys of which each one makes the table longer are all new. -/
theorem setAll_eq_append_of_length
    (longer : (setAll table entries).length = table.length + entries.length) :
    setAll table entries = table ++ entries := by
  induction entries generalizing table with
  | nil => simp [setAll]
  | cons entry entries ih =>
      rw [setAll_cons, List.length_cons] at longer
      have bound := length_setAll_le (set table entry.1 entry.2) entries
      by_cases present : entry.1 ∈ keys table
      · rw [longer, length_set, if_pos present] at bound
        omega
      · rw [setAll_cons, set_of_absent present] at *
        rw [ih (by simp [longer]; omega), List.append_assoc]
        rfl

theorem nodup_keys_setAll (nodup : (keys table).Nodup) : (keys (setAll table entries)).Nodup := by
  induction entries generalizing table with
  | nil => exact nodup
  | cons entry entries ih => exact ih (nodup_keys_set nodup)

variable {key other : String} {value value' : α}

theorem mem_keys_set : key ∈ keys (set table other value) ↔ key ∈ keys table ∨ key = other := by
  rw [keys_set]
  split
  next present => exact ⟨.inl, fun known => known.elim id fun same => same ▸ present⟩
  next => simp

theorem values_append (table rest : Ordered α) :
    values (table ++ rest) = values table ++ values rest :=
  List.map_append

/-- A key that the front of a table lacks is set behind it. -/
theorem set_append (absent : key ∉ keys table) (rest : Ordered α) (value : α) :
    set (table ++ rest) key value = table ++ set rest key value := by
  induction table with
  | nil => rfl
  | cons entry table ih =>
      rw [keys, List.map_cons, List.mem_cons, not_or] at absent
      obtain ⟨ne, absent⟩ := absent
      rw [List.cons_append, set, if_neg (by simpa using Ne.symm ne), ih absent, List.cons_append]

/-- The later one of two values of a key counts. -/
theorem set_set_self (table : Ordered α) (key : String) (value value' : α) :
    set (set table key value) key value' = set table key value' := by
  induction table with
  | nil => simp [set]
  | cons entry table ih =>
      obtain ⟨first, old⟩ := entry
      by_cases same : first = key <;> simp [set, same, ih]

/-- A key that is present takes its value before or after another key does. -/
theorem set_comm (present : key ∈ keys table) (ne : key ≠ other) :
    set (set table key value) other value' = set (set table other value') key value := by
  induction table with
  | nil => exact nomatch present
  | cons entry table ih =>
      obtain ⟨first, old⟩ := entry
      by_cases same : first = key
      · subst same
        simp [set, ne]
      · have later : key ∈ keys table := by simpa [keys, Ne.symm same] using present
        by_cases same' : first = other
        · subst same'
          simp [set, same]
        · simp [set, same, same', ih later]

theorem setAll_set_of_present (present : key ∈ keys table) (absent : key ∉ keys entries) :
    setAll (set table key value) entries = set (setAll table entries) key value := by
  induction entries generalizing table with
  | nil => rfl
  | cons entry entries ih =>
      rw [keys, List.map_cons, List.mem_cons, not_or] at absent
      obtain ⟨ne, absent⟩ := absent
      rw [setAll_cons, setAll_cons, set_comm present ne]
      exact ih (mem_keys_set.mpr (.inl present)) absent

/-- Setting a key in a table without repeated keys sets it once the table itself is set. -/
theorem setAll_set (table : Ordered α) (nodup : (keys entries).Nodup) (key : String) (value : α) :
    setAll table (set entries key value) = set (setAll table entries) key value := by
  induction entries generalizing table with
  | nil => rfl
  | cons entry entries ih =>
      obtain ⟨first, old⟩ := entry
      obtain ⟨fresh, nodup⟩ := List.nodup_cons.mp nodup
      by_cases same : first = key
      · subst same
        have present : first ∈ keys (set table first old) := mem_keys_set.mpr (.inr rfl)
        rw [set, if_pos (by simp), setAll_cons, setAll_cons,
          ← setAll_set_of_present present fresh, set_set_self]
      · rw [set, if_neg (by simpa using same), setAll_cons, setAll_cons, ih _ nodup]

theorem setAll_setAll (table : Ordered α) (nodup : (keys entries).Nodup) (more : Ordered α) :
    setAll table (setAll entries more) = setAll (setAll table entries) more := by
  induction more generalizing entries with
  | nil => rfl
  | cons entry more ih =>
      rw [setAll_cons, ih (nodup_keys_set nodup), setAll_set table nodup, setAll_cons]

end Ordered

end CodeGraph
