import CodeGraph.Files.FileTree
import CodeGraph.Proofs.Files.Leaves

/-!
# What stands where

The tip of an entry is what it is without what is inside of it. A tree is told by the tips at its
places. Putting an entry at a place changes the tip there alone, provided that the directory above
stands and the entry has nothing inside. A tree extends another one when it has the same links and
directories, and files and directories besides.
-/

namespace CodeGraph

namespace Entry

/-- The entry without what is inside of it. -/
def tip : Entry → Entry
  | .directory _ => .directory []
  | other => other

/-- What stands at a place, without what is inside of it. -/
def tipAt? (place : List String) (top : Entry) : Option Entry :=
  (top.at? place).map tip

variable {top top' top'' entry : Entry} {place other rest : List String} {target name : String}
  {content : Content} {entries : List (String × Entry)}

theorem tip_eq_directory_iff :
    entry.tip = .directory [] ↔ ∃ entries, entry = .directory entries := by
  cases entry <;> simp [tip]

theorem tip_eq_link_iff : entry.tip = .link target ↔ entry = .link target := by
  cases entry <;> simp [tip]

theorem tipAt?_eq_directory_iff :
    tipAt? place top = some (.directory []) ↔
      ∃ entries, top.at? place = some (.directory entries) := by
  simp only [tipAt?, Option.map_eq_some_iff, tip_eq_directory_iff]
  exact ⟨fun ⟨_, stands, _, same⟩ => ⟨_, same ▸ stands⟩, fun ⟨_, stands⟩ => ⟨_, stands, _, rfl⟩⟩

theorem tipAt?_eq_link_iff : tipAt? place top = some (.link target) ↔
    top.at? place = some (.link target) := by
  simp only [tipAt?, Option.map_eq_some_iff, tip_eq_link_iff, exists_eq_right]

theorem tipAt?_eq_none_iff : tipAt? place top = none ↔ top.at? place = none :=
  Option.map_eq_none_iff

theorem at?_cons : top.at? (name :: rest) = (top.entries.lookup name).bind (at? rest) := rfl

/-- What is above something that stands is a directory. -/
theorem exists_directory_of_at?_append (stands : top.at? (place ++ name :: rest) = some entry) :
    ∃ entries, top.at? place = some (.directory entries) := by
  rw [at?_append] at stands
  obtain ⟨inner, above, below⟩ := Option.bind_eq_some_iff.mp stands
  cases inner with
  | file | link => exact nomatch below
  | directory entries => exact ⟨entries, above⟩

/-- Below the place where an entry is put stands what is inside of the entry. -/
theorem at?_put_append (entry : Entry) (place rest : List String) (top : Entry) :
    (put entry place top).at? (place ++ rest) = entry.at? rest := by
  induction place generalizing top with
  | nil => rfl
  | cons name place ih =>
      have found := Ordered.get?_set_self top.entries name
        (put entry place ((top.entries.lookup name).getD (.directory [])))
      rw [Ordered.get?] at found
      rw [List.cons_append, at?_cons, put, entries, found, Option.bind_some, ih]

theorem at?_put_self (entry : Entry) (place : List String) (top : Entry) :
    (put entry place top).at? place = some entry := by
  have here := at?_put_append entry place [] top
  rwa [List.append_nil] at here

theorem at?_nil_directory (nonempty : rest ≠ []) : (Entry.directory []).at? rest = none := by
  cases rest with
  | nil => exact absurd rfl nonempty
  | cons name rest => rfl

/-- Neither at the place where an entry is put nor above or below of it, all stays. -/
theorem at?_put_of_apart (entry : Entry) (below : ¬ place <+: other) (above : ¬ other <+: place)
    (top : Entry) : (put entry place top).at? other = top.at? other := by
  induction place generalizing other top with
  | nil => exact absurd (List.nil_prefix) below
  | cons name place ih =>
      cases other with
      | nil => exact absurd (List.nil_prefix) above
      | cons name' other =>
          rw [put, at?_cons, at?_cons, entries]
          by_cases same : name' = name
          · subst same
            have below_name : ¬ place <+: other := by simpa using below
            have found := Ordered.get?_set_self top.entries name'
              (put entry place ((top.entries.lookup name').getD (.directory [])))
            rw [Ordered.get?] at found
            rw [found, Option.bind_some, ih below_name (by simpa using above)]
            cases top.entries.lookup name' with
            | some inner => rfl
            | none =>
                refine at?_nil_directory ?_
                rintro rfl
                exact above (by simp)
          · have found := Ordered.get?_set_of_ne top.entries
              (put entry place ((top.entries.lookup name).getD (.directory []))) same
            rw [Ordered.get?, Ordered.get?] at found
            rw [found]

/-- Above the place where an entry is put stand directories. -/
theorem exists_directory_of_put (entry : Entry) (above : other <+: place) (ne : other ≠ place)
    (top : Entry) : ∃ entries, (put entry place top).at? other = some (.directory entries) := by
  obtain ⟨rest, rfl⟩ := above
  obtain ⟨name, rest, rfl⟩ :=
    List.exists_cons_of_ne_nil (fun empty : rest = [] => ne (by simp [empty]))
  exact exists_directory_of_at?_append (at?_put_self entry (other ++ name :: rest) top)

/-- Above a directory stand directories. -/
theorem exists_directory_above (above : other <+: place)
    (stands : top.at? place = some (.directory entries)) :
    ∃ entries, top.at? other = some (.directory entries) := by
  obtain ⟨rest, rfl⟩ := above
  cases rest with
  | nil => exact ⟨entries, by simpa using stands⟩
  | cons name rest => exact exists_directory_of_at?_append stands

/-- Nothing stands below what is no directory. -/
theorem at?_append_eq_none (bare : ∀ entries, top.at? place ≠ some (.directory entries))
    (nonempty : rest ≠ []) : top.at? (place ++ rest) = none := by
  obtain ⟨name, rest, rfl⟩ := List.exists_cons_of_ne_nil nonempty
  cases stands : top.at? (place ++ name :: rest) with
  | none => rfl
  | some entry =>
      obtain ⟨entries, above⟩ := exists_directory_of_at?_append stands
      exact absurd above (bare entries)

/-- What is above a place is above its directory, or is it. -/
theorem prefix_dropLast_iff (ne : other ≠ place) : other <+: place.dropLast ↔ other <+: place := by
  refine ⟨fun above => above.trans (List.dropLast_prefix place), ?_⟩
  rintro ⟨rest, rfl⟩
  rw [List.dropLast_append_of_ne_nil fun empty => ne (by simp [empty])]
  exact List.prefix_append _ _

/-- Putting an entry with nothing inside where no directory stands, in a directory that does,
changes the tip at this place alone. -/
theorem tipAt?_put (hollow : ∀ rest, rest ≠ [] → entry.at? rest = none)
    (bare : ∀ entries, top.at? place ≠ some (.directory entries))
    (parent : ∃ entries, top.at? place.dropLast = some (.directory entries)) :
    tipAt? other (put entry place top) =
      if other = place then some entry.tip else tipAt? other top := by
  split
  next same =>
    subst same
    rw [tipAt?, at?_put_self]
    rfl
  next ne =>
    by_cases below : place <+: other
    · obtain ⟨rest, rfl⟩ := below
      have nonempty : rest ≠ [] := fun empty => ne (by simp [empty])
      rw [tipAt?, tipAt?, at?_put_append, hollow rest nonempty, at?_append_eq_none bare nonempty]
    · by_cases above : other <+: place
      · obtain ⟨_, stands⟩ := parent
        have before := exists_directory_above ((prefix_dropLast_iff ne).mpr above) stands
        rw [tipAt?_eq_directory_iff.mpr (exists_directory_of_put entry above ne top),
          tipAt?_eq_directory_iff.mpr before]
      · rw [tipAt?, tipAt?, at?_put_of_apart entry below above]

/-! ## Trees that extend each other -/

/-- A file or a directory can be put here: nothing stands here, or a file. -/
def Replaceable : Option Entry → Prop
  | none | some (.file _) => True
  | _ => False

/-- A file or a directory stands here. -/
def Made : Option Entry → Prop
  | some (.file _) | some (.directory _) => True
  | _ => False

/-- Two trees differ within a region alone, where the second one has a file or a directory in the
place of nothing or of a file. -/
def Extends (region : List String → Prop) (top top' : Entry) : Prop :=
  ∀ place, tipAt? place top' = tipAt? place top ∨
    region place ∧ Replaceable (tipAt? place top) ∧ Made (tipAt? place top')

namespace Extends

variable {region : List String → Prop}

theorem refl (region : List String → Prop) (top : Entry) : Extends region top top :=
  fun _ => .inl rfl

theorem trans (first : Extends region top top') (second : Extends region top' top'') :
    Extends region top top'' := by
  intro place
  rcases first place with same | ⟨inside, old, mid⟩ <;>
    rcases second place with same' | ⟨inside', old', new⟩
  · exact .inl (same'.trans same)
  · exact .inr ⟨inside', same ▸ old', new⟩
  · exact .inr ⟨inside, old, same' ▸ mid⟩
  · exact .inr ⟨inside, old, new⟩

theorem mono {wider : List String → Prop} (extended : Extends region top top')
    (subset : ∀ place, region place → wider place) : Extends wider top top' :=
  fun place => (extended place).imp id fun changed => ⟨subset place changed.1, changed.2⟩

theorem outside (extended : Extends region top top') (outside : ¬ region place) :
    tipAt? place top' = tipAt? place top :=
  (extended place).resolve_right fun changed => outside changed.1

/-- Both have the same links. -/
theorem link_iff (extended : Extends region top top') :
    top'.at? place = some (.link target) ↔ top.at? place = some (.link target) := by
  rw [← tipAt?_eq_link_iff, ← tipAt?_eq_link_iff]
  rcases extended place with same | ⟨_, old, new⟩
  · rw [same]
  · constructor
    · intro stands
      rw [stands] at new
      exact new.elim
    · intro stands
      rw [stands] at old
      exact old.elim

/-- A directory stays one. -/
theorem directory (extended : Extends region top top')
    (stands : ∃ entries, top.at? place = some (.directory entries)) :
    ∃ entries, top'.at? place = some (.directory entries) := by
  rw [← tipAt?_eq_directory_iff] at stands ⊢
  rcases extended place with same | ⟨_, old, _⟩
  · rw [same, stands]
  · rw [stands] at old
    exact old.elim

end Extends

end Entry

end CodeGraph
