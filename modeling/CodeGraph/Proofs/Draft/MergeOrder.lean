import CodeGraph.Proofs.Draft.Places
import CodeGraph.Proofs.Draft.RelationTable
import CodeGraph.Proofs.Model.Canonical
import CodeGraph.Proofs.Model.Members
import Mathlib.Data.List.Nodup

/-!
# The order of links does not matter

What a table holds at an id is what the links with this id make one after the other. Merging a link
changes tags, the name and the place alone: tags are a set, the earlier place stays, and links that
agree on the name may be merged in either order. So whatever relations are there before, links in
another order make the same relations of them.
-/

namespace CodeGraph

namespace Tag

/-- Tags with the same members have one canonical form once repetitions are left out. -/
theorem canonical_unique_congr (first second : List Tag)
    (same : ∀ tag, tag ∈ first ↔ tag ∈ second) :
    canonical (unique first) = canonical (unique second) := by
  refine canonical_eq_of_perm ?_
  refine (List.perm_ext_iff_of_nodup (nodup_unique _) (nodup_unique _)).mpr fun tag => ?_
  rw [mem_unique, mem_unique, same]

end Tag

namespace Link

/-! ## Links with one id -/

/-- What a table holds at a link's id once the link is added. -/
def join (known : Option Relation) (link : Link) : Relation :=
  match known with
  | some relation => relation.merge link
  | none => link.toRelation

/-- What a table holds at an id once links with this id are added. -/
def joinAll (known : Option Relation) (links : List Link) : Option Relation :=
  links.foldl (fun known link => some (join known link)) known

/-- The links with an id. -/
def withId (links : List Link) (id : String) : List Link :=
  links.filter (·.id == id)

theorem mem_withId {links : List Link} {id : String} {link : Link} :
    link ∈ withId links id ↔ link ∈ links ∧ link.id = id := by
  simp [withId]

/-- At an id a table holds what the links with this id make of what it held before. -/
theorem get?_foldl_addTo (table : Ordered Relation) (links : List Link) (id : String) :
    (links.foldl addTo table).get? id = joinAll (table.get? id) (withId links id) := by
  induction links generalizing table with
  | nil => rfl
  | cons link links ih =>
      rw [List.foldl_cons, ih, withId, withId, List.filter_cons]
      by_cases same : link.id = id
      · subst same
        rw [get?_addTo_self, beq_self_eq_true, if_pos rfl, joinAll, joinAll, List.foldl_cons]
        rfl
      · rw [if_neg (by simpa using same), addTo, Ordered.get?_set_of_ne _ _ (Ne.symm same)]

variable {links first second : List Link} {link other : Link}

/-- What a link makes of a relation follows from the relation's canonical form. -/
theorem canonical_join_map (known : Option Relation) (link : Link) :
    (join (known.map (·.canonical)) link).canonical = (join known link).canonical := by
  cases known with
  | none => rfl
  | some relation =>
      have tags := Tag.canonical_unique_congr
        (Tag.canonical relation.tags ++ link.tags) (relation.tags ++ link.tags)
        fun tag => by simp [Tag.canonical]
      simpa [join, Relation.merge, Relation.canonical] using tags

theorem map_canonical_joinAll (known : Option Relation) (links : List Link) :
    (joinAll known links).map (·.canonical)
      = links.foldl (fun known link => some (join known link).canonical)
        (known.map (·.canonical)) := by
  rw [joinAll]
  induction links generalizing known with
  | nil => rfl
  | cons link links ih => rw [List.foldl_cons, List.foldl_cons, ih, canonical_join_map]; rfl

/-- Links with the same id say the same, apart from tags and places. -/
def Agree (links : List Link) : Prop :=
  ∀ first ∈ links, ∀ second ∈ links, first.id = second.id →
    first.kind = second.kind ∧ first.sourceId = second.sourceId ∧
      first.targetId = second.targetId ∧ first.name = second.name

instance (links : List Link) : Decidable (Agree links) :=
  inferInstanceAs (Decidable (∀ _ ∈ links, ∀ _ ∈ links, _ → _))

/-- Two links with one id may be merged in either order. -/
theorem Agree.canonical_join_comm (agree : Agree [link, other]) (same_id : link.id = other.id)
    (counts : ∀ place ∈ link.source, place.CountsFromOne)
    (counts' : ∀ place ∈ other.source, place.CountsFromOne) (known : Option Relation) :
    (join (some (join known link)) other).canonical
      = (join (some (join known other)) link).canonical := by
  obtain ⟨kinds, sources, targets, names⟩ := agree link (by simp) other (by simp) same_id
  have places := fun old => SourceRef.earliest_comm old counts counts'
  cases known with
  | none =>
      have tags := Tag.canonical_unique_congr (Tag.unique link.tags ++ other.tags)
        (Tag.unique other.tags ++ link.tags) fun tag => by
          simp [Tag.mem_unique, or_comm]
      have place : SourceRef.earliest link.source other.source
          = SourceRef.earliest other.source link.source := places none
      simp [join, toRelation, Relation.merge, Relation.canonical, *]
  | some relation =>
      have tags := Tag.canonical_unique_congr
        (Tag.unique (relation.tags ++ link.tags) ++ other.tags)
        (Tag.unique (relation.tags ++ other.tags) ++ link.tags) fun tag => by
          simp [Tag.mem_unique, or_assoc, or_comm (a := tag ∈ link.tags)]
      simp [join, Relation.merge, Relation.canonical, *]

theorem Agree.of_subset (agree : Agree second) (subset : first ⊆ second) : Agree first :=
  fun left left_mem right right_mem => agree left (subset left_mem) right (subset right_mem)

/-- Links in another order make the same of what a table holds at an id. -/
theorem canonical_get?_eq_of_perm (agree : Agree first)
    (counts : ∀ link ∈ first, ∀ place ∈ link.source, place.CountsFromOne)
    (perm : first.Perm second) (table : Ordered Relation) (id : String) :
    ((first.foldl addTo table).get? id).map (·.canonical)
      = ((second.foldl addTo table).get? id).map (·.canonical) := by
  rw [get?_foldl_addTo, get?_foldl_addTo, map_canonical_joinAll, map_canonical_joinAll]
  refine (perm.filter _).foldl_eq' ?_ _
  intro left left_mem right right_mem known
  obtain ⟨left_listed, left_id⟩ := mem_withId.mp left_mem
  obtain ⟨right_listed, right_id⟩ := mem_withId.mp right_mem
  have pair : Agree [left, right] := agree.of_subset (by simp [left_listed, right_listed])
  have swapped := pair.canonical_join_comm (left_id.trans right_id.symm)
    (counts left left_listed) (counts right right_listed) known
  -- What is known need not be in canonical form, but what comes of it follows from that form.
  have front := canonical_join_map (some (join known left)) right
  have back := canonical_join_map (some (join known right)) left
  exact congrArg some (front.trans (swapped.trans back.symm))

/-! ## Tables -/

/-- Every relation of a table stands under its id, and no id has two. -/
structure Keyed (table : Ordered Relation) : Prop where
  nodup : (Ordered.keys table).Nodup
  id_eq : ∀ id relation, (id, relation) ∈ table → relation.id = id

variable {table before after : Ordered Relation}

theorem keyed_nil : Keyed [] :=
  ⟨List.nodup_nil, by simp⟩

theorem Keyed.addTo (keyed : Keyed table) (link : Link) : Keyed (link.addTo table) := by
  refine ⟨Ordered.nodup_keys_set keyed.nodup, fun id relation present => ?_⟩
  rcases Ordered.mem_of_mem_set present with new | old
  · obtain ⟨rfl, rfl⟩ := Prod.mk.inj new
    cases found : table.get? link.id with
    | none => rfl
    | some relation => exact keyed.id_eq _ relation (Ordered.mem_of_get? found)
  · exact keyed.id_eq id relation old

theorem Keyed.foldl (keyed : Keyed table) (links : List Link) :
    Keyed (links.foldl Link.addTo table) := by
  induction links generalizing table with
  | nil => exact keyed
  | cons link links ih => exact ih (keyed.addTo link)

theorem Keyed.nodup_ids (keyed : Keyed table) :
    ((Ordered.values table).map (·.id)).Nodup := by
  have ids_eq : (Ordered.values table).map (·.id) = Ordered.keys table := by
    rw [Ordered.values, Ordered.keys, List.map_map]
    exact List.map_congr_left fun entry present => keyed.id_eq _ _ present
  exact ids_eq ▸ keyed.nodup

theorem Keyed.nodup_canonical (keyed : Keyed table) :
    ((Ordered.values table).map (·.canonical)).Nodup := by
  refine List.Nodup.of_map (·.id) ?_
  rw [List.map_map]
  exact keyed.nodup_ids

/-- A relation of one table is among those of another one with the same relation at its id. -/
theorem Keyed.exists_canonical_eq (keyed : Keyed before)
    (same : ∀ id, (before.get? id).map (·.canonical) = (after.get? id).map (·.canonical))
    {relation : Relation} (present : relation ∈ Ordered.values before) :
    ∃ other ∈ Ordered.values after, other.canonical = relation.canonical := by
  obtain ⟨⟨id, _⟩, entry_mem, rfl⟩ := List.mem_map.mp present
  have found := Ordered.get?_of_mem keyed.nodup entry_mem
  have other_found := same id
  rw [found, Option.map_some] at other_found
  obtain ⟨other, other_eq, canonical_eq⟩ := Option.map_eq_some_iff.mp other_found.symm
  exact ⟨other, List.mem_map.mpr ⟨_, Ordered.mem_of_get? other_eq, rfl⟩, canonical_eq⟩

/-- Tables that hold the same relation at each id have the same sorted relations. -/
theorem Keyed.sorted_eq (keyed : Keyed before) (keyed' : Keyed after)
    (same : ∀ id, (before.get? id).map (·.canonical) = (after.get? id).map (·.canonical)) :
    sortOn textLe (·.id) ((Ordered.values before).map (·.canonical))
      = sortOn textLe (·.id) ((Ordered.values after).map (·.canonical)) := by
  -- Without repetitions, lists with the same members are permuted; sorting by id settles the order.
  refine textLe_keyOrder.sortOn_eq_of_perm ?_ ?_
  · refine (List.perm_ext_iff_of_nodup keyed.nodup_canonical keyed'.nodup_canonical).mpr ?_
    intro form
    simp only [List.mem_map]
    constructor
    · rintro ⟨relation, present, rfl⟩
      exact keyed.exists_canonical_eq same present
    · rintro ⟨relation, present, rfl⟩
      exact keyed'.exists_canonical_eq (fun id => (same id).symm) present
  · intro _ left_form _ right_form same_id
    obtain ⟨left, left_mem, rfl⟩ := List.mem_map.mp left_form
    obtain ⟨right, right_mem, rfl⟩ := List.mem_map.mp right_form
    exact congrArg Relation.canonical
      (List.inj_on_of_nodup_map keyed.nodup_ids left_mem right_mem same_id)

/-- Links in another order make the same relations of those that are there. -/
theorem Keyed.canonical_eq_of_perm (keyed : Keyed table) (agree : Agree first)
    (counts : ∀ link ∈ first, ∀ place ∈ link.source, place.CountsFromOne)
    (perm : first.Perm second) :
    sortOn textLe (·.id) ((Ordered.values (first.foldl Link.addTo table)).map (·.canonical))
      = sortOn textLe (·.id)
        ((Ordered.values (second.foldl Link.addTo table)).map (·.canonical)) :=
  (keyed.foldl first).sorted_eq (keyed.foldl second) fun id =>
    canonical_get?_eq_of_perm agree counts perm table id

/-- Links in another order make the same relations. -/
theorem canonical_table_eq_of_perm (agree : Agree first)
    (counts : ∀ link ∈ first, ∀ place ∈ link.source, place.CountsFromOne)
    (perm : first.Perm second) :
    sortOn textLe (·.id) ((Ordered.values (Link.table first)).map (·.canonical))
      = sortOn textLe (·.id) ((Ordered.values (Link.table second)).map (·.canonical)) :=
  keyed_nil.canonical_eq_of_perm agree counts perm

end Link

end CodeGraph
