import CodeGraph.Draft.Draft
import CodeGraph.Proofs.Model.Members
import Mathlib.Data.List.Basic

/-!
# The relations that links make

Links are merged into a table of relations by their ids. As long as ids do not collide, a relation
of the table has the kind and the ends of all links with its id, and the tags of all of them. The
relations of one kind are then those that the links of this kind make by themselves, whatever other
links stand between them.
-/

namespace CodeGraph

/-! ## Tags -/

namespace Tag

/-- Leaving out repetitions loses no tag. -/
theorem mem_unique {tag : Tag} {tags : List Tag} : tag ∈ unique tags ↔ tag ∈ tags := by
  rw [unique_eq, mem_foldl_addLast]
  simp

end Tag

/-! ## Links -/

namespace Link

/-- Merges a link into a table of relations. -/
def addTo (table : Ordered Relation) (link : Link) : Ordered Relation :=
  Ordered.set table link.id
    (match table.get? link.id with
      | some relation => relation.merge link
      | none => link.toRelation)

/-- The table of the relations that links make. -/
def table (links : List Link) : Ordered Relation :=
  links.foldl addTo []

/-- Links with the same id have the same kind and ends. -/
def CollisionFree (links : List Link) : Prop :=
  ∀ first ∈ links, ∀ second ∈ links, first.id = second.id →
    first.kind = second.kind ∧ first.sourceId = second.sourceId ∧
      first.targetId = second.targetId

instance (links : List Link) : Decidable (CollisionFree links) :=
  inferInstanceAs (Decidable (∀ _ ∈ links, ∀ _ ∈ links, _ → _))

/-- The relation says what the links with an id say together. -/
structure Sums (links : List Link) (id : String) (relation : Relation) : Prop where
  /-- It has the id. -/
  id_eq : relation.id = id
  /-- It has the kind and the ends of one of the links. -/
  from_link : ∃ link ∈ links, link.id = id ∧ link.kind = relation.kind ∧
    link.sourceId = relation.sourceId ∧ link.targetId = relation.targetId
  /-- It has the tags of all of them. -/
  tag_iff : ∀ tag, tag ∈ relation.tags ↔ ∃ link ∈ links, link.id = id ∧ tag ∈ link.tags

variable {links : List Link} {link : Link} {id : String} {relation : Relation}

/-- A link with another id adds nothing. -/
theorem Sums.other (sums : Sums links id relation) (ne : link.id ≠ id) :
    Sums (links ++ [link]) id relation := by
  obtain ⟨id_eq, ⟨from_link, from_mem, same⟩, tag_iff⟩ := sums
  refine ⟨id_eq, ⟨from_link, List.mem_append_left _ from_mem, same⟩, fun tag => ?_⟩
  simp [tag_iff, or_and_right, exists_or, ne]

/-- A link with the same id adds its tags. -/
theorem Sums.merge (sums : Sums links link.id relation) :
    Sums (links ++ [link]) link.id (relation.merge link) := by
  obtain ⟨id_eq, ⟨from_link, from_mem, same⟩, tag_iff⟩ := sums
  refine ⟨id_eq, ⟨from_link, List.mem_append_left _ from_mem, same⟩, fun tag => ?_⟩
  simp [Relation.merge, Tag.mem_unique, tag_iff, or_and_right, exists_or]

/-- The first link with its id makes a relation of its own. -/
theorem sums_toRelation (fresh : ∀ other ∈ links, other.id ≠ link.id) :
    Sums (links ++ [link]) link.id link.toRelation := by
  refine ⟨rfl, ⟨link, by simp, rfl, rfl, rfl, rfl⟩, fun tag => ?_⟩
  rw [toRelation, Tag.mem_unique]
  constructor
  · exact fun present => ⟨link, by simp, rfl, present⟩
  · rintro ⟨other, present, same, tagged⟩
    rcases List.mem_append.mp present with early | here
    · exact absurd same (fresh other early)
    · exact List.mem_singleton.mp here ▸ tagged

/-- The table holds one relation for each id among the links, with what the links say. -/
structure Tabulates (links : List Link) (table : Ordered Relation) : Prop where
  /-- No id has two relations. -/
  nodup : (Ordered.keys table).Nodup
  /-- Every id among the links has a relation. -/
  complete : ∀ link ∈ links, link.id ∈ Ordered.keys table
  /-- A relation sums the links with its id up. -/
  sums : ∀ id relation, (id, relation) ∈ table → Sums links id relation

variable {table : Ordered Relation}

theorem get?_addTo_self (table : Ordered Relation) (link : Link) :
    (link.addTo table).get? link.id
      = some (match table.get? link.id with
        | some relation => relation.merge link
        | none => link.toRelation) :=
  Ordered.get?_set_self ..

/-- Adding a link keeps a table up to date. -/
theorem Tabulates.addTo (tabulates : Tabulates links table) (link : Link) :
    Tabulates (links ++ [link]) (link.addTo table) := by
  have nodup : (Ordered.keys (link.addTo table)).Nodup :=
    Ordered.nodup_keys_set tabulates.nodup
  refine ⟨nodup, ?_, ?_⟩
  · intro other present
    have key_mem : other.id ∈ Ordered.keys table ∨ other.id = link.id := by
      rcases List.mem_append.mp present with early | here
      · exact .inl (tabulates.complete other early)
      · exact .inr (congrArg Link.id (List.mem_singleton.mp here))
    rw [Link.addTo, Ordered.keys_set]
    split
    next known => exact key_mem.elim (fun early => early) fun same => same ▸ known
    next => simpa using key_mem
  · intro id relation present
    have found := Ordered.get?_of_mem nodup present
    -- Only the relation with the link's own id changes.
    by_cases same : id = link.id
    · subst same
      rw [get?_addTo_self, Option.some.injEq] at found
      subst found
      cases known : table.get? link.id with
      | some old => exact (tabulates.sums _ old (Ordered.mem_of_get? known)).merge
      | none =>
          refine sums_toRelation fun other present same => ?_
          have key_mem := tabulates.complete other present
          rw [same, ← Ordered.isSome_get?_iff, known] at key_mem
          simp at key_mem
    · rw [Link.addTo, Ordered.get?_set_of_ne _ _ same] at found
      exact (tabulates.sums id relation (Ordered.mem_of_get? found)).other (Ne.symm same)

theorem tabulates_nil : Tabulates [] [] :=
  ⟨by simp [Ordered.keys], by simp, by simp⟩

/-- Adding links one after the other keeps a table up to date. -/
theorem Tabulates.foldl {done : List Link} (tabulates : Tabulates done table)
    (links : List Link) : Tabulates (done ++ links) (links.foldl Link.addTo table) := by
  induction links generalizing done table with
  | nil => simpa using tabulates
  | cons link links ih =>
      have next := ih (tabulates.addTo link)
      rwa [List.append_assoc, List.singleton_append] at next

/-- The table of links holds what they say. -/
theorem tabulates_table (links : List Link) : Tabulates links (Link.table links) :=
  tabulates_nil.foldl links

/-- Where ids do not collide, a tag of a relation is that of a link with its kind, its ends and no
other tags than it has. -/
theorem Sums.exists_link (sums : Sums links id relation) (free : CollisionFree links) {tag : Tag}
    (tagged : tag ∈ relation.tags) :
    ∃ link ∈ links, tag ∈ link.tags ∧ link.tags ⊆ relation.tags ∧ link.kind = relation.kind ∧
      link.sourceId = relation.sourceId ∧ link.targetId = relation.targetId := by
  obtain ⟨link, link_mem, link_id, link_tagged⟩ := (sums.tag_iff tag).mp tagged
  obtain ⟨other, other_mem, other_id, kind, source, target⟩ := sums.from_link
  obtain ⟨kinds, sources, targets⟩ :=
    free link link_mem other other_mem (link_id.trans other_id.symm)
  exact ⟨link, link_mem, link_tagged,
    fun tag tagged => (sums.tag_iff tag).mpr ⟨link, link_mem, link_id, tagged⟩,
    kinds.trans kind, sources.trans source, targets.trans target⟩

/-- Where ids do not collide, every link is part of a relation that has its kind, its ends and all
its tags. -/
theorem exists_relation_of_mem (free : CollisionFree links) (present : link ∈ links) :
    ∃ relation ∈ Ordered.values (Link.table links), relation.kind = link.kind ∧
      relation.sourceId = link.sourceId ∧ relation.targetId = link.targetId ∧
      link.tags ⊆ relation.tags := by
  have tabulates := tabulates_table links
  obtain ⟨⟨_, relation⟩, entry_mem, same_id⟩ := List.mem_map.mp (tabulates.complete link present)
  obtain rfl : _ = link.id := same_id
  have sums := tabulates.sums _ relation entry_mem
  obtain ⟨other, other_mem, other_id, kind, source, target⟩ := sums.from_link
  obtain ⟨kinds, sources, targets⟩ := free other other_mem link present other_id
  exact ⟨relation, List.mem_map.mpr ⟨_, entry_mem, rfl⟩, kind.symm.trans kinds,
    source.symm.trans sources, target.symm.trans targets,
    fun tag tagged => (sums.tag_iff tag).mpr ⟨link, present, rfl, tagged⟩⟩

/-! ## Relations of one kind -/

section

variable {keep : RelationKind → Bool}
  (same_kind : ∀ relation, (link.id, relation) ∈ table → relation.kind = link.kind)
include same_kind

/-- A link merges into a relation of its own kind. -/
theorem kind_of_get?_addTo (found : (link.addTo table).get? link.id = some relation) :
    relation.kind = link.kind := by
  rw [get?_addTo_self, Option.some.injEq] at found
  subst found
  cases known : table.get? link.id with
  | some old => exact same_kind old (Ordered.mem_of_get? known)
  | none => rfl

theorem filter_addTo (link_eq : keep link.kind = true) :
    (link.addTo table).filter (fun entry => keep entry.2.kind)
      = link.addTo (table.filter fun entry => keep entry.2.kind) := by
  have kept : ∀ relation, (link.id, relation) ∈ table → keep relation.kind = true :=
    fun relation present => same_kind relation present ▸ link_eq
  have new := kind_of_get?_addTo same_kind (get?_addTo_self table link)
  rw [addTo, addTo, Ordered.get?_filter kept, Ordered.filter_set_of_kept (new ▸ link_eq) kept]

theorem filter_addTo_of_dropped (link_eq : keep link.kind = false) :
    (link.addTo table).filter (fun entry => keep entry.2.kind)
      = table.filter fun entry => keep entry.2.kind := by
  have dropped : ∀ relation, (link.id, relation) ∈ table → keep relation.kind = false :=
    fun relation present => same_kind relation present ▸ link_eq
  have new := kind_of_get?_addTo same_kind (get?_addTo_self table link)
  rw [addTo, Ordered.filter_set_of_dropped (new ▸ link_eq) dropped]

end

/-- Where ids do not collide, a table holds relations of a link's kind at its id. -/
theorem Tabulates.same_kind (tabulates : Tabulates links table) {more : List Link}
    (free : CollisionFree (links ++ link :: more)) :
    ∀ relation, (link.id, relation) ∈ table → relation.kind = link.kind := by
  intro relation present
  obtain ⟨other, other_mem, same_id, same_kind, _⟩ := (tabulates.sums _ relation present).from_link
  have same := free other (List.mem_append_left _ other_mem) link (by simp) same_id
  exact same_kind.symm.trans same.1

/-- Links of other kinds that are merged into a table change nothing about some kinds. -/
theorem Tabulates.filter_foldl {done : List Link} (tabulates : Tabulates done table)
    (links : List Link) (free : CollisionFree (done ++ links)) (keep : RelationKind → Bool) :
    (links.foldl Link.addTo table).filter (fun entry => keep entry.2.kind)
      = (links.filter fun link => keep link.kind).foldl Link.addTo
        (table.filter fun entry => keep entry.2.kind) := by
  induction links generalizing done table with
  | nil => rfl
  | cons link links ih =>
      have same_kind := tabulates.same_kind free
      have next := ih (tabulates.addTo link) (by simpa using free)
      rw [List.foldl_cons, next, List.filter_cons]
      cases link_eq : keep link.kind with
      | true => rw [filter_addTo same_kind link_eq]; rfl
      | false => rw [filter_addTo_of_dropped same_kind link_eq]; rfl

/-- Relations of some kinds are those that the links of these kinds make by themselves. -/
theorem filter_table (free : CollisionFree links) (keep : RelationKind → Bool) :
    (Link.table links).filter (fun entry => keep entry.2.kind)
      = Link.table (links.filter fun link => keep link.kind) :=
  tabulates_nil.filter_foldl links free keep

/-! ## More links -/

variable {fewer more : List Link}

theorem CollisionFree.of_subset (free : CollisionFree more) (subset : fewer ⊆ more) :
    CollisionFree fewer :=
  fun first first_mem second second_mem =>
    free first (subset first_mem) second (subset second_mem)

/-- Further links complete the relations that are there: each keeps its id, its kind and its ends
and loses no tag. -/
theorem exists_completed (free : CollisionFree more) (subset : fewer ⊆ more)
    (present : relation ∈ Ordered.values (Link.table fewer)) :
    ∃ other ∈ Ordered.values (Link.table more), other.id = relation.id ∧
      other.kind = relation.kind ∧ other.sourceId = relation.sourceId ∧
      other.targetId = relation.targetId ∧ relation.tags ⊆ other.tags := by
  obtain ⟨⟨id, _⟩, entry_mem, rfl⟩ := List.mem_map.mp present
  have sums := (tabulates_table fewer).sums id _ entry_mem
  obtain ⟨link, link_mem, rfl, kind, source, target⟩ := sums.from_link
  have key_mem := (tabulates_table more).complete link (subset link_mem)
  obtain ⟨⟨_, other⟩, other_mem, same_id⟩ := List.mem_map.mp key_mem
  obtain rfl : _ = link.id := same_id
  have other_sums := (tabulates_table more).sums _ other other_mem
  obtain ⟨another, another_mem, another_id, another_kind, another_source, another_target⟩ :=
    other_sums.from_link
  obtain ⟨kinds, sources, targets⟩ := free another another_mem link (subset link_mem) another_id
  refine ⟨other, List.mem_map.mpr ⟨_, other_mem, rfl⟩, ?_, ?_, ?_, ?_, ?_⟩
  · rw [other_sums.id_eq, sums.id_eq]
  · rw [← another_kind, kinds, kind]
  · rw [← another_source, sources, source]
  · rw [← another_target, targets, target]
  · intro tag tagged
    obtain ⟨tagging, tagging_mem, tagging_id, tagging_tag⟩ := (sums.tag_iff tag).mp tagged
    exact (other_sums.tag_iff tag).mpr ⟨tagging, subset tagging_mem, tagging_id, tagging_tag⟩

/-- A relation with an id that is new comes from a link that is new. -/
theorem exists_new_link (present : relation ∈ Ordered.values (Link.table more))
    (new : ∀ other ∈ Ordered.values (Link.table fewer), other.id ≠ relation.id) :
    ∃ link ∈ more, link ∉ fewer ∧ link.kind = relation.kind ∧ link.tags ⊆ relation.tags := by
  obtain ⟨⟨id, _⟩, entry_mem, rfl⟩ := List.mem_map.mp present
  have sums := (tabulates_table more).sums id _ entry_mem
  obtain ⟨link, link_mem, same_id, kind, _⟩ := sums.from_link
  refine ⟨link, link_mem, fun known => ?_, kind, fun tag tagged => ?_⟩
  · have key_mem := (tabulates_table fewer).complete link known
    obtain ⟨⟨_, other⟩, other_mem, other_id⟩ := List.mem_map.mp key_mem
    have other_sums := (tabulates_table fewer).sums _ other other_mem
    refine new other (List.mem_map.mpr ⟨_, other_mem, rfl⟩) ?_
    rw [other_sums.id_eq, sums.id_eq, ← same_id]
    exact other_id
  · exact (sums.tag_iff tag).mpr ⟨link, link_mem, same_id, tagged⟩

end Link

end CodeGraph
