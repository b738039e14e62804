import CodeGraph.Proofs.Draft.MergeOrder
import CodeGraph.Proofs.Draft.Thinning

/-!
# The order in which relations are added does not matter

Relations may be added to a draft in any order: as long as those with one id agree on what they
join and on their name, the draft becomes the same. What becomes of them is described without an
order: one relation for each id, with all tags and the first place.
-/

namespace CodeGraph

namespace Link

/-! ## What links make together -/

/-- The relation is what the link says, apart from tags and places. -/
structure Shapes (link : Link) (relation : Relation) : Prop where
  id_eq : relation.id = link.id
  kind_eq : relation.kind = link.kind
  sourceId_eq : relation.sourceId = link.sourceId
  targetId_eq : relation.targetId = link.targetId
  name_eq : relation.name = link.name

/-- The relation is what links make together. -/
structure Joins (links : List Link) (relation : Relation) : Prop where
  /-- It is what each of them says. -/
  shapes : ∀ link ∈ links, link.Shapes relation
  tags_nodup : relation.tags.Nodup
  /-- It has the tags of all of them. -/
  tag_iff : ∀ tag, tag ∈ relation.tags ↔ ∃ link ∈ links, tag ∈ link.tags
  /-- It is written at the first of their places. -/
  isFirst : SourceRef.IsFirst (links.filterMap (·.source)) relation.source

variable {links first second : List Link} {link : Link} {relation : Relation}

theorem filterMap_source_singleton (link : Link) :
    [link].filterMap (·.source) = link.source.toList := by
  rw [List.filterMap_cons]
  cases link.source <;> rfl

theorem joins_toRelation (link : Link) : Joins [link] link.toRelation where
  shapes := by
    simp only [List.mem_singleton, forall_eq]
    exact ⟨rfl, rfl, rfl, rfl, rfl⟩
  tags_nodup := Tag.nodup_unique _
  tag_iff tag := by simp [toRelation, Tag.mem_unique]
  isFirst := by
    have alone := SourceRef.isFirst_toList link.source
    rwa [← filterMap_source_singleton] at alone

theorem Joins.merge (joins : Joins links relation) (shapes : link.Shapes relation) :
    Joins (links ++ [link]) (relation.merge link) := by
  have name_eq : (relation.name <|> link.name) = relation.name := by
    rw [shapes.name_eq]
    cases link.name <;> rfl
  have kept : ∀ other : Link, other.Shapes relation → other.Shapes (relation.merge link) :=
    fun other ⟨id_eq, kind_eq, sourceId_eq, targetId_eq, same_name⟩ =>
      ⟨id_eq, kind_eq, sourceId_eq, targetId_eq, name_eq.trans same_name⟩
  refine ⟨?_, Tag.nodup_unique _, fun tag => ?_, ?_⟩
  · simp only [List.forall_mem_append, List.mem_singleton, forall_eq]
    exact ⟨fun other present => kept other (joins.shapes other present), kept link shapes⟩
  · simp [Relation.merge, Tag.mem_unique, joins.tag_iff, or_and_right, exists_or]
  · have further := joins.isFirst.earliest link.source
    rwa [← filterMap_source_singleton, ← List.filterMap_append] at further

/-- Links that say what a relation is are merged into it. -/
theorem Joins.joinAll (joins : Joins first relation)
    (shapes : ∀ link ∈ second, link.Shapes relation) :
    ∃ last, joinAll (some relation) second = some last ∧ Joins (first ++ second) last := by
  induction second generalizing first relation with
  | nil => exact ⟨relation, rfl, by simpa using joins⟩
  | cons link second ih =>
      obtain ⟨here, further⟩ := List.forall_mem_cons.mp shapes
      have merged := joins.merge here
      -- Merging changes tags and the place, so what is still to come says what the relation is.
      have still : ∀ other ∈ second, other.Shapes (relation.merge link) := by
        intro other present
        obtain ⟨id_eq, kind_eq, sourceId_eq, targetId_eq, name_eq⟩ := further other present
        refine ⟨id_eq, kind_eq, sourceId_eq, targetId_eq, ?_⟩
        rw [(merged.shapes link (by simp)).name_eq, ← here.name_eq, name_eq]
      obtain ⟨last, last_eq, joined⟩ := ih merged still
      exact ⟨last, last_eq, by simpa using joined⟩

/-- Links that agree make one relation together. -/
theorem Agree.exists_joins (agree : Agree links) {id : String} (same : ∀ link ∈ links, link.id = id)
    (some_link : links ≠ []) : ∃ relation, joinAll none links = some relation ∧
      Joins links relation := by
  obtain ⟨front, further, rfl⟩ := List.exists_cons_of_ne_nil some_link
  refine (joins_toRelation front).joinAll fun other present => ?_
  have front_id := same front List.mem_cons_self
  have other_id := same other (List.mem_cons_of_mem front present)
  obtain ⟨kinds, sources, targets, names⟩ := agree front List.mem_cons_self other
    (List.mem_cons_of_mem front present) (front_id.trans other_id.symm)
  exact ⟨front_id.trans other_id.symm, kinds, sources, targets, names⟩

/-- The relation that a table holds at an id is what the links with this id make together. -/
theorem Agree.joins_of_get? (agree : Agree links) {id : String}
    (found : (Link.table links).get? id = some relation) :
    Joins (withId links id) relation := by
  rw [Link.table, get?_foldl_addTo, Ordered.get?_nil] at found
  have some_link : withId links id ≠ [] := by
    intro none_there
    rw [none_there] at found
    exact nomatch found
  have agree' : Agree (withId links id) := agree.of_subset (List.filter_subset_self links)
  obtain ⟨joined, joined_eq, joins⟩ :=
    agree'.exists_joins (fun link present => (mem_withId.mp present).2) some_link
  exact Option.some.inj (found.symm.trans joined_eq) ▸ joins

/-- The ids of a table are those of the links. -/
theorem mem_keys_table {id : String} :
    id ∈ Ordered.keys (Link.table links) ↔ ∃ link ∈ links, link.id = id := by
  have tabulates := tabulates_table links
  constructor
  · intro present
    obtain ⟨⟨_, relation⟩, entry_mem, rfl⟩ := List.mem_map.mp present
    obtain ⟨link, link_mem, same, _⟩ := (tabulates.sums _ relation entry_mem).from_link
    exact ⟨link, link_mem, same⟩
  · rintro ⟨link, link_mem, rfl⟩
    exact tabulates.complete link link_mem

/-! ## Links that say nothing -/

/-- The links that say something. -/
def saying (links : List Link) : List Link :=
  links.filter fun link => !link.isVoid

theorem mem_saying : link ∈ saying links ↔ link ∈ links ∧ link.isVoid = false := by
  simp [saying]

/-- Of links that agree, all with one id say something or none does. -/
theorem Agree.withId_saying (agree : Agree links) {id : String}
    (something : ∃ link ∈ links, link.isVoid = false ∧ link.id = id) :
    withId (saying links) id = withId links id := by
  obtain ⟨link, link_mem, not_void, rfl⟩ := something
  rw [withId, saying, List.filter_filter]
  refine List.filter_congr fun other other_mem => ?_
  by_cases same : other.id = link.id
  · obtain ⟨kinds, sources, targets, _⟩ := agree other other_mem link link_mem same
    have other_not_void : other.isVoid = false := by
      rw [isVoid, kinds, sources, targets]
      exact not_void
    simp [other_not_void]
  · simp [same]

end Link

/-! ## Drafts -/

namespace Draft

theorem relations_foldl_relate (draft : Draft) (links : List Link) :
    (links.foldl relate draft).relations
      = (Link.saying links).foldl Link.addTo draft.relations := by
  induction links generalizing draft with
  | nil => rfl
  | cons link links ih =>
      have step : draft.relate link = draft.apply (.relate link) := rfl
      rw [List.foldl_cons, ih, step, relations_apply, Edit.link?, Link.saying, Link.saying,
        List.filter_cons]
      cases link.isVoid <;> rfl

/-- Relations that are added to a draft in another order become the same. In a draft without
relations, each id of a link that says something gets what all links with this id make together. -/
theorem relate_ignores_order (draft : Draft) (keyed : Link.Keyed draft.relations)
    (links shuffled : List Link) (perm : links.Perm shuffled) (agree : Link.Agree links)
    (counts : ∀ link ∈ links, ∀ place ∈ link.source, place.CountsFromOne) :
    let related := links.foldl relate draft
    (shuffled.foldl relate draft).toModel.canonical.relations
        = related.toModel.canonical.relations ∧
      (draft.relations = [] →
        (∀ id, id ∈ Ordered.keys related.relations ↔
          ∃ link ∈ links, link.isVoid = false ∧ link.id = id) ∧
        ∀ id relation, related.relations.get? id = some relation →
          Link.Joins (Link.withId links id) relation) := by
  intro related
  have saying_subset : Link.saying links ⊆ links := List.filter_subset_self links
  have agree' : Link.Agree (Link.saying links) := agree.of_subset saying_subset
  constructor
  · have sorted := keyed.canonical_eq_of_perm agree'
      (fun link present => counts link (saying_subset present)) (perm.filter _)
    rw [← Link.saying, ← relations_foldl_relate, ← relations_foldl_relate] at sorted
    exact sorted.symm
  · intro empty
    have table_eq : related.relations = Link.table (Link.saying links) := by
      rw [relations_foldl_relate, empty, Link.table]
    have key_iff : ∀ id, id ∈ Ordered.keys related.relations ↔
        ∃ link ∈ links, link.isVoid = false ∧ link.id = id := by
      intro id
      simp only [table_eq, Link.mem_keys_table, Link.mem_saying, and_assoc]
    refine ⟨key_iff, fun id relation found => ?_⟩
    have known : id ∈ Ordered.keys related.relations :=
      Ordered.isSome_get?_iff.mp (by rw [found]; rfl)
    rw [← agree.withId_saying ((key_iff id).mp known)]
    rw [table_eq] at found
    exact agree'.joins_of_get? found

/-- Two associations of a box with its items, and a dependency that says nothing between them. -/
def itemLinks : List Link :=
  [{ kind := .association, sourceId := "c:box", targetId := "c:item", tags := [⟨"member", "two"⟩]
     source := some { file := "box.ts", line := some 7, col := some 3 } },
    { kind := .dependency, sourceId := "c:box", targetId := "c:box" },
    { kind := .association, sourceId := "c:box", targetId := "c:item", tags := [⟨"member", "one"⟩]
      source := some { file := "box.ts", line := some 7 } }]

/-- A draft of a program without files. -/
def blankDraft : Draft :=
  start { tree := { top := .directory [] }, root := .absolute ["project"], files := [] } {} true

/-- Both associations become one with the tags of both, at the place without a column, whichever
is added first. -/
theorem itemLinks_ignore_order :
    let related := itemLinks.foldl relate blankDraft
    let shuffled := itemLinks.reverse.foldl relate blankDraft
    (related.toModel.relations.map (·.tags), shuffled.toModel.relations.map (·.tags))
        = ([[⟨"member", "two"⟩, ⟨"member", "one"⟩]], [[⟨"member", "one"⟩, ⟨"member", "two"⟩]]) ∧
      shuffled.toModel.canonical.relations = related.toModel.canonical.relations ∧
      ∀ id relation, related.relations.get? id = some relation →
        relation.source = some { file := "box.ts", line := some 7 } ∧
          Link.Joins (Link.withId itemLinks id) relation := by
  intro related shuffled
  have tags_eq : (related.toModel.relations.map (·.tags), shuffled.toModel.relations.map (·.tags))
      = ([[⟨"member", "two"⟩, ⟨"member", "one"⟩]], [[⟨"member", "one"⟩, ⟨"member", "two"⟩]]) := by
    decide +kernel
  have agree : Link.Agree itemLinks := by decide +kernel
  have counts : ∀ link ∈ itemLinks, ∀ place ∈ link.source, place.CountsFromOne := by
    simp only [itemLinks, List.mem_cons, List.not_mem_nil, or_false, forall_eq_or_imp, forall_eq]
    refine ⟨?_, by simp, ?_⟩ <;> rintro place ⟨⟩ <;> constructor <;> simp
  have first_place : ∀ entry ∈ related.relations,
      entry.2.source = some { file := "box.ts", line := some 7 } := by decide +kernel
  obtain ⟨same, described⟩ := relate_ignores_order blankDraft Link.keyed_nil itemLinks
    itemLinks.reverse (List.reverse_perm _).symm agree counts
  refine ⟨tags_eq, same, fun id relation found => ?_⟩
  exact ⟨first_place _ (Ordered.mem_of_get? found), (described rfl).2 id relation found⟩

end Draft

end CodeGraph
