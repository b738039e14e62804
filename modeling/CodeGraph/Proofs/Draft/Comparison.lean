import CodeGraph.Proofs.Draft.Runs

/-!
# Comparing the results of runs

What a run leaves in an empty draft follows from its edits: the relations are those that its links
make, and the findings stand in the order in which they were taken. Where the edits of one run are
those of another one, thinned, the relations of the two runs can be compared.
-/

namespace CodeGraph

/-- The second relation has the id, the kind, the ends and all tags of the first one. -/
structure Relation.CompletedBy (relation other : Relation) : Prop where
  /-- The id is the same. -/
  id_eq : other.id = relation.id
  /-- So is the kind. -/
  kind_eq : other.kind = relation.kind
  /-- Both start from the same classifier. -/
  source_eq : other.sourceId = relation.sourceId
  /-- Both lead to the same classifier. -/
  target_eq : other.targetId = relation.targetId
  /-- No tag is lost. -/
  tags_subset : relation.tags ⊆ other.tags

namespace Draft

/-! ## What a run leaves -/

/-- The relations of a draft. -/
def edges (draft : Draft) : List Relation :=
  Ordered.values draft.relations

/-- The edits that complete a draft. -/
def completeEdits (draft : Draft) : List Edit :=
  draft.runEdits (Pass.scheduled draft.options)

/-- The links that are added on the way. -/
def completeLinks (draft : Draft) : List Link :=
  draft.completeEdits.filterMap Edit.link?

theorem complete_eq (draft : Draft) : draft.complete = draft.applyAll draft.completeEdits :=
  runPasses_eq draft _

section

variable (program : Program) (options : ExtractOptions) (reporting : Bool)

theorem edges_complete :
    (start program options reporting).complete.edges
      = Ordered.values (Link.table (start program options reporting).completeLinks) := by
  rw [edges, complete_eq, relations_applyAll]
  rfl

theorem findings_complete :
    (start program options reporting).complete.findings
      = if reporting then (start program options reporting).completeEdits.filterMap Edit.finding?
        else [] := by
  rw [complete_eq, findings_applyAll]
  rfl

theorem givenUp_complete :
    (start program options reporting).complete.givenUp
      = (start program options reporting).completeEdits.any Edit.givesUp := by
  rw [complete_eq, givenUp_applyAll]
  rfl

end

/-! ## Relations of thinned links -/

theorem filter_values_table {links : List Link} (free : Link.CollisionFree links)
    (keep : RelationKind → Bool) :
    (Ordered.values (Link.table links)).filter (fun relation => keep relation.kind)
      = Ordered.values (Link.table (links.filter fun link => keep link.kind)) := by
  rw [← Link.filter_table free, Ordered.values, List.filter_map]
  rfl

variable {stays goes : Link → Prop} {fewer more : List Link} {relation : Relation}
  (thins : Thinning stays goes fewer more)
include thins

/-- Thinned links make the same relations of kinds that nothing that goes has. -/
theorem filter_table_eq_of_thinning (free : Link.CollisionFree more) (keep : RelationKind → Bool)
    (gone : ∀ link, goes link → keep link.kind = false) :
    (Ordered.values (Link.table more)).filter (fun relation => keep relation.kind)
      = (Ordered.values (Link.table fewer)).filter fun relation => keep relation.kind := by
  rw [filter_values_table free, filter_values_table (free.of_subset thins.sublist.subset),
    thins.filter_eq gone]

/-- The relations of thinned links are completed by those of all links. -/
theorem exists_completedBy (free : Link.CollisionFree more)
    (present : relation ∈ Ordered.values (Link.table fewer)) :
    ∃ other ∈ Ordered.values (Link.table more), relation.CompletedBy other := by
  obtain ⟨other, other_mem, id_eq, kind_eq, source_eq, target_eq, tags_subset⟩ :=
    Link.exists_completed free thins.sublist.subset present
  exact ⟨other, other_mem, id_eq, kind_eq, source_eq, target_eq, tags_subset⟩

/-- A relation whose id is new comes from a link that goes. -/
theorem exists_link_that_goes (present : relation ∈ Ordered.values (Link.table more))
    (new : ∀ other ∈ Ordered.values (Link.table fewer), other.id ≠ relation.id) :
    ∃ link, goes link ∧ link.kind = relation.kind ∧ link.tags ⊆ relation.tags := by
  obtain ⟨link, link_mem, fresh, kind, tags⟩ := Link.exists_new_link present new
  exact ⟨link, (thins.mem_or_goes link link_mem).resolve_left fresh, kind, tags⟩

/-- The relations of thinned links come from links that stay. -/
theorem exists_link_that_stays (present : relation ∈ Ordered.values (Link.table fewer)) :
    ∃ link, stays link ∧ link.kind = relation.kind := by
  obtain ⟨⟨id, _⟩, entry_mem, rfl⟩ := List.mem_map.mp present
  obtain ⟨link, link_mem, _, kind, _⟩ :=
    ((Link.tabulates_table fewer).sums id _ entry_mem).from_link
  exact ⟨link, thins.stays_of_mem link link_mem, kind⟩

end Draft

end CodeGraph
