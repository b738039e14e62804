import CodeGraph.Proofs.Draft.Dependencies
import CodeGraph.Proofs.Draft.PassEdits

/-!
# Associations come with dependencies

Where dependencies are asked for, a written type that associates a classifier with another one also
makes the first depend on the second. No pass associates classifiers in another way, so every
association between two classifiers of a model has a dependency beside it, which tells that a type
is behind it.
-/

namespace CodeGraph

open Syntax Edit

/-! ## Pairs of links -/

/-- The second link is the dependency that a type makes where it makes the first one. -/
structure Link.AccompaniedBy (link other : Link) : Prop where
  /-- It is a dependency. -/
  kind_eq : other.kind = .dependency
  /-- It starts from the same classifier. -/
  source_eq : other.sourceId = link.sourceId
  /-- It leads to the same classifier. -/
  target_eq : other.targetId = link.targetId
  /-- It tells where the type stands. -/
  origin_mem : ∃ origin ∈ Links.typeOrigins, ⟨"origin", origin⟩ ∈ other.tags

namespace Edit

/-- The edit associates no classifiers. -/
def AssociatesNone : Edit → Prop
  | .relate link => link.kind ≠ .association
  | _ => True

/-- Every association among the edits is accompanied by a dependency. -/
structure Paired (edits : List Edit) : Prop where
  /-- There is such a dependency among them. -/
  accompanied : ∀ link, .relate link ∈ edits → link.kind = .association →
    ∃ other, .relate other ∈ edits ∧ link.AccompaniedBy other

theorem Paired.of_none {edits : List Edit} (none : All AssociatesNone edits) : Paired edits :=
  ⟨fun _ present association => absurd association (none.of_mem _ present)⟩

theorem Paired.append {first second : List Edit} (left : Paired first) (right : Paired second) :
    Paired (first ++ second) := by
  refine ⟨fun link present association => ?_⟩
  rcases List.mem_append.mp present with early | late
  · obtain ⟨other, other_mem, accompanied⟩ := left.accompanied link early association
    exact ⟨other, List.mem_append_left _ other_mem, accompanied⟩
  · obtain ⟨other, other_mem, accompanied⟩ := right.accompanied link late association
    exact ⟨other, List.mem_append_right _ other_mem, accompanied⟩

theorem Paired.flatMap {α : Type} {items : List α} {edits : α → List Edit}
    (each : ∀ item ∈ items, Paired (edits item)) : Paired (items.flatMap edits) := by
  refine ⟨fun link present association => ?_⟩
  obtain ⟨item, item_mem, present⟩ := List.mem_flatMap.mp present
  obtain ⟨other, other_mem, accompanied⟩ :=
    (each item item_mem).accompanied link present association
  exact ⟨other, List.mem_flatMap.mpr ⟨item, item_mem, other_mem⟩, accompanied⟩

theorem MadeFor.associatesNone {reader : Draft} {links : RelationKind → List Tag → Prop}
    {declaration : Declaration} {edit : Edit} (made : edit.MadeFor reader links declaration)
    (unwritten : ∀ kind tags, links kind tags → kind.isWritten = false) : edit.AssociatesNone := by
  cases made with
  | link _ linked =>
      rintro rfl
      exact absurd (unwritten _ _ linked) (by simp [RelationKind.isWritten])
  | stereotype | tag | «attribute» | operation | role | binding | find | giveUp => trivial

end Edit

/-! ## Types -/

section

variable (draft : Draft) (declaration : Declaration)

theorem Links.ofUses_associateNone (body : Option Node) :
    All AssociatesNone (Links.ofUses draft declaration body) := by
  cases body with
  | none => exact all_nil
  | some body =>
      rw [Links.ofUses]
      split
      · refine .flatMap fun node _ => ?_
        split
        · exact all_nil
        · refine .withMeaning (fun symbol _ => ?_) trivial
          cases symbol with
          | none => exact all_nil
          | some symbol => exact .single (by rintro ⟨⟩)
      · exact all_nil

theorem Members.supertypeEdits_associateNone {kind : RelationKind} (node : Node)
    (subtyping : kind.isSubtyping = true) :
    All AssociatesNone (Members.supertypeEdits draft declaration kind node) := by
  rw [Members.supertypeEdits]
  refine .withMeaning (fun symbol _ => ?_) trivial
  cases symbol with
  | none => exact all_nil
  | some symbol =>
      simp only
      split
      · exact all_nil
      · refine .single ?_
        rintro rfl
        cases subtyping

end

section

variable {draft : Draft} {declaration : Declaration} (deps : draft.options.includeDeps = true)
include deps

theorem Links.ofTypeName_paired (place : SourceRef) (member : String) {origin : String}
    (listed : origin ∈ Links.typeOrigins) (name : String × Bool) :
    Paired (Links.ofTypeName draft declaration place member origin name) := by
  rw [Links.ofTypeName, Draft.withMeaningAt, Draft.withMeaning]
  split
  next symbol _ =>
    simp only [if_pos deps]
    split
    · refine ⟨fun link present association => ?_⟩
      rcases List.mem_cons.mp present with same | later
      · obtain rfl := Edit.relate.inj same
        exact ⟨_, .tail _ (.head _), rfl, rfl, rfl, origin, listed, .head _⟩
      · obtain rfl := Edit.relate.inj (List.mem_singleton.mp later)
        cases association
    · exact .of_none (.single (by rintro ⟨⟩))
  next => exact .of_none all_nil
  next => exact .of_none (.single trivial)

theorem Links.ofType_paired (type : Option Node) (member : String) {origin : String}
    (listed : origin ∈ Links.typeOrigins) (direct : Bool) :
    Paired (Links.ofType draft declaration type member origin direct) := by
  cases type with
  | none => exact .of_none all_nil
  | some node => exact .flatMap fun name _ => Links.ofTypeName_paired deps _ member listed name

/-- The pieces that a declaration is read in pair associations with dependencies. -/
theorem Edit.composed_paired : Composed draft declaration Paired where
  nil := .of_none all_nil
  append := .append
  single made := .of_none (.single (made.associatesNone fun _ _ => False.elim))
  ofType type member _ direct listed := Links.ofType_paired deps type member listed direct
  ofUses body := .of_none (Links.ofUses_associateNone draft declaration body)
  supertype _ node subtyping :=
    .of_none (Members.supertypeEdits_associateNone draft declaration node subtyping)

end

/-! ## Passes -/

namespace Draft

variable {program : Program} {draft : Draft}

/-- What a pass makes that reads no types associates nothing. -/
theorem associatesNone_of_makes {pass : Pass} (other : pass ∉ [Pass.members, .react])
    {routes : Set String} {edit : Edit} (makes : pass.Makes draft routes edit) :
    edit.AssociatesNone := by
  cases makes with
  | bind => trivial
  | declares _ _ declares => cases declares <;> trivial
  | members | described | used => simp at other
  | wired _ made => exact made.associatesNone fun _ _ => Angular.Wired.unwritten
  | routed _ _ routed => cases routed <;> first | trivial | exact nofun
  | applied _ _ _ applied => cases applied <;> first | trivial | exact nofun
  | joined _ joined =>
      cases joined with
      | link kind_eq => simp [AssociatesNone, kind_eq]
      | origin | target | find => trivial

theorem reactEdits_paired (deps : draft.options.includeDeps = true) : Paired draft.reactEdits := by
  refine .append (.append ?_ ?_) (.flatMap fun source _ => .of_none ?_)
  · exact .flatMap fun declaration _ => (composed_paired deps).componentEdits
  · exact .flatMap fun declaration _ => (composed_paired deps).contextEdits
  · refine (React.useEdits_used _ _ source).mono fun _ used => ?_
    cases used <;> first | trivial | exact nofun

/-- Every pass pairs associations with dependencies where dependencies are asked for. -/
theorem edits_paired (deps : draft.options.includeDeps = true) (pass : Pass) :
    Paired (pass.edits draft) := by
  by_cases types : pass ∈ [Pass.members, .react]
  · rcases List.mem_cons.mp types with rfl | last
    · exact .flatMap fun declaration _ => (composed_paired deps).declarationEdits
    · obtain rfl := List.mem_singleton.mp last
      exact reactEdits_paired deps
  · exact .of_none ((pass.edits_make draft (List.Subset.refl _)).mono
      fun _ => associatesNone_of_makes types)

/-- So do all passes of a run. -/
theorem runEdits_paired (deps : draft.options.includeDeps = true) (passes : List Pass) :
    Paired (draft.runEdits passes) := by
  induction passes generalizing draft with
  | nil => exact .of_none all_nil
  | cons pass passes ih =>
      have same : (pass.run draft).options = draft.options := by
        rw [Pass.run_eq, options_applyAll]
      exact (edits_paired deps pass).append (ih (same ▸ deps))

/-- Where dependencies are asked for, every association between two classifiers of the model has a
dependency beside it that a written type made, as long as ids do not collide. -/
theorem complete_associations (program : Program) (options : ExtractOptions) (reporting : Bool)
    (deps : options.includeDeps = true)
    (free : Link.CollisionFree (start program options reporting).completeLinks) :
    let model := (start program options reporting).complete.toModel
    ∀ relation ∈ model.relations, relation.kind = .association →
      relation.sourceId ≠ relation.targetId →
        ∃ other ∈ model.relations, other.kind = .dependency ∧
          other.sourceId = relation.sourceId ∧ other.targetId = relation.targetId ∧
          (⟨"origin", "typeRef"⟩ ∈ other.tags ∨ ⟨"origin", "signature"⟩ ∈ other.tags) := by
  intro model relation present association apart
  have table : model.relations
      = Ordered.values (Link.table (start program options reporting).completeLinks) :=
    edges_complete program options reporting
  rw [table] at present ⊢
  obtain ⟨⟨id, _⟩, entry_mem, rfl⟩ := List.mem_map.mp present
  obtain ⟨link, link_mem, _, kind, source, target⟩ :=
    ((Link.tabulates_table _).sums id _ entry_mem).from_link
  obtain ⟨edit, edit_mem, added⟩ := List.mem_filterMap.mp link_mem
  obtain rfl := eq_relate_of_link? added
  have paired : Paired (start program options reporting).completeEdits :=
    runEdits_paired deps (Pass.scheduled options)
  obtain ⟨other, other_mem, accompanied⟩ :=
    paired.accompanied link edit_mem (kind.trans association)
  have said : (Edit.relate other).link? = some other := by
    have apart : other.sourceId ≠ other.targetId := by
      rwa [accompanied.source_eq, accompanied.target_eq, source, target]
    simp [link?, Link.isVoid, apart]
  obtain ⟨dependency, dependency_mem, kind_eq, source_eq, target_eq, tags⟩ :=
    Link.exists_relation_of_mem free (List.mem_filterMap.mpr ⟨_, other_mem, said⟩)
  refine ⟨dependency, dependency_mem, kind_eq.trans accompanied.kind_eq,
    source_eq.trans (accompanied.source_eq.trans source),
    target_eq.trans (accompanied.target_eq.trans target), ?_⟩
  obtain ⟨origin, listed, tagged⟩ := accompanied.origin_mem
  simp only [Links.typeOrigins, List.mem_cons, List.not_mem_nil, or_false] at listed
  rcases listed with rfl | rfl
  · exact .inl (tags tagged)
  · exact .inr (tags tagged)

/-- The class `Shelf` is associated with the type of its field, and depends on it. -/
theorem shelfProgram_associations :
    let options : ExtractOptions := { includeDeps := true }
    let model := (start shelfProgram options true).complete.toModel
    (options.includeDeps = true ∧
      model.relations.map (·.kind) = [.association, .dependency] ∧
      Link.CollisionFree (start shelfProgram options true).completeLinks) ∧
      ∀ relation ∈ model.relations, relation.kind = .association →
        relation.sourceId ≠ relation.targetId →
          ∃ other ∈ model.relations, other.kind = .dependency ∧
            other.sourceId = relation.sourceId ∧ other.targetId = relation.targetId ∧
            (⟨"origin", "typeRef"⟩ ∈ other.tags ∨ ⟨"origin", "signature"⟩ ∈ other.tags) := by
  intro options model
  have evaluated : options.includeDeps = true ∧
      model.relations.map (·.kind) = [.association, .dependency] ∧
      Link.CollisionFree (start shelfProgram options true).completeLinks := by decide +kernel
  exact ⟨evaluated, complete_associations shelfProgram options true evaluated.1 evaluated.2.2⟩

end Draft

end CodeGraph
