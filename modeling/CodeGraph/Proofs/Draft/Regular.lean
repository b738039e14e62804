import CodeGraph.Proofs.Draft.Entries
import CodeGraph.Proofs.Draft.PassEdits
import CodeGraph.Proofs.Model.Members

/-!
# Regular drafts

In a regular draft elements stand under their ids, no classifier has two members, roles or tags of
one name, a member has the id of its owner and its name, no relation has a tag twice, and relations
that would say nothing about a single classifier join two. An edit fits when it brings in nothing
else; every edit that fits leaves a regular draft regular, and all edits of all passes fit.
-/

namespace CodeGraph

open Edit

/-! ## Regular classifiers -/

/-- The attribute has the id of its owner and its name, and no key has two tags. -/
structure Attribute.OwnedBy (owner : String) (member : Attribute) : Prop where
  id_eq : member.id = some (attributeId owner member.name)
  tags_nodup : (Tag.keys member.tags).Nodup

/-- The operation has the id of its owner and its name. -/
structure Operation.OwnedBy (owner : String) (operation : Operation) : Prop where
  id_eq : operation.id = some (operationId owner operation.name)

/-- Members, roles and tags have names of their own, and members have the ids that belong to
them. -/
structure Classifier.Regular (classifier : Classifier) : Prop where
  attributes_nodup : (classifier.attributes.map (·.name)).Nodup
  attributes_owned : ∀ member ∈ classifier.attributes, member.OwnedBy classifier.id
  operations_nodup : (classifier.operations.map (·.name)).Nodup
  operations_owned : ∀ operation ∈ classifier.operations, operation.OwnedBy classifier.id
  stereotypes_nodup : (classifier.stereotypes.map (·.name)).Nodup
  tags_nodup : (Tag.keys classifier.tags).Nodup

namespace Classifier

variable {classifier : Classifier}

theorem Regular.addStereotype (regular : classifier.Regular) (name : String) :
    (classifier.addStereotype name).Regular := by
  rw [Classifier.addStereotype]
  split
  · exact regular
  next fresh =>
    have distinct : ∀ role ∈ classifier.stereotypes, role.name ≠ name := by
      intro role role_mem same
      exact fresh (List.any_eq_true.mpr ⟨role, role_mem, beq_iff_eq.mpr same⟩)
    exact { regular with
      stereotypes_nodup := nodup_map_concat regular.stereotypes_nodup distinct }

theorem Regular.setTag (regular : classifier.Regular) (key value : String) :
    (classifier.setTag key value).Regular :=
  { regular with tags_nodup := Tag.nodup_keys_set regular.tags_nodup key value }

theorem Regular.addAttribute (regular : classifier.Regular) {member : Attribute}
    (owned : member.OwnedBy classifier.id) : (classifier.addAttribute member).Regular := by
  rw [Classifier.addAttribute]
  split
  · exact regular
  next fresh =>
    -- Ids are compared, but members with one name would have one id.
    have distinct : ∀ other ∈ classifier.attributes, other.name ≠ member.name := by
      intro other other_mem same
      refine fresh (List.any_eq_true.mpr ⟨other, other_mem, beq_iff_eq.mpr ?_⟩)
      rw [(regular.attributes_owned other other_mem).id_eq, owned.id_eq, same]
    exact { regular with
      attributes_nodup := nodup_map_concat regular.attributes_nodup distinct
      attributes_owned :=
        List.forall_mem_append.mpr ⟨regular.attributes_owned, by simpa using owned⟩ }

theorem Regular.addOperation (regular : classifier.Regular) {operation : Operation}
    (owned : operation.OwnedBy classifier.id) : (classifier.addOperation operation).Regular := by
  rw [Classifier.addOperation]
  split
  · exact regular
  next fresh =>
    have distinct : ∀ other ∈ classifier.operations, other.name ≠ operation.name := by
      intro other other_mem same
      refine fresh (List.any_eq_true.mpr ⟨other, other_mem, beq_iff_eq.mpr ?_⟩)
      rw [(regular.operations_owned other other_mem).id_eq, owned.id_eq, same]
    exact { regular with
      operations_nodup := nodup_map_concat regular.operations_nodup distinct
      operations_owned :=
        List.forall_mem_append.mpr ⟨regular.operations_owned, by simpa using owned⟩ }

theorem Regular.updateAttribute (regular : classifier.Regular) {fresh : Attribute}
    {change : Attribute → Attribute} (owned : fresh.OwnedBy classifier.id)
    (name_kept : ∀ member, (change member).name = member.name)
    (owned_kept : ∀ member, member.OwnedBy classifier.id → (change member).OwnedBy classifier.id) :
    (classifier.updateAttribute fresh change).Regular :=
  { regular with
    attributes_nodup := names_updateAttribute name_kept ▸ nodup_addLast regular.attributes_nodup _
    attributes_owned := forall_updateAttribute regular.attributes_owned owned owned_kept }

end Classifier

/-! ## Edits that fit -/

namespace ClassifierChange

/-- The members that a change brings in belong to the classifier. -/
def Fits (owner : String) : ClassifierChange → Prop
  | .attribute member | .role member _ | .binding member _ => member.OwnedBy owner
  | .operation member => member.OwnedBy owner
  | .stereotype _ | .tag _ _ => True

/-- A change that fits leaves a classifier regular. -/
theorem regular_apply {classifier : Classifier} (regular : classifier.Regular)
    {change : ClassifierChange} (fits : change.Fits classifier.id) :
    (change.apply classifier).Regular := by
  cases change with
  | stereotype name => exact regular.addStereotype name
  | tag key value => exact regular.setTag key value
  | «attribute» member => exact regular.addAttribute fits
  | operation member => exact regular.addOperation fits
  | role member mark =>
      refine regular.updateAttribute fits (fun _ => rfl) fun other owned => ?_
      exact ⟨owned.id_eq, Tag.nodup_keys_replace owned.tags_nodup mark⟩
  | binding member tags =>
      refine regular.updateAttribute fits (fun _ => rfl) fun other owned => ?_
      exact ⟨owned.id_eq, Tag.nodup_keys_foldl_set owned.tags_nodup tags⟩

end ClassifierChange

namespace Edit

/-- What the edit brings in is regular. -/
def Fits : Edit → Prop
  | .classifier _ added => added.Regular
  | .change id alteration => alteration.Fits id
  | .relate link => link.kind.isSubtyping = true → link.sourceId ≠ link.targetId
  | .bind _ _ | .declare _ _ | .find _ | .giveUp => True

end Edit

/-- A declared classifier has nothing yet. -/
theorem Declaring.Declares.fits {source : Syntax.Source} {exportedNames : List String}
    {candidate : Candidate} {item : Declared} {edit : Edit}
    (declares : Declares source exportedNames candidate item edit) : edit.Fits := by
  cases declares with
  | classifier => constructor <;> simp [classifierOf, Tag.keys]
  | tag | declare => trivial

namespace Edit

theorem MadeFor.fits {reader : Draft} {links : RelationKind → List Tag → Prop}
    {declaration : Declaration} {edit : Edit} (made : edit.MadeFor reader links declaration) :
    edit.Fits := by
  cases made with
  | link _ _ _ proper => exact proper
  | stereotype | tag | find | giveUp => trivial
  | «attribute» | role | binding => exact ⟨rfl, by simp [Members.attributeOf, Tag.keys]⟩
  | operation written => exact ⟨written.id_eq⟩

/-- Everything that passes bring in is regular. -/
theorem Made.fits {program : Program} {edit : Edit} (made : edit.Made program) : edit.Fits := by
  cases made with
  | bind | stereotype | tag | find | giveUp => trivial
  | declares _ _ one => exact (Declaring.mem_declareEdits.mp one).fits
  | ofDeclaration _ made => exact made.fits
  | fileModule => constructor <;> simp [Draft.fileModule, Tag.keys]
  | route _ distinct =>
      constructor <;> simp_all [RouteFramework.classifier, Tag.keys]
  | relate _ _ unwritten =>
      have plain := RelationKind.isSubtyping_of_not_isWritten unwritten
      exact fun subtyping => absurd subtyping (by simp [plain])

end Edit

/-! ## Regular relations -/

/-- The relation has no tag twice, and it leads from a classifier to itself only if it is an
association or leads to a route. -/
structure Relation.Regular (relation : Relation) : Prop where
  tags_nodup : relation.tags.Nodup
  loop_kind : relation.sourceId = relation.targetId →
    relation.kind = .association ∨ relation.kind = .routeTo

namespace Relation

variable {relation : Relation}

theorem Regular.merge (regular : relation.Regular) (link : Link) :
    (relation.merge link).Regular :=
  ⟨Tag.nodup_unique _, regular.loop_kind⟩

/-- A link that fits and says something makes a regular relation. -/
theorem regular_toRelation {link : Link} (fits : (Edit.relate link).Fits)
    (something : link.isVoid = false) : link.toRelation.Regular := by
  refine ⟨Tag.nodup_unique _, fun loop => ?_⟩
  have same : link.sourceId = link.targetId := loop
  have reflexive : link.kind.isIrreflexive = false := by simpa [Link.isVoid, same] using something
  have plain : link.kind.isSubtyping ≠ true := fun subtyping => fits subtyping same
  change link.kind = .association ∨ link.kind = .routeTo
  revert reflexive plain
  cases link.kind <;> decide

end Relation

/-! ## Regular drafts -/

/-- An edit that fits preserves what is regular. -/
theorem Edit.Fits.preserves {edit : Edit} (fits : edit.Fits) :
    edit.Preserves (fun id classifier => classifier.id = id ∧ classifier.Regular)
      (fun id relation => relation.id = id ∧ relation.Regular) := by
  cases edit with
  | classifier => exact ⟨rfl, fits⟩
  | change id change =>
      rintro classifier ⟨rfl, regular⟩
      exact ⟨ClassifierChange.apply_id classifier change,
        ClassifierChange.regular_apply regular fits⟩
  | relate link =>
      refine ⟨fun something => ⟨rfl, Relation.regular_toRelation fits something⟩, ?_⟩
      exact fun relation regular => ⟨regular.1, regular.2.merge link⟩
  | bind | declare | find | giveUp => trivial

namespace Draft

/-- Elements stand under their ids and are regular. -/
structure Regular (draft : Draft) : Prop where
  classifiers_nodup : (Ordered.keys draft.classifiers).Nodup
  relations_nodup : (Ordered.keys draft.relations).Nodup
  classifier_regular : ∀ id classifier, (id, classifier) ∈ draft.classifiers →
    classifier.id = id ∧ classifier.Regular
  relation_regular : ∀ id relation, (id, relation) ∈ draft.relations →
    relation.id = id ∧ relation.Regular

variable {draft : Draft}

theorem start_regular (program : Program) (options : ExtractOptions) (reporting : Bool) :
    (start program options reporting).Regular := by
  constructor <;> simp [start, Ordered.keys]

theorem nodup_classifiers_apply (nodup : (Ordered.keys draft.classifiers).Nodup) (edit : Edit) :
    (Ordered.keys (draft.apply edit).classifiers).Nodup := by
  cases edit with
  | bind | declare | giveUp => exact nodup
  | find | relate =>
      simp only [apply, relate]
      split <;> exact nodup
  | classifier file added =>
      simp only [apply, addClassifier]
      split
      · exact nodup
      next absent =>
        have fresh : added.id ∉ Ordered.keys draft.classifiers :=
          fun present => absent (Ordered.isSome_get?_iff.mpr present)
        rw [← Ordered.set_of_absent fresh]
        exact Ordered.nodup_keys_set nodup
  | change =>
      simp only [apply, changeClassifier]
      split
      · exact Ordered.nodup_keys_set nodup
      · exact nodup

theorem nodup_relations_apply (nodup : (Ordered.keys draft.relations).Nodup) (edit : Edit) :
    (Ordered.keys (draft.apply edit).relations).Nodup := by
  rw [relations_apply]
  cases edit.link? with
  | none => exact nodup
  | some link => exact Ordered.nodup_keys_set nodup

/-- An edit that fits leaves a draft regular. -/
theorem Regular.apply (regular : draft.Regular) {edit : Edit} (fits : edit.Fits) :
    (draft.apply edit).Regular := by
  have before : draft.Throughout _ _ := ⟨regular.classifier_regular, regular.relation_regular⟩
  have after := before.apply fits.preserves
  exact ⟨nodup_classifiers_apply regular.classifiers_nodup edit,
    nodup_relations_apply regular.relations_nodup edit, after.of_classifier, after.of_relation⟩

theorem Regular.applyAll (regular : draft.Regular) {edits : List Edit} (fit : All Fits edits) :
    (draft.applyAll edits).Regular :=
  fit.keeps (fun _ _ regular fits => regular.apply fits) regular

/-- Every draft that passes reach is regular. -/
theorem runPasses_regular (program : Program) (options : ExtractOptions) (reporting : Bool)
    (passes : List Pass) : ((start program options reporting).runPasses passes).Regular := by
  rw [runPasses_eq]
  have made := (start_about program options reporting).runEdits_made passes
  exact (start_regular program options reporting).applyAll (made.mono fun _ => Made.fits)

end Draft

end CodeGraph
