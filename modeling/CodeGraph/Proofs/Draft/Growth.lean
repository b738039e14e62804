import CodeGraph.Proofs.Draft.Places
import CodeGraph.Proofs.Draft.Regular

/-!
# Passes only add

Whatever is in a draft stays there. A classifier keeps what it is and gets members, roles and tags
at the end of its lists; a relation keeps what it is, gets tags at the end, keeps its name and never
moves to a later place. Packages and findings follow those that were there before.
-/

namespace CodeGraph

open Edit

/-! ## Classifiers -/

/-- The later classifier is the earlier one with members, roles and tags added at the end. An
attribute and the value of a tag may have changed. -/
structure Classifier.Grows (before after : Classifier) : Prop where
  id_eq : after.id = before.id
  name_eq : after.name = before.name
  kind_eq : after.kind = before.kind
  qualifiedName_eq : after.qualifiedName = before.qualifiedName
  packageId_eq : after.packageId = before.packageId
  visibility_eq : after.visibility = before.visibility
  source_eq : after.source = before.source
  attributes_prefix : before.attributes.map (·.name) <+: after.attributes.map (·.name)
  operations_prefix : before.operations <+: after.operations
  stereotypes_prefix : before.stereotypes <+: after.stereotypes
  tags_prefix : Tag.keys before.tags <+: Tag.keys after.tags

namespace Classifier

theorem Grows.refl (classifier : Classifier) : classifier.Grows classifier where
  id_eq := rfl
  name_eq := rfl
  kind_eq := rfl
  qualifiedName_eq := rfl
  packageId_eq := rfl
  visibility_eq := rfl
  source_eq := rfl
  attributes_prefix := List.prefix_rfl
  operations_prefix := List.prefix_rfl
  stereotypes_prefix := List.prefix_rfl
  tags_prefix := List.prefix_rfl

theorem Grows.trans {first second third : Classifier} (early : first.Grows second)
    (late : second.Grows third) : first.Grows third where
  id_eq := late.id_eq.trans early.id_eq
  name_eq := late.name_eq.trans early.name_eq
  kind_eq := late.kind_eq.trans early.kind_eq
  qualifiedName_eq := late.qualifiedName_eq.trans early.qualifiedName_eq
  packageId_eq := late.packageId_eq.trans early.packageId_eq
  visibility_eq := late.visibility_eq.trans early.visibility_eq
  source_eq := late.source_eq.trans early.source_eq
  attributes_prefix := early.attributes_prefix.trans late.attributes_prefix
  operations_prefix := early.operations_prefix.trans late.operations_prefix
  stereotypes_prefix := early.stereotypes_prefix.trans late.stereotypes_prefix
  tags_prefix := early.tags_prefix.trans late.tags_prefix

variable (classifier : Classifier)

theorem grows_addStereotype (name : String) :
    classifier.Grows (classifier.addStereotype name) := by
  rw [addStereotype]
  split
  · exact .refl classifier
  · exact { Grows.refl classifier with stereotypes_prefix := List.prefix_append .. }

theorem grows_setTag (key value : String) : classifier.Grows (classifier.setTag key value) := by
  have longer : Tag.keys classifier.tags <+: Tag.keys (Tag.set classifier.tags key value) :=
    Tag.keys_set classifier.tags key value ▸ prefix_addLast ..
  exact { Grows.refl classifier with tags_prefix := longer }

theorem grows_addAttribute (member : Attribute) :
    classifier.Grows (classifier.addAttribute member) := by
  rw [addAttribute]
  split
  · exact .refl classifier
  · exact { Grows.refl classifier with
      attributes_prefix := (List.prefix_append classifier.attributes [member]).map _ }

theorem grows_addOperation (member : Operation) :
    classifier.Grows (classifier.addOperation member) := by
  rw [addOperation]
  split
  · exact .refl classifier
  · exact { Grows.refl classifier with operations_prefix := List.prefix_append .. }

theorem grows_updateAttribute {change : Attribute → Attribute} (fresh : Attribute)
    (kept : ∀ member, (change member).name = member.name) :
    classifier.Grows (classifier.updateAttribute fresh change) := by
  have longer := prefix_addLast (classifier.attributes.map (·.name)) fresh.name
  rw [← names_updateAttribute kept] at longer
  exact { Grows.refl classifier with attributes_prefix := longer }

end Classifier

namespace ClassifierChange

/-- A change only adds to a classifier. -/
theorem grows_apply (classifier : Classifier) (change : ClassifierChange) :
    classifier.Grows (change.apply classifier) := by
  cases change with
  | stereotype name => exact classifier.grows_addStereotype name
  | tag key value => exact classifier.grows_setTag key value
  | «attribute» member => exact classifier.grows_addAttribute member
  | operation member => exact classifier.grows_addOperation member
  | role member mark => exact classifier.grows_updateAttribute member fun _ => rfl
  | binding member tags => exact classifier.grows_updateAttribute member fun _ => rfl

end ClassifierChange

/-! ## Relations -/

/-- The later relation is the earlier one with tags added at the end, perhaps with a name that it
had not, and written no later. -/
structure Relation.Grows (before after : Relation) : Prop where
  id_eq : after.id = before.id
  kind_eq : after.kind = before.kind
  sourceId_eq : after.sourceId = before.sourceId
  targetId_eq : after.targetId = before.targetId
  tags_prefix : before.tags <+: after.tags
  name_kept : ∀ name ∈ before.name, after.name = some name
  /-- A place stays or gives way to an earlier one. -/
  source_kept : ∀ place ∈ before.source, ∃ first ∈ after.source, first.rank ≤ place.rank

namespace Relation

theorem Grows.refl (relation : Relation) : relation.Grows relation where
  id_eq := rfl
  kind_eq := rfl
  sourceId_eq := rfl
  targetId_eq := rfl
  tags_prefix := List.prefix_rfl
  name_kept _ named := named
  source_kept place placed := ⟨place, placed, le_rfl⟩

theorem Grows.trans {first second third : Relation} (early : first.Grows second)
    (late : second.Grows third) : first.Grows third where
  id_eq := late.id_eq.trans early.id_eq
  kind_eq := late.kind_eq.trans early.kind_eq
  sourceId_eq := late.sourceId_eq.trans early.sourceId_eq
  targetId_eq := late.targetId_eq.trans early.targetId_eq
  tags_prefix := early.tags_prefix.trans late.tags_prefix
  name_kept name named := late.name_kept name (early.name_kept name named)
  source_kept place placed := by
    obtain ⟨middle, middle_placed, low⟩ := early.source_kept place placed
    obtain ⟨last, last_placed, lower⟩ := late.source_kept middle middle_placed
    exact ⟨last, last_placed, lower.trans low⟩

/-- A link only adds to a relation without repeated tags. -/
theorem grows_merge {relation : Relation} (nodup : relation.tags.Nodup) (link : Link) :
    relation.Grows (relation.merge link) where
  id_eq := rfl
  kind_eq := rfl
  sourceId_eq := rfl
  targetId_eq := rfl
  tags_prefix := Tag.prefix_unique_append nodup link.tags
  name_kept name named := by
    obtain named : relation.name = some name := named
    rw [merge, named]
    rfl
  source_kept place placed := by
    obtain placed : relation.source = some place := placed
    rw [merge, placed]
    exact SourceRef.exists_earliest place link.source

end Relation

/-! ## Drafts -/

namespace Draft

/-- The later draft has everything that the earlier one has. -/
structure Grows (before after : Draft) : Prop where
  classifier_kept : ∀ id, ∀ classifier ∈ before.classifier? id,
    ∃ later ∈ after.classifier? id, classifier.Grows later
  relation_kept : ∀ id, ∀ relation ∈ before.relations.get? id,
    ∃ later ∈ after.relations.get? id, relation.Grows later
  packages_prefix : before.packages <+: after.packages
  findings_prefix : before.findings <+: after.findings

theorem Grows.refl (draft : Draft) : draft.Grows draft where
  classifier_kept _ classifier present := ⟨classifier, present, .refl classifier⟩
  relation_kept _ relation present := ⟨relation, present, .refl relation⟩
  packages_prefix := List.prefix_rfl
  findings_prefix := List.prefix_rfl

theorem Grows.trans {first second third : Draft} (early : first.Grows second)
    (late : second.Grows third) : first.Grows third where
  classifier_kept id classifier present := by
    obtain ⟨middle, middle_present, growth⟩ := early.classifier_kept id classifier present
    obtain ⟨last, last_present, further⟩ := late.classifier_kept id middle middle_present
    exact ⟨last, last_present, growth.trans further⟩
  relation_kept id relation present := by
    obtain ⟨middle, middle_present, growth⟩ := early.relation_kept id relation present
    obtain ⟨last, last_present, further⟩ := late.relation_kept id middle middle_present
    exact ⟨last, last_present, growth.trans further⟩
  packages_prefix := early.packages_prefix.trans late.packages_prefix
  findings_prefix := early.findings_prefix.trans late.findings_prefix

variable {draft : Draft}

theorem grows_addClassifier (draft : Draft) (file : String) (added : Classifier) :
    draft.Grows (draft.apply (.classifier file added)) := by
  have packages_prefix := PackageMap.isPrefix_ensureFile draft.packages file
  rw [apply, addClassifier]
  split
  · exact { Grows.refl draft with packages_prefix }
  · refine { Grows.refl draft with packages_prefix, classifier_kept := ?_ }
    intro id classifier present
    refine ⟨classifier, ?_, .refl classifier⟩
    rw [classifier?] at present
    rw [classifier?, Ordered.get?_append, present, Option.some_or]
    rfl

theorem grows_changeClassifier (draft : Draft) (id : String) (change : ClassifierChange) :
    draft.Grows (draft.changeClassifier id change) := by
  rw [changeClassifier]
  split
  next old found =>
    refine { Grows.refl draft with classifier_kept := ?_ }
    intro other classifier present
    by_cases same : other = id
    · subst same
      obtain rfl := Option.some.inj (found.symm.trans present)
      exact ⟨_, Ordered.get?_set_self .., ClassifierChange.grows_apply old change⟩
    · exact ⟨classifier, (Ordered.get?_set_of_ne _ _ same).trans present, .refl classifier⟩
  next => exact .refl draft

theorem Regular.grows_relate (regular : draft.Regular) (link : Link) :
    draft.Grows (draft.relate link) := by
  rw [Draft.relate]
  split
  · exact .refl draft
  · refine { Grows.refl draft with relation_kept := ?_ }
    intro id relation present
    by_cases same : id = link.id
    · subst same
      -- The tags are united anew, so what is there stays in front only if no tag is there twice.
      have nodup := (regular.relation_regular _ relation (Ordered.mem_of_get? present)).2.tags_nodup
      refine ⟨relation.merge link, ?_, Relation.grows_merge nodup link⟩
      rw [Ordered.get?_set_self, (present : draft.relations.get? link.id = some relation)]
      rfl
    · exact ⟨relation, (Ordered.get?_set_of_ne _ _ same).trans present, .refl relation⟩

/-- An edit only adds to a regular draft. -/
theorem Regular.grows_apply (regular : draft.Regular) (edit : Edit) :
    draft.Grows (draft.apply edit) := by
  cases edit with
  | bind | declare | giveUp => exact { Grows.refl draft with }
  | classifier file added => exact draft.grows_addClassifier file added
  | change id change => exact draft.grows_changeClassifier id change
  | relate link => exact regular.grows_relate link
  | find finding =>
      rw [Draft.apply]
      split
      · exact { Grows.refl draft with findings_prefix := List.prefix_append .. }
      · exact .refl draft

theorem Regular.grows_applyAll (regular : draft.Regular) {edits : List Edit}
    (fit : All Fits edits) : draft.Grows (draft.applyAll edits) := by
  have kept : ∀ later edit, draft.Grows later ∧ later.Regular → Fits edit →
      draft.Grows (later.apply edit) ∧ (later.apply edit).Regular :=
    fun _ edit ⟨growth, regular⟩ fits =>
      ⟨growth.trans (regular.grows_apply edit), regular.apply fits⟩
  exact (fit.keeps kept ⟨.refl draft, regular⟩).1

/-- A pass only adds to a draft that passes reach. -/
theorem runPasses_grows (program : Program) (options : ExtractOptions) (reporting : Bool)
    (passes : List Pass) (pass : Pass) :
    ((start program options reporting).runPasses passes).Grows
      (pass.run ((start program options reporting).runPasses passes)) := by
  have about := runPasses_about program options reporting passes
  have regular := runPasses_regular program options reporting passes
  rw [Pass.run_eq]
  exact regular.grows_applyAll ((about.edits_made pass).mono fun _ => Made.fits)

end Draft

end CodeGraph
