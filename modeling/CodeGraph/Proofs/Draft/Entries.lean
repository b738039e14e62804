import CodeGraph.Draft.Draft
import CodeGraph.Proofs.Draft.DeclarationEdits

/-!
# What holds of every classifier and every relation

A property of classifiers and one of relations hold throughout a draft when every entry of its
tables has them, under the id that it stands under. An edit preserves them when what it brings in
has them and what it changes keeps them. Edits that preserve the properties leave them holding
throughout.
-/

namespace CodeGraph

variable {ofClassifier : String → Classifier → Prop} {ofRelation : String → Relation → Prop}

/-- What the edit brings in has the properties, and what it changes keeps them. -/
def Edit.Preserves (ofClassifier : String → Classifier → Prop)
    (ofRelation : String → Relation → Prop) : Edit → Prop
  | .classifier _ added => ofClassifier added.id added
  | .change id alteration =>
      ∀ classifier, ofClassifier id classifier → ofClassifier id (alteration.apply classifier)
  | .relate link =>
      (link.isVoid = false → ofRelation link.id link.toRelation) ∧
        ∀ relation, ofRelation link.id relation → ofRelation link.id (relation.merge link)
  | .bind _ _ | .declare _ _ | .find _ | .giveUp => True

namespace Draft

/-- Every classifier and every relation has its property. -/
structure Throughout (ofClassifier : String → Classifier → Prop)
    (ofRelation : String → Relation → Prop) (draft : Draft) : Prop where
  of_classifier : ∀ id classifier, (id, classifier) ∈ draft.classifiers → ofClassifier id classifier
  of_relation : ∀ id relation, (id, relation) ∈ draft.relations → ofRelation id relation

variable {draft : Draft}

theorem start_throughout (program : Program) (options : ExtractOptions) (reporting : Bool) :
    (start program options reporting).Throughout ofClassifier ofRelation :=
  ⟨by simp [start], by simp [start]⟩

theorem Throughout.addClassifier (all : draft.Throughout ofClassifier ofRelation)
    {added : Classifier} (new : ofClassifier added.id added) :
    (draft.addClassifier added).Throughout ofClassifier ofRelation := by
  rw [Draft.addClassifier]
  split
  · exact all
  · refine ⟨fun id classifier present => ?_, all.of_relation⟩
    rcases List.mem_append.mp present with old | here
    · exact all.of_classifier id classifier old
    · obtain ⟨rfl, rfl⟩ := Prod.mk.inj (List.mem_singleton.mp here)
      exact new

theorem Throughout.changeClassifier (all : draft.Throughout ofClassifier ofRelation)
    {id : String} {change : ClassifierChange}
    (kept : ∀ classifier, ofClassifier id classifier → ofClassifier id (change.apply classifier)) :
    (draft.changeClassifier id change).Throughout ofClassifier ofRelation := by
  rw [Draft.changeClassifier]
  split
  next old found =>
    refine ⟨fun other changed present => ?_, all.of_relation⟩
    rcases Ordered.mem_of_mem_set present with new | untouched
    · obtain ⟨rfl, rfl⟩ := Prod.mk.inj new
      exact kept old (all.of_classifier _ old (Ordered.mem_of_get? found))
    · exact all.of_classifier other changed untouched
  next => exact all

theorem Throughout.relate (all : draft.Throughout ofClassifier ofRelation) {link : Link}
    (new : link.isVoid = false → ofRelation link.id link.toRelation)
    (merged : ∀ relation, ofRelation link.id relation →
      ofRelation link.id (relation.merge link)) :
    (draft.relate link).Throughout ofClassifier ofRelation := by
  rw [Draft.relate]
  split
  · exact all
  next something =>
    refine ⟨all.of_classifier, fun id relation present => ?_⟩
    rcases Ordered.mem_of_mem_set present with here | untouched
    · obtain ⟨rfl, rfl⟩ := Prod.mk.inj here
      split
      next old found => exact merged old (all.of_relation _ old (Ordered.mem_of_get? found))
      next => exact new (by simpa using something)
    · exact all.of_relation id relation untouched

/-- An edit that preserves the properties leaves them holding throughout. -/
theorem Throughout.apply (all : draft.Throughout ofClassifier ofRelation) {edit : Edit}
    (preserves : edit.Preserves ofClassifier ofRelation) :
    (draft.apply edit).Throughout ofClassifier ofRelation := by
  cases edit with
  | bind | declare | giveUp => exact { all with }
  | find =>
      rw [Draft.apply]
      split
      · exact { all with }
      · exact all
  | classifier file added =>
      have packaged : { draft with packages := draft.packages.ensureFile file }.Throughout
          ofClassifier ofRelation := { all with }
      exact packaged.addClassifier preserves
  | change => exact all.changeClassifier preserves
  | relate => exact all.relate preserves.1 preserves.2

end Draft

end CodeGraph
