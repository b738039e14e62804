import CodeGraph.Proofs.Draft.RelateOrder
import CodeGraph.Proofs.Draft.Roles
import CodeGraph.Proofs.Tables

/-!
# What edits add at the end

Links whose ids are all new make the same relations as they would by themselves, behind those that
are there. Edits that change no classifier add those that they bring, each one once.
-/

namespace CodeGraph

/-! ## Relations -/

namespace Link

/-- Links with new ids make their own table behind the one that is there. -/
theorem foldl_addTo_of_fresh {front : Ordered Relation} {links : List Link}
    (fresh : ∀ link ∈ links, link.id ∉ Ordered.keys front) (back : Ordered Relation) :
    links.foldl addTo (front ++ back) = front ++ links.foldl addTo back := by
  induction links generalizing back with
  | nil => rfl
  | cons link links ih =>
      obtain ⟨here, further⟩ := List.forall_mem_cons.mp fresh
      have absent : front.get? link.id = none :=
        Option.not_isSome_iff_eq_none.mp (mt Ordered.isSome_get?_iff.mp here)
      have step : addTo (front ++ back) link = front ++ addTo back link := by
        rw [addTo, addTo, Ordered.get?_append, absent, Option.none_or, Ordered.set_append here]
      rw [List.foldl_cons, List.foldl_cons, step, ih further]

/-- A table has each id among the links once, in the order in which they come first. -/
theorem keys_foldl_addTo (table : Ordered Relation) (links : List Link) :
    Ordered.keys (links.foldl addTo table)
      = (links.map (·.id)).foldl addLast (Ordered.keys table) := by
  induction links generalizing table with
  | nil => rfl
  | cons link links ih =>
      rw [List.foldl_cons, ih, addTo, Ordered.keys_set]
      rfl

/-- Links without other tags leave those of a relation as they are. -/
theorem tags_joinAll {tags : List Tag} (nodup : tags.Nodup) {links : List Link}
    (same : ∀ link ∈ links, link.tags = tags) {relation last : Relation}
    (tagged : relation.tags = tags) (joined : joinAll (some relation) links = some last) :
    last.tags = tags := by
  induction links generalizing relation with
  | nil => exact Option.some.inj joined ▸ tagged
  | cons link links ih =>
      obtain ⟨here, further⟩ := List.forall_mem_cons.mp same
      refine ih further ?_ joined
      have settled : tags.foldl addLast [] = tags :=
        foldl_addLast_of_nodup (List.nil_append tags ▸ nodup)
      rw [join, Relation.merge, tagged, here, Tag.unique_eq, List.foldl_append, settled]
      exact foldl_addLast_of_subset (List.Subset.refl tags)

end Link

/-! ## Classifiers -/

namespace Classifier

/-- Adds a classifier to a table, unless its id is there. -/
def addTo (table : Ordered Classifier) (classifier : Classifier) : Ordered Classifier :=
  if (table.get? classifier.id).isSome then table
  else table ++ [(classifier.id, classifier)]

end Classifier

namespace Edit

/-- The edit leaves the classifiers that are there as they are. -/
def IsSteady : Edit → Prop
  | .change _ _ => False
  | _ => True

end Edit

namespace Draft

/-- The classifiers of a draft after edits that change none. -/
theorem classifiers_applyAll (draft : Draft) {edits : List Edit}
    (steady : ∀ edit ∈ edits, edit.IsSteady) :
    (draft.applyAll edits).classifiers
      = (edits.filterMap Edit.classifier?).foldl Classifier.addTo draft.classifiers := by
  induction edits generalizing draft with
  | nil => rfl
  | cons edit edits ih =>
      obtain ⟨here, further⟩ := List.forall_mem_cons.mp steady
      rw [applyAll_cons, ih _ further, List.filterMap_cons]
      cases edit with
      | change => exact here.elim
      | classifier file added =>
          rw [Edit.classifier?, List.foldl_cons, apply, addClassifier, Classifier.addTo]
          split <;> simp_all [classifier?]
      | relate | find =>
          simp only [apply, relate]
          split <;> rfl
      | bind | declare | giveUp => rfl

end Draft

end CodeGraph
