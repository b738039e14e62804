import CodeGraph.Draft.Draft
import CodeGraph.Proofs.Model.Packages
import CodeGraph.Proofs.Resolution.Search
import Mathlib.Data.Set.Insert

/-!
# Well-formed drafts

In a well-formed draft everything that is referred to is there. An edit is grounded when it refers
only to classifiers that are known at that point. Every edit of a well-formed draft that is
grounded leaves it well-formed, and so does every list of edits that are grounded one after the
other; a classifier that an edit adds is known to the edits behind it.
-/

namespace CodeGraph

/-! ## Grounded edits -/

namespace Edit

/-- The edit refers only to known classifiers, and what it adds belongs to the package of its
file. -/
def Grounded (known : Set String) : Edit → Prop
  | .classifier file added => added.packageId = some (packageId (PackageMap.directoryOf file))
  | .declare _ declaration => declaration.classifierId ∈ known
  | .relate link => link.sourceId ∈ known ∧ link.targetId ∈ known
  | .bind _ _ | .change _ _ | .find _ | .giveUp => True

/-- The classifiers that are known after an edit. -/
def knownAfter (known : Set String) : Edit → Set String
  | .classifier _ added => insert added.id known
  | _ => known

/-- The edits are grounded one after the other. -/
def GroundedAll (known : Set String) : List Edit → Prop
  | [] => True
  | edit :: edits => edit.Grounded known ∧ GroundedAll (edit.knownAfter known) edits

/-- The classifiers that are known after a list of edits. -/
def knownAfterAll (known : Set String) (edits : List Edit) : Set String :=
  edits.foldl knownAfter known

variable {known more : Set String} {edit : Edit} {edits first second : List Edit}

theorem subset_knownAfter (known : Set String) (edit : Edit) : known ⊆ edit.knownAfter known := by
  cases edit with
  | classifier => exact Set.subset_insert _ known
  | bind | change | declare | relate | find | giveUp => exact Set.Subset.refl known

theorem subset_knownAfterAll (known : Set String) (edits : List Edit) :
    known ⊆ knownAfterAll known edits := by
  induction edits generalizing known with
  | nil => exact Set.Subset.refl known
  | cons edit edits ih => exact Set.Subset.trans (subset_knownAfter known edit) (ih _)

theorem knownAfter_mono (subset : known ⊆ more) (edit : Edit) :
    edit.knownAfter known ⊆ edit.knownAfter more := by
  cases edit with
  | classifier => exact Set.insert_subset_insert subset
  | bind | change | declare | relate | find | giveUp => exact subset

theorem Grounded.mono (grounded : edit.Grounded known) (subset : known ⊆ more) :
    edit.Grounded more := by
  cases edit with
  | classifier => exact grounded
  | declare => exact subset grounded
  | relate => exact ⟨subset grounded.1, subset grounded.2⟩
  | bind | change | find | giveUp => trivial

theorem GroundedAll.mono (grounded : GroundedAll known edits) (subset : known ⊆ more) :
    GroundedAll more edits := by
  induction edits generalizing known more with
  | nil => trivial
  | cons edit edits ih =>
      exact ⟨grounded.1.mono subset, ih grounded.2 (knownAfter_mono subset edit)⟩

theorem groundedAll_append_iff : GroundedAll known (first ++ second)
    ↔ GroundedAll known first ∧ GroundedAll (knownAfterAll known first) second := by
  induction first generalizing known with
  | nil => simp [GroundedAll, knownAfterAll]
  | cons edit first ih =>
      simp only [List.cons_append, GroundedAll, ih, and_assoc]
      rfl

/-- Edits that are grounded by themselves are grounded behind each other. -/
theorem GroundedAll.append (left : GroundedAll known first) (right : GroundedAll known second) :
    GroundedAll known (first ++ second) :=
  groundedAll_append_iff.mpr ⟨left, right.mono (subset_knownAfterAll known first)⟩

theorem GroundedAll.flatMap {α : Type} {items : List α} {edits : α → List Edit}
    (grounded : ∀ item ∈ items, GroundedAll known (edits item)) :
    GroundedAll known (items.flatMap edits) := by
  induction items with
  | nil => trivial
  | cons item items ih =>
      obtain ⟨here, further⟩ := List.forall_mem_cons.mp grounded
      rw [List.flatMap_cons]
      exact here.append (ih further)

section

attribute [local simp] GroundedAll Grounded knownAfter

@[simp]
theorem groundedAll_nil : GroundedAll known [] := trivial

@[simp]
theorem groundedAll_change_cons {id : String} {change : ClassifierChange} :
    GroundedAll known (.change id change :: edits) ↔ GroundedAll known edits := by
  simp

@[simp]
theorem groundedAll_find_cons {finding : Finding} :
    GroundedAll known (.find finding :: edits) ↔ GroundedAll known edits := by
  simp

@[simp]
theorem groundedAll_giveUp_cons :
    GroundedAll known (.giveUp :: edits) ↔ GroundedAll known edits := by
  simp

@[simp]
theorem groundedAll_bind_cons {file : String} {bindings : Bindings} :
    GroundedAll known (.bind file bindings :: edits) ↔ GroundedAll known edits := by
  simp

@[simp]
theorem groundedAll_relate_cons {link : Link} : GroundedAll known (.relate link :: edits)
    ↔ (link.sourceId ∈ known ∧ link.targetId ∈ known) ∧ GroundedAll known edits := by
  simp

@[simp]
theorem groundedAll_classifier_cons {file : String} {added : Classifier} :
    GroundedAll known (.classifier file added :: edits)
      ↔ added.packageId = some (packageId (PackageMap.directoryOf file)) ∧
        GroundedAll (insert added.id known) edits := by
  simp

@[simp]
theorem groundedAll_declare_cons {scopedName : String} {declaration : Declaration} :
    GroundedAll known (.declare scopedName declaration :: edits)
      ↔ declaration.classifierId ∈ known ∧ GroundedAll known edits := by
  simp

end

end Edit

/-! ## What edits do to tables -/

namespace SymbolTable

/-- An entry of a table with a new declaration is the new one or was there before. -/
theorem mem_of_mem_declare {table : SymbolTable} {file name : String} {symbol : Symbol}
    {entry : (String × String) × Symbol}
    (present : entry ∈ (table.declare file name symbol).declared) :
    entry.2 = symbol ∨ entry ∈ table.declared := by
  obtain ⟨resolver, declared, bindings⟩ := table
  simp only [declare] at present
  induction declared with
  | nil => exact .inl (by simp_all [declare.set])
  | cons first rest ih =>
      rw [declare.set] at present
      split at present
      · rcases List.mem_cons.mp present with rfl | later
        · exact .inl rfl
        · exact .inr (List.mem_cons_of_mem first later)
      · rcases List.mem_cons.mp present with rfl | later
        · exact .inr List.mem_cons_self
        · exact (ih later).imp id (List.mem_cons_of_mem first)

/-- The symbol is declared somewhere. -/
def Declares (table : SymbolTable) (symbol : Symbol) : Prop :=
  ∃ place, (place, symbol) ∈ table.declared

/-- What a name means is declared. -/
theorem declares_of_found {table : SymbolTable} {file name : String} {scope : List String}
    {symbol : Symbol} (found : table.resolve file name scope = .found symbol) :
    table.Declares symbol := by
  obtain ⟨last, _, answer⟩ := reaches_of_found found
  cases answer with
  | innermost _ declared _ =>
      obtain ⟨before, after, entries, _⟩ := List.lookup_eq_some_iff.mp declared
      rw [Declares, entries]
      exact ⟨_, List.mem_append_right before List.mem_cons_self⟩

end SymbolTable

namespace ClassifierChange

/-- A change leaves a classifier its id. -/
theorem apply_id (classifier : Classifier) (change : ClassifierChange) :
    (change.apply classifier).id = classifier.id := by
  cases change <;>
    simp only [apply, Classifier.addStereotype, Classifier.setTag, Classifier.addAttribute,
      Classifier.addOperation, Classifier.updateAttribute] <;>
    split <;> rfl

/-- A change leaves a classifier its package. -/
theorem apply_packageId (classifier : Classifier) (change : ClassifierChange) :
    (change.apply classifier).packageId = classifier.packageId := by
  cases change <;>
    simp only [apply, Classifier.addStereotype, Classifier.setTag, Classifier.addAttribute,
      Classifier.addOperation, Classifier.updateAttribute] <;>
    split <;> rfl

end ClassifierChange

/-! ## Drafts -/

namespace Draft

/-- The ids of a draft's classifiers. -/
def ids (draft : Draft) : Set String :=
  {id | id ∈ Ordered.keys draft.classifiers}

/-- Everything that a draft refers to is there. -/
structure WellFormed (draft : Draft) : Prop where
  /-- A classifier stands under its id. -/
  keyed : ∀ id classifier, (id, classifier) ∈ draft.classifiers → classifier.id = id
  /-- A classifier belongs to the package of a directory. -/
  packaged : ∀ id classifier, (id, classifier) ∈ draft.classifiers →
    ∃ directory ∈ Ordered.keys draft.packages, classifier.packageId = some (packageId directory)
  /-- The packages have their parents. -/
  packages_closed : draft.packages.Closed
  /-- Relations lead from classifiers to classifiers. -/
  ends_mem : ∀ id relation, (id, relation) ∈ draft.relations →
    relation.sourceId ∈ draft.ids ∧ relation.targetId ∈ draft.ids
  /-- Names mean classifiers. -/
  symbol_mem : ∀ place symbol, (place, symbol) ∈ draft.symbols.declared →
    symbol.classifierId ∈ draft.ids
  /-- Declarations declare classifiers. -/
  declaration_mem : ∀ declaration ∈ draft.declarations, declaration.classifierId ∈ draft.ids

variable {draft : Draft}

theorem start_wellFormed (program : Program) (options : ExtractOptions) (reporting : Bool) :
    (start program options reporting).WellFormed := by
  have closed := (PackageMap.ofFiles_spec program.paths).1
  exact ⟨by simp [start], by simp [start], closed, by simp [start], by simp [start],
    by simp [start]⟩

theorem mem_ids_of_classifier? (wellFormed : draft.WellFormed) {id : String}
    {classifier : Classifier} (present : draft.classifier? id = some classifier) :
    classifier.id ∈ draft.ids := by
  have entry_mem := Ordered.mem_of_get? present
  rw [wellFormed.keyed id classifier entry_mem]
  exact List.mem_map.mpr ⟨_, entry_mem, rfl⟩

theorem mem_ids_of_mem_values (wellFormed : draft.WellFormed) {classifier : Classifier}
    (present : classifier ∈ Ordered.values draft.classifiers) : classifier.id ∈ draft.ids := by
  obtain ⟨⟨id, _⟩, entry_mem, rfl⟩ := List.mem_map.mp present
  rw [wellFormed.keyed id _ entry_mem]
  exact List.mem_map.mpr ⟨_, entry_mem, rfl⟩

/-- What is known after an edit is among the classifiers after it. -/
theorem knownAfter_subset_ids (draft : Draft) (edit : Edit) :
    edit.knownAfter draft.ids ⊆ (draft.apply edit).ids := by
  cases edit with
  | bind | declare | giveUp => exact Set.Subset.refl _
  | find finding =>
      rw [apply]
      split <;> exact Set.Subset.refl _
  | relate link =>
      rw [apply, relate]
      split <;> exact Set.Subset.refl _
  | change id change =>
      intro other known
      rw [apply, changeClassifier]
      split
      next classifier present =>
        have known : other ∈ Ordered.keys draft.classifiers := known
        have id_mem := Ordered.isSome_get?_iff.mp (Option.isSome_of_eq_some present)
        simpa [ids, Ordered.keys_set, id_mem] using known
      next => exact known
  | classifier file added =>
      rintro other (rfl | known)
      · rw [apply, addClassifier]
        split
        next present => exact Ordered.isSome_get?_iff.mp present
        next => simp [ids, Ordered.keys]
      · rw [apply, addClassifier]
        split
        next => exact known
        next =>
          obtain ⟨entry, entry_mem, entry_eq⟩ := List.mem_map.mp known
          exact List.mem_map.mpr ⟨entry, List.mem_append_left _ entry_mem, entry_eq⟩

theorem WellFormed.addClassifier (wellFormed : draft.WellFormed) {file : String}
    {classifier : Classifier}
    (owned : classifier.packageId = some (packageId (PackageMap.directoryOf file))) :
    (draft.apply (.classifier file classifier)).WellFormed := by
  have grown := knownAfter_subset_ids draft (.classifier file classifier)
  obtain ⟨further, file_mem⟩ := PackageMap.ensureFile_spec draft.packages file
  have old_packaged : ∀ id other, (id, other) ∈ draft.classifiers →
      ∃ directory ∈ Ordered.keys (draft.packages.ensureFile file),
        other.packageId = some (packageId directory) := by
    intro id other present
    obtain ⟨directory, directory_mem, owner⟩ := wellFormed.packaged id other present
    exact ⟨directory, PackageMap.keys_subset further.subset directory_mem, owner⟩
  have closed := wellFormed.packages_closed.extends further
  simp only [apply, Draft.addClassifier] at grown ⊢
  split
  next =>
    exact ⟨wellFormed.keyed, old_packaged, closed, wellFormed.ends_mem, wellFormed.symbol_mem,
      wellFormed.declaration_mem⟩
  next absent =>
    rw [if_neg absent] at grown
    have old_known : ∀ id ∈ draft.ids, id ∈ ids _ := fun id known => grown (.inr known)
    refine ⟨?_, ?_, closed, ?_, ?_, ?_⟩
    · intro id other present
      rcases List.mem_append.mp present with old | new
      · exact wellFormed.keyed id other old
      · obtain ⟨rfl, rfl⟩ := Prod.mk.inj (List.mem_singleton.mp new)
        rfl
    · intro id other present
      rcases List.mem_append.mp present with old | new
      · exact old_packaged id other old
      · obtain ⟨rfl, rfl⟩ := Prod.mk.inj (List.mem_singleton.mp new)
        exact ⟨_, file_mem, owned⟩
    · exact fun id relation present =>
        (wellFormed.ends_mem id relation present).imp (old_known _) (old_known _)
    · exact fun place symbol present => old_known _ (wellFormed.symbol_mem place symbol present)
    · exact fun declaration present =>
        old_known _ (wellFormed.declaration_mem declaration present)

theorem WellFormed.changeClassifier (wellFormed : draft.WellFormed) (id : String)
    (change : ClassifierChange) : (draft.apply (.change id change)).WellFormed := by
  have grown := knownAfter_subset_ids draft (.change id change)
  simp only [apply, Draft.changeClassifier] at grown ⊢
  cases present : draft.classifier? id with
  | none => exact wellFormed
  | some classifier =>
      simp only [present] at grown
      have old_mem := Ordered.mem_of_get? present
      refine ⟨?_, ?_, wellFormed.packages_closed, ?_, ?_, ?_⟩
      · intro other changed changed_mem
        rcases Ordered.mem_of_mem_set changed_mem with new | old
        · obtain ⟨rfl, rfl⟩ := Prod.mk.inj new
          rw [ClassifierChange.apply_id]
          exact wellFormed.keyed _ _ old_mem
        · exact wellFormed.keyed other changed old
      · intro other changed changed_mem
        rcases Ordered.mem_of_mem_set changed_mem with new | old
        · obtain ⟨rfl, rfl⟩ := Prod.mk.inj new
          rw [ClassifierChange.apply_packageId]
          exact wellFormed.packaged _ _ old_mem
        · exact wellFormed.packaged other changed old
      · exact fun id relation present =>
          (wellFormed.ends_mem id relation present).imp (@grown _) (@grown _)
      · exact fun place symbol present => grown (wellFormed.symbol_mem place symbol present)
      · exact fun declaration present => grown (wellFormed.declaration_mem declaration present)

theorem WellFormed.declare (wellFormed : draft.WellFormed) {scopedName : String}
    {declaration : Declaration} (known : declaration.classifierId ∈ draft.ids) :
    (draft.apply (.declare scopedName declaration)).WellFormed := by
  refine ⟨wellFormed.keyed, wellFormed.packaged, wellFormed.packages_closed, wellFormed.ends_mem,
    ?_, ?_⟩
  · intro place symbol present
    rcases SymbolTable.mem_of_mem_declare present with rfl | old
    · exact known
    · exact wellFormed.symbol_mem place symbol old
  · intro other present
    rcases List.mem_append.mp present with old | new
    · exact wellFormed.declaration_mem other old
    · exact List.mem_singleton.mp new ▸ known

theorem WellFormed.relate (wellFormed : draft.WellFormed) {link : Link}
    (source_known : link.sourceId ∈ draft.ids) (target_known : link.targetId ∈ draft.ids) :
    (draft.apply (.relate link)).WellFormed := by
  rw [apply, Draft.relate]
  split
  · exact wellFormed
  · refine ⟨wellFormed.keyed, wellFormed.packaged, wellFormed.packages_closed, ?_,
      wellFormed.symbol_mem, wellFormed.declaration_mem⟩
    intro id relation present
    rcases Ordered.mem_of_mem_set present with new | old
    · obtain ⟨rfl, rfl⟩ := Prod.mk.inj new
      -- A link that is merged into a relation leaves the relation its ends.
      cases known : draft.relations.get? link.id with
      | some merged => exact wellFormed.ends_mem _ merged (Ordered.mem_of_get? known)
      | none => exact ⟨source_known, target_known⟩
    · exact wellFormed.ends_mem id relation old

/-- A grounded edit leaves a draft well-formed. -/
theorem WellFormed.apply (wellFormed : draft.WellFormed) {edit : Edit}
    (grounded : edit.Grounded draft.ids) : (draft.apply edit).WellFormed := by
  cases edit with
  | bind | giveUp =>
      exact ⟨wellFormed.keyed, wellFormed.packaged, wellFormed.packages_closed,
        wellFormed.ends_mem, wellFormed.symbol_mem, wellFormed.declaration_mem⟩
  | classifier => exact wellFormed.addClassifier grounded
  | change id change => exact wellFormed.changeClassifier id change
  | declare => exact wellFormed.declare grounded
  | relate => exact wellFormed.relate grounded.1 grounded.2
  | find finding =>
      rw [Draft.apply]
      split
      · exact ⟨wellFormed.keyed, wellFormed.packaged, wellFormed.packages_closed,
          wellFormed.ends_mem, wellFormed.symbol_mem, wellFormed.declaration_mem⟩
      · exact wellFormed

/-- Edits that are grounded one after the other leave a draft well-formed, and it keeps its
classifiers. -/
theorem WellFormed.applyAll (wellFormed : draft.WellFormed) {edits : List Edit}
    (grounded : Edit.GroundedAll draft.ids edits) :
    (draft.applyAll edits).WellFormed ∧ draft.ids ⊆ (draft.applyAll edits).ids := by
  induction edits generalizing draft with
  | nil => exact ⟨wellFormed, Set.Subset.refl _⟩
  | cons edit edits ih =>
      obtain ⟨here, further⟩ := grounded
      have known := knownAfter_subset_ids draft edit
      obtain ⟨final, later⟩ := ih (wellFormed.apply here) (further.mono known)
      have kept := Set.Subset.trans (Edit.subset_knownAfter draft.ids edit) known
      exact ⟨final, Set.Subset.trans kept later⟩

/-- The edits that follow from a name's meaning are grounded if they are whatever known symbol it
means. -/
theorem WellFormed.withMeaning (wellFormed : draft.WellFormed) {known : Set String}
    (ids_known : draft.ids ⊆ known) {file name : String} {scope : List String}
    {edits : Option Symbol → List Edit}
    (grounded : ∀ symbol, (∀ meant, symbol = some meant → meant.classifierId ∈ known) →
      Edit.GroundedAll known (edits symbol)) :
    Edit.GroundedAll known (draft.withMeaning file name scope edits) := by
  rw [Draft.withMeaning]
  split
  next symbol found =>
    obtain ⟨place, declared⟩ := SymbolTable.declares_of_found found
    have symbol_known := ids_known (wellFormed.symbol_mem place symbol declared)
    exact grounded (some symbol) fun meant same => Option.some.inj same ▸ symbol_known
  next => exact grounded none fun _ none_eq => absurd none_eq (by simp)
  next => simp

theorem WellFormed.withMeaningAt (wellFormed : draft.WellFormed) {declaration : Declaration}
    {name : String} {edits : Option Symbol → List Edit}
    (grounded : ∀ symbol, (∀ meant, symbol = some meant → meant.classifierId ∈ draft.ids) →
      Edit.GroundedAll draft.ids (edits symbol)) :
    Edit.GroundedAll draft.ids (draft.withMeaningAt declaration name edits) :=
  wellFormed.withMeaning (Set.Subset.refl _) grounded

end Draft

end CodeGraph
