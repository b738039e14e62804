import CodeGraph.Model.Encode
import Mathlib.Data.List.Forall2

/-!
# The canonical form does not depend on order

Models that differ in the order of their lists alone, at any depth, have the same canonical form
and hence the same text, provided that a list in another order has no two items that are sorted
alike and still differ. The canonical form has every item of every list exactly as often as the
model, and a model that is canonical already is left as it is.
-/

namespace CodeGraph

/-! ## Sorting by a key -/

/-- An order that lists can be sorted by. -/
structure KeyOrder {κ : Type} (le : κ → κ → Bool) : Prop where
  /-- Any two keys are comparable. -/
  total : ∀ left right, (le left right || le right left) = true
  /-- The order is transitive. -/
  trans : ∀ left middle right, le left middle = true → le middle right = true →
    le left right = true
  /-- Keys that come no later than each other are the same. -/
  antisymm : ∀ left right, le left right = true → le right left = true → left = right

theorem textLe_keyOrder : KeyOrder textLe :=
  ⟨textLe_total, textLe_trans, fun _ _ => textLe_antisymm⟩

theorem pairLe_keyOrder : KeyOrder pairLe :=
  ⟨pairLe_total, pairLe_trans, fun _ _ => pairLe_antisymm⟩

namespace KeyOrder

variable {α β κ : Type} {le : κ → κ → Bool} {key : α → κ}

theorem pairwise_sortOn (order : KeyOrder le) (key : α → κ) (items : List α) :
    (sortOn le key items).Pairwise fun left right => le (key left) (key right) = true :=
  CodeGraph.pairwise_sortOn le key order.trans order.total items

/-- Items that are told apart by their keys have one sorted list. -/
theorem sortOn_eq_of_perm (order : KeyOrder le) {first second : List α}
    (perm : first.Perm second)
    (apart : ∀ left ∈ first, ∀ right ∈ first, key left = key right → left = right) :
    sortOn le key first = sortOn le key second := by
  have sorted_perm : (sortOn le key first).Perm (sortOn le key second) :=
    (sortOn_perm le key first).trans (perm.trans (sortOn_perm le key second).symm)
  refine List.Perm.eq_of_pairwise ?_ (order.pairwise_sortOn key first)
    (order.pairwise_sortOn key second) sorted_perm
  intro left right left_mem right_mem low high
  have left_first : left ∈ first := (mem_sortOn le key).mp left_mem
  have right_first : right ∈ first := perm.mem_iff.mpr ((mem_sortOn le key).mp right_mem)
  exact apart left left_first right right_first (order.antisymm _ _ low high)

/-- A sorted list is left as it is. -/
theorem sortOn_sortOn (order : KeyOrder le) (key : α → κ) (items : List α) :
    sortOn le key (sortOn le key items) = sortOn le key items :=
  List.mergeSort_of_pairwise (order.pairwise_sortOn key items)

/-- Giving items a form and sorting them is done after one turn if the form is. -/
theorem sortOn_map_sortOn_map (order : KeyOrder le) (key : α → κ) {form : α → α}
    (settled : ∀ item, form (form item) = form item) (items : List α) :
    sortOn le key ((sortOn le key (items.map form)).map form)
      = sortOn le key (items.map form) := by
  have formed : ∀ item ∈ sortOn le key (items.map form), form item = item := by
    intro item present
    obtain ⟨original, _, rfl⟩ := List.mem_map.mp ((mem_sortOn le key).mp present)
    exact settled original
  rw [List.map_congr_left formed, List.map_id', order.sortOn_sortOn]

end KeyOrder

/-! ## Lists in another order -/

section Reordering

variable {α β κ : Type}

/-- The second list has in each place an item that is `related` to the first list's item, or it has
them in other places. Then any two items of the first list with the same key have the same form. -/
def ReorderedBy (related : α → α → Prop) (form : α → β) (key : β → κ)
    (first second : List α) : Prop :=
  List.Forall₂ related first second ∨
    (∀ left ∈ first, ∀ right ∈ first,
        key (form left) = key (form right) → form left = form right) ∧
      ∃ moved, first.Perm moved ∧ List.Forall₂ related moved second

/-- The second list has the items of the first one, possibly in other places. Then no two different
items have the same key. -/
def Shuffled (key : α → κ) : (first second : List α) → Prop :=
  ReorderedBy Eq (fun item => item) key

variable {related : α → α → Prop} {form : α → β} {key : β → κ} {le : κ → κ → Bool}
  {first second : List α}

theorem map_eq_of_related (same : ∀ left right, related left right → form left = form right)
    (places : List.Forall₂ related first second) : first.map form = second.map form := by
  induction places with
  | nil => rfl
  | cons here _ ih => rw [List.map_cons, List.map_cons, same _ _ here, ih]

/-- Lists in another order have one sorted list of forms. -/
theorem ReorderedBy.sorted_eq (order : KeyOrder le)
    (reordered : ReorderedBy related form key first second)
    (same : ∀ left right, related left right → form left = form right) :
    sortOn le key (first.map form) = sortOn le key (second.map form) := by
  rcases reordered with places | ⟨ties, moved, perm, places⟩
  · rw [map_eq_of_related same places]
  · rw [← map_eq_of_related same places]
    refine order.sortOn_eq_of_perm (perm.map form) ?_
    intro left left_mem right right_mem key_eq
    obtain ⟨left, left_first, rfl⟩ := List.mem_map.mp left_mem
    obtain ⟨right, right_first, rfl⟩ := List.mem_map.mp right_mem
    exact ties left left_first right right_first key_eq

/-- Shuffled lists have one sorted list. -/
theorem Shuffled.sorted_eq {key : α → κ} (order : KeyOrder le)
    (shuffled : Shuffled key first second) : sortOn le key first = sortOn le key second := by
  have sorted := ReorderedBy.sorted_eq order shuffled fun _ _ same => same
  rwa [List.map_id', List.map_id'] at sorted

end Reordering

namespace Tag

/-- Tags that are sorted alike are the same, so their order is never seen. -/
theorem canonical_eq_of_perm {first second : List Tag} (perm : first.Perm second) :
    canonical first = canonical second := by
  refine pairLe_keyOrder.sortOn_eq_of_perm perm ?_
  rintro ⟨leftKey, leftValue⟩ _ ⟨rightKey, rightValue⟩ _ same
  obtain ⟨rfl, rfl⟩ := Prod.mk.inj same
  rfl

@[simp]
theorem canonical_canonical (tags : List Tag) : canonical (canonical tags) = canonical tags :=
  pairLe_keyOrder.sortOn_sortOn _ tags

end Tag

namespace Stereotype

/-- What roles are sorted by. -/
def sortKey (role : Stereotype) : String × String :=
  (role.name, role.qualifiedName.getD "")

theorem canonical_eq_of_shuffled {first second : List Stereotype}
    (shuffled : Shuffled sortKey first second) : canonical first = canonical second :=
  shuffled.sorted_eq pairLe_keyOrder

@[simp]
theorem canonical_canonical (roles : List Stereotype) :
    canonical (canonical roles) = canonical roles :=
  pairLe_keyOrder.sortOn_sortOn _ roles

end Stereotype

namespace Attribute

/-- What attributes are sorted by. -/
def sortKey (member : Attribute) : String × String :=
  memberKey member.id member.name

/-- The attributes differ in the order of their lists alone. -/
structure Reordered (first second : Attribute) : Prop where
  /-- The roles are in another order. -/
  stereotypes : Shuffled Stereotype.sortKey first.stereotypes second.stereotypes
  /-- The tags are in another order. -/
  tags : first.tags.Perm second.tags
  /-- All else is the same. -/
  others : second = { first with stereotypes := second.stereotypes, tags := second.tags }

theorem Reordered.canonical_eq {first second : Attribute} (reordered : Reordered first second) :
    first.canonical = second.canonical := by
  have stereotypes := Stereotype.canonical_eq_of_shuffled reordered.stereotypes
  have tags := Tag.canonical_eq_of_perm reordered.tags
  rw [reordered.others, canonical, canonical, stereotypes, tags]

@[simp]
theorem canonical_canonical (member : Attribute) :
    member.canonical.canonical = member.canonical := by
  simp only [canonical, Stereotype.canonical_canonical, Tag.canonical_canonical]

end Attribute

namespace Operation

/-- What operations are sorted by. -/
def sortKey (operation : Operation) : String × String :=
  memberKey operation.id operation.name

/-- The operations differ in the order of their lists alone. -/
structure Reordered (first second : Operation) : Prop where
  /-- The parameters are in another order. -/
  parameters : Shuffled Parameter.name first.parameters second.parameters
  /-- The roles are in another order. -/
  stereotypes : Shuffled Stereotype.sortKey first.stereotypes second.stereotypes
  /-- The tags are in another order. -/
  tags : first.tags.Perm second.tags
  /-- All else is the same. -/
  others : second = { first with
    parameters := second.parameters, stereotypes := second.stereotypes, tags := second.tags }

theorem Reordered.canonical_eq {first second : Operation} (reordered : Reordered first second) :
    first.canonical = second.canonical := by
  have parameters := reordered.parameters.sorted_eq textLe_keyOrder
  have stereotypes := Stereotype.canonical_eq_of_shuffled reordered.stereotypes
  have tags := Tag.canonical_eq_of_perm reordered.tags
  rw [reordered.others, canonical, canonical, parameters, stereotypes, tags]

@[simp]
theorem canonical_canonical (operation : Operation) :
    operation.canonical.canonical = operation.canonical := by
  simp only [canonical, textLe_keyOrder.sortOn_sortOn, Stereotype.canonical_canonical,
    Tag.canonical_canonical]

end Operation

namespace Classifier

/-- The classifiers differ in the order of their lists alone, or of those inside of them. -/
structure Reordered (first second : Classifier) : Prop where
  /-- The attributes are in another order. -/
  attributes : ReorderedBy Attribute.Reordered Attribute.canonical Attribute.sortKey
    first.attributes second.attributes
  /-- The operations are in another order. -/
  operations : ReorderedBy Operation.Reordered Operation.canonical Operation.sortKey
    first.operations second.operations
  /-- The roles are in another order. -/
  stereotypes : Shuffled Stereotype.sortKey first.stereotypes second.stereotypes
  /-- The tags are in another order. -/
  tags : first.tags.Perm second.tags
  /-- All else is the same. -/
  others : second = { first with
    attributes := second.attributes, operations := second.operations
    stereotypes := second.stereotypes, tags := second.tags }

/-- The canonical form in terms of what members are sorted by. -/
theorem canonical_def (classifier : Classifier) :
    classifier.canonical = { classifier with
      attributes := sortOn pairLe Attribute.sortKey (classifier.attributes.map Attribute.canonical)
      operations := sortOn pairLe Operation.sortKey (classifier.operations.map Operation.canonical)
      stereotypes := Stereotype.canonical classifier.stereotypes
      tags := Tag.canonical classifier.tags } := rfl

theorem Reordered.canonical_eq {first second : Classifier} (reordered : Reordered first second) :
    first.canonical = second.canonical := by
  have attributes := reordered.attributes.sorted_eq pairLe_keyOrder fun _ _ =>
    Attribute.Reordered.canonical_eq
  have operations := reordered.operations.sorted_eq pairLe_keyOrder fun _ _ =>
    Operation.Reordered.canonical_eq
  have stereotypes := Stereotype.canonical_eq_of_shuffled reordered.stereotypes
  have tags := Tag.canonical_eq_of_perm reordered.tags
  rw [reordered.others, canonical_def, canonical_def, attributes, operations, stereotypes, tags]

@[simp]
theorem canonical_canonical (classifier : Classifier) :
    classifier.canonical.canonical = classifier.canonical := by
  simp only [canonical_def, Stereotype.canonical_canonical, Tag.canonical_canonical,
    pairLe_keyOrder.sortOn_map_sortOn_map _ Attribute.canonical_canonical,
    pairLe_keyOrder.sortOn_map_sortOn_map _ Operation.canonical_canonical]

end Classifier

namespace Package

/-- The packages differ in the order of their tags alone. -/
structure Reordered (first second : Package) : Prop where
  /-- The tags are in another order. -/
  tags : first.tags.Perm second.tags
  /-- All else is the same. -/
  others : second = { first with tags := second.tags }

theorem Reordered.canonical_eq {first second : Package} (reordered : Reordered first second) :
    first.canonical = second.canonical := by
  rw [reordered.others, canonical, canonical, Tag.canonical_eq_of_perm reordered.tags]

@[simp]
theorem canonical_canonical (package : Package) :
    package.canonical.canonical = package.canonical := by
  simp only [canonical, Tag.canonical_canonical]

end Package

namespace Relation

/-- The relations differ in the order of their tags alone. -/
structure Reordered (first second : Relation) : Prop where
  /-- The tags are in another order. -/
  tags : first.tags.Perm second.tags
  /-- All else is the same. -/
  others : second = { first with tags := second.tags }

theorem Reordered.canonical_eq {first second : Relation} (reordered : Reordered first second) :
    first.canonical = second.canonical := by
  rw [reordered.others, canonical, canonical, Tag.canonical_eq_of_perm reordered.tags]

@[simp]
theorem canonical_canonical (relation : Relation) :
    relation.canonical.canonical = relation.canonical := by
  simp only [canonical, Tag.canonical_canonical]

end Relation

/-! ## Models in another order -/

namespace Model

/-- The models differ in the order of their lists alone, or of those inside of them. -/
structure Reordered (first second : Model) : Prop where
  /-- The packages are in another order. -/
  packages : ReorderedBy Package.Reordered Package.canonical Package.id
    first.packages second.packages
  /-- The classifiers are in another order. -/
  classifiers : ReorderedBy Classifier.Reordered Classifier.canonical Classifier.id
    first.classifiers second.classifiers
  /-- The relations are in another order. -/
  relations : ReorderedBy Relation.Reordered Relation.canonical Relation.id
    first.relations second.relations
  /-- The tags are in another order. -/
  tags : first.tags.Perm second.tags
  /-- They follow the same schema. -/
  schemaVersion : first.schemaVersion = second.schemaVersion

theorem Reordered.canonical_eq {first second : Model} (reordered : Reordered first second) :
    first.canonical = second.canonical := by
  have packages := reordered.packages.sorted_eq textLe_keyOrder fun _ _ =>
    Package.Reordered.canonical_eq
  have classifiers := reordered.classifiers.sorted_eq textLe_keyOrder fun _ _ =>
    Classifier.Reordered.canonical_eq
  have relations := reordered.relations.sorted_eq textLe_keyOrder fun _ _ =>
    Relation.Reordered.canonical_eq
  have tags := Tag.canonical_eq_of_perm reordered.tags
  rw [canonical, canonical, packages, classifiers, relations, tags, reordered.schemaVersion]

theorem canonical_canonical (model : Model) : model.canonical.canonical = model.canonical := by
  simp only [canonical, Tag.canonical_canonical,
    textLe_keyOrder.sortOn_map_sortOn_map _ Package.canonical_canonical,
    textLe_keyOrder.sortOn_map_sortOn_map _ Classifier.canonical_canonical,
    textLe_keyOrder.sortOn_map_sortOn_map _ Relation.canonical_canonical]

/-- Every list of the canonical form has the canonical forms of the model's items, each as often. -/
structure KeepsItems (model : Model) : Prop where
  /-- No package is lost or added. -/
  packages : model.canonical.packages.Perm (model.packages.map (·.canonical))
  /-- No classifier is lost or added. -/
  classifiers : model.canonical.classifiers.Perm (model.classifiers.map (·.canonical))
  /-- No relation is lost or added. -/
  relations : model.canonical.relations.Perm (model.relations.map (·.canonical))
  /-- Nor is a tag of the model. -/
  tags : model.canonical.tags.Perm model.tags
  /-- Packages keep their tags. -/
  packageTags : ∀ package ∈ model.packages, package.canonical.tags.Perm package.tags
  /-- Relations keep their tags. -/
  relationTags : ∀ relation ∈ model.relations, relation.canonical.tags.Perm relation.tags
  /-- Classifiers keep their attributes. -/
  attributes : ∀ classifier ∈ model.classifiers,
    classifier.canonical.attributes.Perm (classifier.attributes.map (·.canonical))
  /-- Classifiers keep their operations. -/
  operations : ∀ classifier ∈ model.classifiers,
    classifier.canonical.operations.Perm (classifier.operations.map (·.canonical))
  /-- Classifiers keep their roles and tags. -/
  classifierMarks : ∀ classifier ∈ model.classifiers,
    classifier.canonical.stereotypes.Perm classifier.stereotypes ∧
      classifier.canonical.tags.Perm classifier.tags
  /-- Attributes keep their roles and tags. -/
  attributeMarks : ∀ classifier ∈ model.classifiers, ∀ member ∈ classifier.attributes,
    member.canonical.stereotypes.Perm member.stereotypes ∧ member.canonical.tags.Perm member.tags
  /-- Operations keep their parameters, roles and tags. -/
  operationParts : ∀ classifier ∈ model.classifiers, ∀ operation ∈ classifier.operations,
    operation.canonical.parameters.Perm operation.parameters ∧
      operation.canonical.stereotypes.Perm operation.stereotypes ∧
      operation.canonical.tags.Perm operation.tags

theorem keepsItems (model : Model) : model.KeepsItems where
  packages := sortOn_perm ..
  classifiers := sortOn_perm ..
  relations := sortOn_perm ..
  tags := sortOn_perm ..
  packageTags _ _ := sortOn_perm ..
  relationTags _ _ := sortOn_perm ..
  attributes _ _ := sortOn_perm ..
  operations _ _ := sortOn_perm ..
  classifierMarks _ _ := ⟨sortOn_perm .., sortOn_perm ..⟩
  attributeMarks _ _ _ _ := ⟨sortOn_perm .., sortOn_perm ..⟩
  operationParts _ _ _ _ := ⟨sortOn_perm .., sortOn_perm .., sortOn_perm ..⟩

/-- Models that differ in order alone have the same text. Bringing a model into its canonical form
keeps all items, and doing it again changes nothing. -/
theorem serialize_ignores_order :
    (∀ first second : Model, first.Reordered second → ∀ withoutStereotypes,
      first.serialize withoutStereotypes = second.serialize withoutStereotypes) ∧
      ∀ model : Model, model.canonical.canonical = model.canonical ∧ model.KeepsItems := by
  constructor
  · intro first second reordered withoutStereotypes
    rw [serialize, serialize, document, document, reordered.canonical_eq]
  · exact fun model => ⟨model.canonical_canonical, model.keepsItems⟩

/-- A class of orders with these attributes. -/
def orderClass (attributes : List Attribute) : Classifier :=
  { id := "c:2", name := "Order", kind := .classType, attributes }

/-- A class of users with these roles. -/
def userClass (stereotypes : List Stereotype) : Classifier :=
  { id := "c:1", name := "User", kind := .classType, stereotypes }

/-- Two attributes without ids, which are sorted by name. -/
def buyerAndTotal : List Attribute :=
  [{ name := "buyer", type := .named "User" }, { name := "total", type := .primitive "number" }]

/-- A model of both classes. -/
def shop : Model :=
  { classifiers := [userClass [{ name := "A" }, { name := "B" }], orderClass buyerAndTotal] }

/-- The same model with its classes, the roles of one and the attributes of the other in opposite
order. -/
def shopBackwards : Model :=
  { classifiers :=
      [orderClass buyerAndTotal.reverse, userClass [{ name := "B" }, { name := "A" }]] }

theorem serialize_shopBackwards :
    shop.Reordered shopBackwards ∧ shop.serialize false = shopBackwards.serialize false := by
  have attributes : ReorderedBy Attribute.Reordered Attribute.canonical Attribute.sortKey
      buyerAndTotal buyerAndTotal.reverse := by
    refine .inr ⟨by simp [buyerAndTotal, Attribute.canonical, Attribute.sortKey, memberKey],
      _, (List.reverse_perm _).symm, List.forall₂_same.mpr fun member _ => ?_⟩
    exact ⟨.inl (List.forall₂_same.mpr fun _ _ => rfl), .refl _, rfl⟩
  have orders : Classifier.Reordered (orderClass buyerAndTotal)
      (orderClass buyerAndTotal.reverse) :=
    ⟨attributes, .inl .nil, .inl .nil, .refl _, rfl⟩
  have roles : Shuffled Stereotype.sortKey [{ name := "A" }, { name := "B" }]
      [{ name := "B" }, { name := "A" }] :=
    .inr ⟨by simp [Stereotype.sortKey], _, .swap _ _ _, List.forall₂_same.mpr fun _ _ => rfl⟩
  have users : Classifier.Reordered (userClass [{ name := "A" }, { name := "B" }])
      (userClass [{ name := "B" }, { name := "A" }]) :=
    ⟨.inl .nil, .inl .nil, roles, .refl _, rfl⟩
  have classifiers : ReorderedBy Classifier.Reordered Classifier.canonical Classifier.id
      shop.classifiers shopBackwards.classifiers :=
    .inr ⟨by simp [shop, Classifier.canonical, userClass, orderClass], _, .swap _ _ _,
      .cons orders (.cons users .nil)⟩
  have reordered : shop.Reordered shopBackwards :=
    ⟨.inl .nil, classifiers, .inl .nil, .refl _, rfl⟩
  exact ⟨reordered, serialize_ignores_order.1 shop shopBackwards reordered false⟩

end Model

end CodeGraph
