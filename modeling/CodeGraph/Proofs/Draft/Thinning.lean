import CodeGraph.Proofs.Draft.Parts

/-!
# Thinned lists of edits

A list is thinned when some of its items are left out and the others stay in their order. Two
drafts that are alike, apart from what only accumulates in them, answer every question in the same
way. So when an option only decides whether some edits are made, and these edits only add
relations and findings, then the edits of one run are those of the other one, thinned.
-/

namespace CodeGraph

/-! ## Thinning -/

/-- The first list is the second one with some items left out. Every item of the first list `stays`
and every item that is left out `goes`. -/
inductive Thinning {α : Type} (stays goes : α → Prop) : (first second : List α) → Prop
  /-- Nothing is left out of nothing. -/
  | nil : Thinning stays goes [] []
  /-- An item stays. -/
  | keep {item : α} {first second : List α} (stay : stays item)
      (rest : Thinning stays goes first second) :
      Thinning stays goes (item :: first) (item :: second)
  /-- An item is left out. -/
  | drop {item : α} {first second : List α} (go : goes item)
      (rest : Thinning stays goes first second) : Thinning stays goes first (item :: second)

namespace Thinning

variable {α β : Type} {stays goes : α → Prop} {first second : List α}

theorem mono {stays' goes' : α → Prop} (thinning : Thinning stays goes first second)
    (stay : ∀ item, stays item → stays' item) (go : ∀ item, goes item → goes' item) :
    Thinning stays' goes' first second := by
  induction thinning with
  | nil => exact .nil
  | keep here _ ih => exact .keep (stay _ here) ih
  | drop here _ ih => exact .drop (go _ here) ih

/-- A list of items that stay. -/
theorem same {items : List α} (stay : ∀ item ∈ items, stays item) :
    Thinning stays goes items items := by
  induction items with
  | nil => exact .nil
  | cons item items ih =>
      obtain ⟨here, further⟩ := List.forall_mem_cons.mp stay
      exact .keep here (ih further)

/-- A list of items that go. -/
theorem none {items : List α} (go : ∀ item ∈ items, goes item) :
    Thinning stays goes [] items := by
  induction items with
  | nil => exact .nil
  | cons item items ih =>
      obtain ⟨here, further⟩ := List.forall_mem_cons.mp go
      exact .drop here (ih further)

theorem append {third fourth : List α} (left : Thinning stays goes first second)
    (right : Thinning stays goes third fourth) :
    Thinning stays goes (first ++ third) (second ++ fourth) := by
  induction left with
  | nil => exact right
  | keep stay _ ih => exact .keep stay ih
  | drop go _ ih => exact .drop go ih

theorem flatMap {items : List β} {fewer more : β → List α}
    (each : ∀ item ∈ items, Thinning stays goes (fewer item) (more item)) :
    Thinning stays goes (items.flatMap fewer) (items.flatMap more) := by
  induction items with
  | nil => exact .nil
  | cons item items ih =>
      obtain ⟨here, further⟩ := List.forall_mem_cons.mp each
      rw [List.flatMap_cons, List.flatMap_cons]
      exact here.append (ih further)

theorem sublist (thinning : Thinning stays goes first second) : first.Sublist second := by
  induction thinning with
  | nil => exact .slnil
  | keep _ _ ih => exact ih.cons_cons _
  | drop _ _ ih => exact ih.cons _

/-- Every item of the first list stays. -/
theorem stays_of_mem (thinning : Thinning stays goes first second) :
    ∀ item ∈ first, stays item := by
  induction thinning with
  | nil => simp
  | keep stay _ ih => exact List.forall_mem_cons.mpr ⟨stay, ih⟩
  | drop _ _ ih => exact ih

/-- An item of the second list is in the first one or goes. -/
theorem mem_or_goes (thinning : Thinning stays goes first second) :
    ∀ item ∈ second, item ∈ first ∨ goes item := by
  induction thinning with
  | nil => simp
  | keep _ _ ih =>
      refine List.forall_mem_cons.mpr ⟨.inl List.mem_cons_self, fun item present => ?_⟩
      exact (ih item present).imp (List.mem_cons_of_mem _) id
  | drop go _ ih => exact List.forall_mem_cons.mpr ⟨.inr go, ih⟩

/-- Both lists have the same items of a sort that nothing that goes has. -/
theorem filter_eq (thinning : Thinning stays goes first second) {keep : α → Bool}
    (gone : ∀ item, goes item → keep item = false) : first.filter keep = second.filter keep := by
  induction thinning with
  | nil => rfl
  | keep _ _ ih => rw [List.filter_cons, List.filter_cons, ih]
  | drop go _ ih => rw [List.filter_cons_of_neg (by simp [gone _ go]), ih]

/-- Both lists have an item of such a sort or none has. -/
theorem any_eq (thinning : Thinning stays goes first second) {test : α → Bool}
    (gone : ∀ item, goes item → test item = false) : first.any test = second.any test := by
  induction thinning with
  | nil => rfl
  | keep _ _ ih => rw [List.any_cons, List.any_cons, ih]
  | drop go _ ih => rw [List.any_cons, gone _ go, Bool.false_or, ih]

/-- What is picked from thinned lists is thinned. -/
theorem filterMap {stays' goes' : β → Prop} {pick : α → Option β}
    (thinning : Thinning stays goes first second)
    (stay : ∀ item picked, stays item → pick item = some picked → stays' picked)
    (go : ∀ item picked, goes item → pick item = some picked → goes' picked) :
    Thinning stays' goes' (first.filterMap pick) (second.filterMap pick) := by
  induction thinning with
  | nil => exact .nil
  | @keep item _ _ here _ ih =>
      rw [List.filterMap_cons, List.filterMap_cons]
      cases picked : pick item with
      | none => exact ih
      | some _ => exact .keep (stay item _ here picked) ih
  | @drop item _ _ here _ ih =>
      rw [List.filterMap_cons]
      cases picked : pick item with
      | none => exact ih
      | some _ => exact .drop (go item _ here picked) ih

/-- Nothing is left out where nothing goes. -/
theorem eq_of_none_go (thinning : Thinning stays goes first second)
    (none_go : ∀ item, ¬ goes item) : first = second := by
  induction thinning with
  | nil => rfl
  | keep _ _ ih => rw [ih]
  | drop go _ _ => exact absurd go (none_go _)

end Thinning

/-! ## What edits add -/

namespace Edit

/-- The edit only adds to what accumulates in a draft and is never looked at: relations, findings
and the note that a search was given up. -/
def Accumulates : Edit → Prop
  | .relate _ | .find _ | .giveUp => True
  | .bind _ _ | .classifier _ _ | .change _ _ | .declare _ _ => False

end Edit

namespace Thinning

variable {stays goes : Edit → Prop} {first second : List Edit}

/-- The links of thinned edits are thinned. -/
theorem links (thinning : Thinning stays goes first second) :
    Thinning (fun link => stays (.relate link)) (fun link => goes (.relate link))
      (first.filterMap Edit.link?) (second.filterMap Edit.link?) := by
  refine thinning.filterMap (fun edit link stay added => ?_) fun edit link go added => ?_
  · exact Edit.eq_relate_of_link? added ▸ stay
  · exact Edit.eq_relate_of_link? added ▸ go

/-- So are their findings. -/
theorem findings (thinning : Thinning stays goes first second) :
    Thinning (fun finding => stays (.find finding)) (fun finding => goes (.find finding))
      (first.filterMap Edit.finding?) (second.filterMap Edit.finding?) := by
  refine thinning.filterMap (fun edit finding stay added => ?_) fun edit finding go added => ?_
  · exact Edit.eq_find_of_finding? added ▸ stay
  · exact Edit.eq_find_of_finding? added ▸ go

end Thinning

/-! ## Drafts that are alike -/

namespace Draft

/-- The drafts have the same, apart from their options and from what accumulates in them. -/
structure Alike (small large : Draft) : Prop where
  /-- They are about one program. -/
  program : large.program = small.program
  /-- Names mean the same. -/
  symbols : large.symbols = small.symbols
  /-- They have the same packages. -/
  packages : large.packages = small.packages
  /-- They have the same classifiers. -/
  classifiers : large.classifiers = small.classifiers
  /-- They have the same declarations. -/
  declarations : large.declarations = small.declarations

namespace Alike

variable {small large : Draft}

theorem classifier? (alike : Alike small large) (id : String) :
    large.classifier? id = small.classifier? id := by
  rw [Draft.classifier?, Draft.classifier?, alike.classifiers]

theorem nameOf (alike : Alike small large) (id : String) : large.nameOf id = small.nameOf id := by
  rw [Draft.nameOf, Draft.nameOf, alike.classifier?]

/-- An edit does the same to drafts that are alike. -/
theorem apply (alike : Alike small large) (edit : Edit) :
    Alike (small.apply edit) (large.apply edit) := by
  obtain ⟨program, symbols, packages, classifiers, declarations⟩ := alike
  cases edit with
  | bind | declare | giveUp => constructor <;> simp_all [Draft.apply]
  | classifier | change =>
      simp only [Draft.apply, addClassifier, changeClassifier, Draft.classifier?, packages,
        classifiers]
      split <;> constructor <;> simp_all
  | relate link =>
      simp only [Draft.apply, relate]
      split <;> constructor <;> simp_all
  | find finding =>
      simp only [Draft.apply]
      split <;> split <;> constructor <;> simp_all

/-- What only accumulates keeps a draft alike. -/
theorem accumulate (alike : Alike small large) {edit : Edit} (accumulates : edit.Accumulates) :
    Alike small (large.apply edit) := by
  obtain ⟨program, symbols, packages, classifiers, declarations⟩ := alike
  cases edit with
  | bind | classifier | change | declare => exact accumulates.elim
  | giveUp => exact ⟨program, symbols, packages, classifiers, declarations⟩
  | relate | find =>
      simp only [Draft.apply, relate]
      split <;> exact ⟨program, symbols, packages, classifiers, declarations⟩

/-- Drafts stay alike when the edits of one are those of the other, thinned of what only
accumulates. -/
theorem applyAll (alike : Alike small large) {stays goes : Edit → Prop} {first second : List Edit}
    (thinning : Thinning stays goes first second)
    (accumulate : ∀ edit, goes edit → edit.Accumulates) :
    Alike (small.applyAll first) (large.applyAll second) := by
  induction thinning generalizing small large with
  | nil => exact alike
  | keep _ _ ih => exact ih (alike.apply _)
  | drop go _ ih => exact ih (alike.accumulate (accumulate _ go))

end Alike

end Draft

end CodeGraph
