import CodeGraph.Proofs.Draft.RelationTable

/-!
# What edits do to the parts of a draft

Each part of a draft is made from what the edits bring in for it: its packages from the files of
the classifiers, its relations from links, its declarations and findings one by one. The parts
after a list of edits follow from those before and from the edits, whatever else the edits do. What
a draft is about does not change at all.
-/

namespace CodeGraph

/-! ## What edits bring in -/

namespace Edit

/-- The file whose package an edit asks for. -/
def file? : Edit → Option String
  | .classifier file _ => some file
  | _ => none

/-- The declaration that an edit takes in. -/
def declaration? : Edit → Option Declaration
  | .declare _ declaration => some declaration
  | _ => none

/-- The link that an edit adds. -/
def link? : Edit → Option Link
  | .relate link => if link.isVoid then none else some link
  | _ => none

/-- The finding that an edit adds. -/
def finding? : Edit → Option Finding
  | .find finding => some finding
  | _ => none

/-- The edit notes that a search was given up. -/
def givesUp : Edit → Bool
  | .giveUp => true
  | _ => false

variable {edit : Edit}

theorem declaration?_eq_some {declaration : Declaration} :
    edit.declaration? = some declaration ↔
      ∃ scopedName, edit = .declare scopedName declaration := by
  cases edit <;> simp [declaration?]

theorem eq_relate_of_link? {link : Link} (added : edit.link? = some link) :
    edit = .relate link := by
  cases edit with
  | relate other =>
      rw [link?] at added
      split at added
      · contradiction
      · rw [Option.some.inj added]
  | bind | classifier | change | declare | find | giveUp => contradiction

theorem eq_find_of_finding? {finding : Finding} (added : edit.finding? = some finding) :
    edit = .find finding := by
  cases edit with
  | find other => rw [Option.some.inj added]
  | bind | classifier | change | declare | relate | giveUp => contradiction

end Edit

/-- A change leaves a classifier its name. -/
theorem ClassifierChange.apply_name (classifier : Classifier) (change : ClassifierChange) :
    (change.apply classifier).name = classifier.name := by
  cases change <;>
    simp only [apply, Classifier.addStereotype, Classifier.setTag, Classifier.addAttribute,
      Classifier.addOperation, Classifier.updateAttribute] <;>
    split <;> rfl

/-! ## Lists of edits -/

namespace Draft

theorem applyAll_cons (draft : Draft) (edit : Edit) (edits : List Edit) :
    draft.applyAll (edit :: edits) = (draft.apply edit).applyAll edits := rfl

theorem applyAll_append (draft : Draft) (first second : List Edit) :
    draft.applyAll (first ++ second) = (draft.applyAll first).applyAll second :=
  List.foldl_append

/-- What a draft is about stays as it is from the start. -/
structure SameTask (before after : Draft) : Prop where
  /-- The program is the same. -/
  program : after.program = before.program
  /-- So are the options. -/
  options : after.options = before.options
  /-- Findings are taken as before. -/
  reporting : after.reporting = before.reporting
  /-- Specifiers lead to the same files. -/
  resolver : after.symbols.resolver = before.symbols.resolver

theorem sameTask_apply (draft : Draft) (edit : Edit) : draft.SameTask (draft.apply edit) := by
  cases edit with
  | bind | declare | giveUp => exact ⟨rfl, rfl, rfl, rfl⟩
  | classifier | change | relate | find =>
      simp only [apply, addClassifier, changeClassifier, relate]
      split <;> exact ⟨rfl, rfl, rfl, rfl⟩

theorem sameTask_applyAll (draft : Draft) (edits : List Edit) :
    draft.SameTask (draft.applyAll edits) := by
  induction edits generalizing draft with
  | nil => exact ⟨rfl, rfl, rfl, rfl⟩
  | cons edit edits ih =>
      have first := sameTask_apply draft edit
      have later := ih (draft.apply edit)
      exact ⟨later.program.trans first.program, later.options.trans first.options,
        later.reporting.trans first.reporting, later.resolver.trans first.resolver⟩

@[simp]
theorem options_applyAll (draft : Draft) (edits : List Edit) :
    (draft.applyAll edits).options = draft.options :=
  (sameTask_applyAll draft edits).options

/-! ## The parts -/

/-- An edit that adds no classifier leaves all of them their names. -/
theorem nameOf_apply (draft : Draft) {edit : Edit} (addsNone : edit.file? = none) (id : String) :
    (draft.apply edit).nameOf id = draft.nameOf id := by
  cases edit with
  | classifier => cases addsNone
  | change other change =>
      rw [apply, changeClassifier]
      split
      next classifier found =>
        by_cases same : id = other
        · subst same
          rw [classifier?] at found
          simp [nameOf, classifier?, ClassifierChange.apply_name, found]
        · rw [nameOf, classifier?, Ordered.get?_set_of_ne _ _ same]
          rfl
      next => rfl
  | relate | find =>
      simp only [apply, relate]
      split <;> rfl
  | bind | declare | giveUp => rfl

theorem packages_apply (draft : Draft) (edit : Edit) :
    (draft.apply edit).packages = edit.file?.toList.foldl PackageMap.ensureFile draft.packages := by
  cases edit with
  | classifier =>
      rw [apply, addClassifier]
      split <;> rfl
  | change | relate | find =>
      simp only [apply, changeClassifier, relate]
      split <;> rfl
  | bind | declare | giveUp => rfl

/-- The packages of a draft are those that the files of added classifiers need besides. -/
theorem packages_applyAll (draft : Draft) (edits : List Edit) :
    (draft.applyAll edits).packages
      = (edits.filterMap Edit.file?).foldl PackageMap.ensureFile draft.packages := by
  induction edits generalizing draft with
  | nil => rfl
  | cons edit edits ih =>
      rw [applyAll_cons, ih, packages_apply, List.filterMap_cons]
      cases edit.file? <;> rfl

theorem declarations_apply (draft : Draft) (edit : Edit) :
    (draft.apply edit).declarations = draft.declarations ++ edit.declaration?.toList := by
  cases edit with
  | declare => rfl
  | classifier | change | relate | find =>
      simp only [apply, addClassifier, changeClassifier, relate]
      split <;> exact (List.append_nil _).symm
  | bind | giveUp => exact (List.append_nil _).symm

/-- The declarations of a draft are those that were taken in. -/
theorem declarations_applyAll (draft : Draft) (edits : List Edit) :
    (draft.applyAll edits).declarations
      = draft.declarations ++ edits.filterMap Edit.declaration? := by
  induction edits generalizing draft with
  | nil => exact (List.append_nil _).symm
  | cons edit edits ih =>
      rw [applyAll_cons, ih, declarations_apply, List.filterMap_cons]
      cases edit.declaration? <;> simp

/-- A declaration that an edit leaves was there before or is taken in by it. -/
theorem mem_declarations_apply {draft : Draft} {edit : Edit} {declaration : Declaration} :
    declaration ∈ (draft.apply edit).declarations ↔
      declaration ∈ draft.declarations ∨ ∃ scopedName, edit = .declare scopedName declaration := by
  rw [declarations_apply, List.mem_append, Option.mem_toList, Edit.declaration?_eq_some]

/-- A declaration that edits leave was there before or is taken in by one of them. -/
theorem mem_declarations_applyAll {draft : Draft} {edits : List Edit} {declaration : Declaration} :
    declaration ∈ (draft.applyAll edits).declarations ↔
      declaration ∈ draft.declarations ∨ ∃ scopedName, .declare scopedName declaration ∈ edits := by
  rw [declarations_applyAll, List.mem_append, List.mem_filterMap]
  refine or_congr_right ⟨?_, ?_⟩
  · rintro ⟨edit, present, taken⟩
    obtain ⟨scopedName, rfl⟩ := Edit.declaration?_eq_some.mp taken
    exact ⟨scopedName, present⟩
  · rintro ⟨scopedName, present⟩
    exact ⟨_, present, rfl⟩

/-- Edits take no declaration back. -/
theorem declarations_subset_applyAll (draft : Draft) (edits : List Edit) :
    draft.declarations ⊆ (draft.applyAll edits).declarations := by
  rw [declarations_applyAll]
  exact List.subset_append_left _ _

theorem relations_apply (draft : Draft) (edit : Edit) :
    (draft.apply edit).relations = edit.link?.toList.foldl Link.addTo draft.relations := by
  cases edit with
  | relate link =>
      rw [apply, relate, Edit.link?]
      split <;> rfl
  | classifier | change | find =>
      simp only [apply, addClassifier, changeClassifier]
      split <;> rfl
  | bind | declare | giveUp => rfl

/-- The relations of a draft are those of the links that were added to it. -/
theorem relations_applyAll (draft : Draft) (edits : List Edit) :
    (draft.applyAll edits).relations
      = (edits.filterMap Edit.link?).foldl Link.addTo draft.relations := by
  induction edits generalizing draft with
  | nil => rfl
  | cons edit edits ih =>
      rw [applyAll_cons, ih, relations_apply, List.filterMap_cons]
      cases edit.link? <;> rfl

theorem findings_apply (draft : Draft) (edit : Edit) :
    (draft.apply edit).findings
      = draft.findings ++ if draft.reporting then edit.finding?.toList else [] := by
  cases edit with
  | find finding =>
      rw [apply, Edit.finding?]
      split <;> simp
  | classifier | change | relate =>
      simp only [apply, addClassifier, changeClassifier, relate]
      split <;> simp [Edit.finding?]
  | bind | declare | giveUp => simp [apply, Edit.finding?]

/-- A finding after an edit was there before, or the edit tells it. -/
theorem mem_findings_of_apply {draft : Draft} {edit : Edit} {finding : Finding}
    (present : finding ∈ (draft.apply edit).findings) :
    finding ∈ draft.findings ∨ edit = .find finding := by
  rw [findings_apply] at present
  refine (List.mem_append.mp present).imp id fun told => ?_
  split at told
  · exact Edit.eq_find_of_finding? (Option.mem_toList.mp told)
  · cases told

/-- The findings of a draft are those that were added to it, if it takes any. -/
theorem findings_applyAll (draft : Draft) (edits : List Edit) :
    (draft.applyAll edits).findings
      = draft.findings ++ if draft.reporting then edits.filterMap Edit.finding? else [] := by
  induction edits generalizing draft with
  | nil => simp [applyAll]
  | cons edit edits ih =>
      rw [applyAll_cons, ih, findings_apply, (sameTask_apply draft edit).reporting,
        List.filterMap_cons]
      cases draft.reporting <;> cases edit.finding? <;> simp

theorem givenUp_apply (draft : Draft) (edit : Edit) :
    (draft.apply edit).givenUp = (draft.givenUp || edit.givesUp) := by
  cases edit with
  | giveUp => simp [apply, Edit.givesUp]
  | classifier | change | relate | find =>
      simp only [apply, addClassifier, changeClassifier, relate]
      split <;> simp [Edit.givesUp]
  | bind | declare => simp [apply, Edit.givesUp]

theorem givenUp_applyAll (draft : Draft) (edits : List Edit) :
    (draft.applyAll edits).givenUp = (draft.givenUp || edits.any Edit.givesUp) := by
  induction edits generalizing draft with
  | nil => simp [applyAll]
  | cons edit edits ih =>
      rw [applyAll_cons, ih, givenUp_apply, List.any_cons, Bool.or_assoc]

end Draft

end CodeGraph
