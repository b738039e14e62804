import CodeGraph.Proofs.Draft.Declared
import CodeGraph.Proofs.Draft.Regular

/-!
# Indexes of names

A name that means nothing where it stands is looked up among all classifiers of a kind in the
project. The indexes of what is rendered and of what Angular routes lead to know a name only as long
as one classifier has it. The index of what React routes lead to knows every name, and takes the
first React component of several classifiers, or else the first one.
-/

namespace CodeGraph

open Syntax

/-! ## Tables that are filled item by item -/

/-- Of items with different keys and one key there is one. -/
theorem eq_singleton_of_nodup {α β : Type} {key : α → β} {items : List α} {item : α}
    (nodup : (items.map key).Nodup) (present : item ∈ items)
    (same : ∀ other ∈ items, key other = key item) : items = [item] := by
  match items with
  | [] => exact absurd present List.not_mem_nil
  | [only] => rw [List.mem_singleton.mp present]
  | first :: second :: rest =>
      have keys := (same first (by simp)).trans (same second (by simp)).symm
      simp [keys] at nodup

section Filling

variable {α β : Type} {name : α → String} {step : Ordered β → α → Ordered β}
  {change : Option β → α → Option β}

/-- If an item changes only what is known under its own name, then what is known under a name is
made of the items of that name, in order. -/
theorem get?_foldl_step
    (own : ∀ index item, Ordered.get? (step index item) (name item)
      = change (Ordered.get? index (name item)) item)
    (others : ∀ index item other, other ≠ name item →
      Ordered.get? (step index item) other = Ordered.get? index other)
    (index : Ordered β) (items : List α) (key : String) :
    Ordered.get? (items.foldl step index) key
      = (items.filter (name · == key)).foldl change (Ordered.get? index key) := by
  induction items generalizing index with
  | nil => rfl
  | cons item items ih =>
      rw [List.foldl_cons, ih]
      by_cases here : name item = key
      · rw [List.filter_cons_of_pos (by simp [here]), List.foldl_cons, ← here, own]
      · rw [List.filter_cons_of_neg (by simp [here]), others index item key (Ne.symm here)]

end Filling

namespace Draft

variable {draft : Draft} {id name : String} {classifier : Classifier}

/-- The classifiers with a name that qualify, in order. -/
def named (draft : Draft) (qualifies : Classifier → Bool) (name : String) : List Classifier :=
  ((Ordered.values draft.classifiers).filter qualifies).filter (·.name == name)

theorem mem_named {qualifies : Classifier → Bool} :
    classifier ∈ draft.named qualifies name ↔
      classifier ∈ Ordered.values draft.classifiers ∧ qualifies classifier = true ∧
        classifier.name = name := by
  rw [named, List.mem_filter, List.mem_filter, beq_iff_eq, and_assoc]

theorem Regular.map_id_values (regular : draft.Regular) :
    (Ordered.values draft.classifiers).map (·.id) = Ordered.keys draft.classifiers := by
  rw [Ordered.values, Ordered.keys, List.map_map]
  exact List.map_congr_left fun entry present => (regular.classifier_regular _ _ present).1

theorem Regular.nodup_named (regular : draft.Regular) (qualifies : Classifier → Bool)
    (name : String) : ((draft.named qualifies name).map (·.id)).Nodup := by
  have all := regular.classifiers_nodup
  rw [← regular.map_id_values] at all
  exact all.sublist ((List.filter_sublist.trans List.filter_sublist).map _)

theorem Regular.classifier?_of_mem (regular : draft.Regular)
    (present : classifier ∈ Ordered.values draft.classifiers) :
    draft.classifier? classifier.id = some classifier := by
  obtain ⟨⟨id, _⟩, entry_mem, rfl⟩ := List.mem_map.mp present
  rw [(regular.classifier_regular id _ entry_mem).1]
  exact Ordered.get?_of_mem regular.classifiers_nodup entry_mem

end Draft

/-! ## What is rendered -/

namespace React

variable {draft : Draft} {id name : String}

/-- The classifier is a React component. -/
def isRendered (classifier : Classifier) : Bool :=
  classifier.kind == .component && classifier.hasStereotype "ReactComponent"

/-- The React components that are declared, once for each declaration. -/
def declaredComponents (draft : Draft) : List Classifier :=
  draft.declarations.filterMap fun declaration =>
    (draft.classifier? declaration.classifierId).filter isRendered

theorem componentIndex_eq_foldl (draft : Draft) :
    componentIndex draft = (declaredComponents draft).foldl
      (fun index classifier => addCandidate index classifier.name classifier.id) [] := by
  rw [componentIndex, declaredComponents, List.foldl_filterMap]
  congr 1
  funext index declaration
  cases draft.classifier? declaration.classifierId with
  | none => rfl
  | some classifier =>
      cases qualifies : isRendered classifier with
      | true | false =>
          have both := qualifies
          rw [isRendered] at both
          simp [Option.filter, qualifies, both]

/-- What is known of a name when one more classifier has it. -/
def noted : Option (Option String) → Classifier → Option (Option String)
  | none, classifier => some (some classifier.id)
  | some known, classifier => some (if known = some classifier.id then known else none)

theorem get?_addCandidate (index : Ordered (Option String)) (classifier : Classifier) :
    Ordered.get? (addCandidate index classifier.name classifier.id) classifier.name
      = noted (Ordered.get? index classifier.name) classifier := by
  rw [addCandidate]
  cases Ordered.get? index classifier.name with
  | none => simp [noted]
  | some known => by_cases same : known = some classifier.id <;> simp [noted, same]

theorem get?_addCandidate_of_ne (index : Ordered (Option String)) (classifier : Classifier)
    (other : String) (ne : other ≠ classifier.name) :
    Ordered.get? (addCandidate index classifier.name classifier.id) other
      = Ordered.get? index other := by
  rw [addCandidate]
  split <;> exact Ordered.get?_set_of_ne _ _ ne

theorem foldl_noted_some (classifiers : List Classifier) (known : Option String) :
    classifiers.foldl noted (some known)
      = some (if ∀ classifier ∈ classifiers, known = some classifier.id then known else none) := by
  induction classifiers generalizing known with
  | nil => simp
  | cons classifier classifiers ih =>
      rw [List.foldl_cons, noted, ih]
      by_cases same : known = some classifier.id
      · simp [same]
      · simp [same]

/-- A name stays known as long as all classifiers that have it are one. -/
theorem foldl_noted_none (classifiers : List Classifier) :
    (classifiers.foldl noted none).getD none = some id ↔
      classifiers ≠ [] ∧ ∀ classifier ∈ classifiers, classifier.id = id := by
  cases classifiers with
  | nil => simp
  | cons classifier classifiers =>
      rw [List.foldl_cons, noted, foldl_noted_some, Option.getD_some, List.forall_mem_cons]
      constructor
      · intro found
        split at found
        next same =>
          obtain rfl := Option.some.inj found
          exact ⟨by simp, rfl, fun other present => (Option.some.inj (same other present)).symm⟩
        next => cases found
      · rintro ⟨_, rfl, same⟩
        exact if_pos fun other present => congrArg some (same other present).symm

theorem mem_declaredComponents (declared : draft.ComponentsDeclared) (regular : draft.Regular)
    {classifier : Classifier} : classifier ∈ declaredComponents draft ↔
      classifier ∈ Ordered.values draft.classifiers ∧ isRendered classifier = true := by
  rw [declaredComponents, List.mem_filterMap]
  constructor
  · rintro ⟨declaration, _, found⟩
    obtain ⟨stands, qualifies⟩ := Option.filter_eq_some_iff.mp found
    exact ⟨List.mem_map.mpr ⟨_, Ordered.mem_of_get? stands, rfl⟩, qualifies⟩
  · rintro ⟨present, qualifies⟩
    obtain ⟨⟨id, _⟩, entry_mem, rfl⟩ := List.mem_map.mp present
    have component : _ = ClassifierKind.component :=
      beq_iff_eq.mp (Bool.and_eq_true_iff.mp qualifies).1
    obtain ⟨declaration, listed, rfl⟩ := declared id _ entry_mem component
    refine ⟨declaration, listed, Option.filter_eq_some_iff.mpr ⟨?_, qualifies⟩⟩
    exact Ordered.get?_of_mem regular.classifiers_nodup entry_mem

/-- The index of what is rendered knows a name exactly if one React component has it. -/
theorem componentIndex_knows (declared : draft.ComponentsDeclared) (regular : draft.Regular) :
    (Ordered.get? (componentIndex draft) name).getD none = some id ↔
      ∃ found, draft.named isRendered name = [found] ∧ found.id = id := by
  have members : ∀ classifier,
      classifier ∈ (declaredComponents draft).filter (·.name == name) ↔
        classifier ∈ draft.named isRendered name := by
    intro classifier
    rw [List.mem_filter, mem_declaredComponents declared regular, Draft.mem_named, beq_iff_eq,
      and_assoc]
  have nodup := regular.nodup_named isRendered name
  rw [componentIndex_eq_foldl, get?_foldl_step get?_addCandidate get?_addCandidate_of_ne,
    Ordered.get?_nil, foldl_noted_none]
  constructor
  · rintro ⟨something, same⟩
    obtain ⟨found, found_mem⟩ := List.exists_mem_of_ne_nil _ something
    have found_id := same found found_mem
    refine ⟨found, eq_singleton_of_nodup nodup ((members found).mp found_mem) ?_, found_id⟩
    exact fun other present => (same other ((members other).mpr present)).trans found_id.symm
  · rintro ⟨found, alone, rfl⟩
    have only := fun classifier => (members classifier).trans (alone ▸ List.mem_singleton)
    refine ⟨List.ne_nil_of_mem ((only found).mpr rfl), fun classifier present => ?_⟩
    rw [(only classifier).mp present]

end React

/-! ## What Angular routes lead to -/

namespace Angular

variable {draft : Draft} {id name : String}

/-- The classifier is neither a route nor a file. -/
def isRoutable (classifier : Classifier) : Bool :=
  !(classifier.hasStereotype "AngularRoute" || classifier.hasStereotype "SourceFile")

theorem routeIndex_eq_foldl (draft : Draft) :
    routeIndex draft = ((Ordered.values draft.classifiers).filter isRoutable).foldl
      (fun index classifier => Ordered.set index classifier.name
        (if (Ordered.get? index classifier.name).isSome then none else some classifier.id)) [] := by
  rw [routeIndex, List.foldl_filter]
  congr 1
  funext index classifier
  cases apart :
    classifier.hasStereotype "AngularRoute" || classifier.hasStereotype "SourceFile" with
  | true | false => simp [isRoutable, apart]

/-- What is known of a name when one more classifier has it. -/
def taken : Option (Option String) → Classifier → Option (Option String)
  | none, classifier => some (some classifier.id)
  | some _, _ => some none

theorem get?_set_taken (index : Ordered (Option String)) (classifier : Classifier) :
    Ordered.get? (Ordered.set index classifier.name
        (if (Ordered.get? index classifier.name).isSome then none else some classifier.id))
        classifier.name
      = taken (Ordered.get? index classifier.name) classifier := by
  rw [Ordered.get?_set_self]
  cases Ordered.get? index classifier.name with
  | none | some => rfl

theorem foldl_taken_some (classifiers : List Classifier) :
    classifiers.foldl taken (some none) = some none := by
  induction classifiers with
  | nil => rfl
  | cons classifier classifiers ih => exact ih

/-- A name stays known as long as one classifier has it. -/
theorem foldl_taken_none (classifiers : List Classifier) :
    (classifiers.foldl taken none).getD none = some id ↔
      ∃ found, classifiers = [found] ∧ found.id = id := by
  match classifiers with
  | [] => simp
  | [only] => simp [taken]
  | first :: second :: rest => simp [taken, foldl_taken_some]

/-- The index of what Angular routes lead to knows a name exactly if one classifier has it that is
neither a route nor a file. -/
theorem routeIndex_knows : (Ordered.get? (routeIndex draft) name).getD none = some id ↔
    ∃ found, draft.named isRoutable name = [found] ∧ found.id = id := by
  rw [routeIndex_eq_foldl, get?_foldl_step get?_set_taken fun index classifier other ne =>
    Ordered.get?_set_of_ne index _ ne, Ordered.get?_nil, foldl_taken_none]
  rfl

end Angular

/-! ## What React routes lead to -/

namespace React

variable {draft : Draft} {name : String}

/-- The classifier is a component. -/
def isRoutable (classifier : Classifier) : Bool :=
  classifier.kind == .component

/-- The first React component of several classifiers, or else the first one. -/
def preferred? (classifiers : List Classifier) : Option Classifier :=
  (classifiers.find? (·.hasStereotype "ReactComponent")).or classifiers.head?

theorem mem_of_preferred? {classifiers : List Classifier} {found : Classifier}
    (preferred : preferred? classifiers = some found) : found ∈ classifiers := by
  rcases Option.or_eq_some_iff.mp preferred with react | ⟨_, first⟩
  · exact List.mem_of_find?_eq_some react
  · exact List.mem_of_head? first

/-- The index with one more component. -/
def addRoutable (index : Ordered Classifier) (classifier : Classifier) : Ordered Classifier :=
  match Ordered.get? index classifier.name with
  | none => Ordered.set index classifier.name classifier
  | some known =>
      if !known.hasStereotype "ReactComponent" && classifier.hasStereotype "ReactComponent" then
        Ordered.set index classifier.name classifier
      else
        index

theorem routeComponents_eq_foldl (draft : Draft) :
    routeComponents draft
      = ((Ordered.values draft.classifiers).filter isRoutable).foldl addRoutable [] := by
  rw [routeComponents, List.foldl_filter]
  rfl

/-- What is known of a name when one more component has it. -/
def replaced : Option Classifier → Classifier → Option Classifier
  | none, classifier => some classifier
  | some known, classifier =>
      if !known.hasStereotype "ReactComponent" && classifier.hasStereotype "ReactComponent" then
        some classifier
      else
        some known

theorem get?_addRoutable (index : Ordered Classifier) (classifier : Classifier) :
    Ordered.get? (addRoutable index classifier) classifier.name
      = replaced (Ordered.get? index classifier.name) classifier := by
  rw [addRoutable]
  split
  next absent => simp [absent, replaced]
  next known found =>
    rw [found, replaced]
    split
    · exact Ordered.get?_set_self ..
    · exact found

theorem get?_addRoutable_of_ne (index : Ordered Classifier) (classifier : Classifier)
    (other : String) (ne : other ≠ classifier.name) :
    Ordered.get? (addRoutable index classifier) other = Ordered.get? index other := by
  rw [addRoutable]
  split
  · exact Ordered.get?_set_of_ne _ _ ne
  · split
    · exact Ordered.get?_set_of_ne _ _ ne
    · rfl

theorem foldl_replaced_some (classifiers : List Classifier) (known : Classifier) :
    classifiers.foldl replaced (some known)
      = if known.hasStereotype "ReactComponent" then some known
        else (classifiers.find? (·.hasStereotype "ReactComponent")).or (some known) := by
  induction classifiers generalizing known with
  | nil => simp
  | cons classifier classifiers ih =>
      rw [List.foldl_cons, replaced, List.find?_cons]
      cases before : known.hasStereotype "ReactComponent" <;>
        cases here : classifier.hasStereotype "ReactComponent" <;> simp [ih, before, here]

/-- The first component of a name stays, unless it gives way to the first React component. -/
theorem foldl_replaced_none (classifiers : List Classifier) :
    classifiers.foldl replaced none = preferred? classifiers := by
  cases classifiers with
  | nil => rfl
  | cons classifier classifiers =>
      rw [List.foldl_cons, replaced, foldl_replaced_some, preferred?, List.find?_cons]
      cases here : classifier.hasStereotype "ReactComponent" <;> simp

/-- The index of what React routes lead to knows each name that a component has. -/
theorem routeComponents_knows : Ordered.get? (routeComponents draft) name
    = preferred? (draft.named isRoutable name) := by
  rw [routeComponents_eq_foldl, get?_foldl_step get?_addRoutable get?_addRoutable_of_ne,
    Ordered.get?_nil, foldl_replaced_none]
  rfl

end React

/-! ## Links by name -/

/-- One of the edits adds a link to the classifier with an id. -/
def LinkTo (edits : List Edit) (id : String) : Prop :=
  ∃ link, Edit.relate link ∈ edits ∧ link.targetId = id

section

variable {draft : Draft} {id : String}

theorem not_linkTo_nil : ¬ LinkTo [] id := by
  simp [LinkTo]

theorem not_linkTo_finding (finding : Finding) : ¬ LinkTo [.find finding] id := by
  simp [LinkTo]

theorem linkTo_append {first second : List Edit} :
    LinkTo (first ++ second) id ↔ LinkTo first id ∨ LinkTo second id := by
  simp only [LinkTo, List.mem_append, or_and_right, exists_or]

theorem linkTo_link {options : ExtractOptions} {source : Source} {routeId targetId role : String}
    {node : Node} {path : String} {extra : List Tag} :
    LinkTo (Routes.link options source routeId targetId role node path extra) id ↔
      options.includeFrameworkEdges = true ∧ targetId = id := by
  rw [Routes.link]
  split
  next asked => simp [LinkTo, asked]
  next silent => simp [LinkTo, silent]

theorem not_linkTo_unknownTag (source : Source) (owner : Declaration) (tag : String) (node : Node) :
    ¬ LinkTo (React.unknownTag draft source owner tag node) id := by
  rw [React.unknownTag]
  split
  · rw [Draft.withMeaning]
    split <;> simp [LinkTo]
  · exact not_linkTo_finding _

theorem not_linkTo_roleEdits (other : String) (target : Angular.RouteTarget) :
    ¬ LinkTo (Angular.roleEdits other target) id := by
  rw [Angular.roleEdits]
  split
  · simp [LinkTo]
  · split <;> simp [LinkTo]

/-- An index that knows the id of whatever has a name alone knows none where nothing has it alone,
and the one where something has. -/
theorem known_or_not (index : Ordered (Option String)) (test : Classifier → Bool) (name : String)
    (knows : ∀ id, (index.get? name).getD none = some id ↔
      ∃ found, draft.named test name = [found] ∧ found.id = id) :
    ((index.get? name).getD none = none ∧ ∀ found, draft.named test name ≠ [found]) ∨
      ∃ found, (index.get? name).getD none = some found.id ∧ draft.named test name = [found] := by
  cases known : (index.get? name).getD none with
  | none =>
      refine .inl ⟨rfl, fun found alone => ?_⟩
      simpa [known] using (knows found.id).mpr ⟨found, alone, rfl⟩
  | some id =>
      obtain ⟨found, alone, rfl⟩ := (knows id).mp known
      exact .inr ⟨found, rfl, alone⟩

theorem linkTo_renderEdits (declared : draft.ComponentsDeclared) (regular : draft.Regular)
    {source : Source} {owner : Declaration} {tag : String} {node : Node}
    (lacks : draft.symbols.Lacks source.path tag owner.scope) :
    LinkTo (React.renderEdits draft (React.componentIndex draft) source owner tag node) id ↔
      draft.options.includeFrameworkEdges = true ∧
        draft.symbols.isExternal source.path tag = false ∧ '.' ∉ tag.toList ∧
          ∃ found, draft.named React.isRendered tag = [found] ∧ found.id = id := by
  obtain ⟨asked, absent⟩ := lacks
  have known := known_or_not (React.componentIndex draft) React.isRendered tag
    fun _ => React.componentIndex_knows declared regular
  rw [React.renderEdits, Draft.withMeaning, absent]
  cases outside : draft.symbols.isExternal source.path tag with
  | true => simp [React.rendered?, not_linkTo_nil]
  | false =>
      by_cases dotted : '.' ∈ tag.toList
      · simp [React.rendered?, dotted, not_linkTo_unknownTag]
      · rcases known with ⟨unknown, none_alone⟩ | ⟨found, known, alone⟩
        · simp [React.rendered?, dotted, unknown, none_alone, not_linkTo_unknownTag]
        · have found_mem := Draft.mem_named.mp (alone ▸ List.mem_singleton.mpr rfl)
          have component : (found.kind == .component) = true :=
            (Bool.and_eq_true_iff.mp found_mem.2.1).1
          have stands := regular.classifier?_of_mem found_mem.1
          cases asked : draft.options.includeFrameworkEdges with
          | true | false =>
              simp [React.rendered?, dotted, known, stands, component, alone, LinkTo]

theorem linkTo_targetEditsFrom {source : Source} {routeId path file : String}
    {target : Angular.RouteTarget} (lacks : draft.symbols.Lacks file target.name []) :
    LinkTo (Angular.targetEditsFrom draft (Angular.routeIndex draft) source routeId path target
        file) id ↔
      draft.options.includeFrameworkEdges = true ∧
        draft.symbols.isExternal file target.name = false ∧
          ∃ found, draft.named Angular.isRoutable (Text.lastPiece '.' target.name) = [found] ∧
            found.id = id := by
  obtain ⟨asked, absent⟩ := lacks
  have known := known_or_not (Angular.routeIndex draft) Angular.isRoutable
    (Text.lastPiece '.' target.name) fun _ => Angular.routeIndex_knows
  rw [Angular.targetEditsFrom, Draft.withMeaning, absent]
  cases outside : draft.symbols.isExternal file target.name with
  | true => simp [Angular.lookup, outside, not_linkTo_nil]
  | false =>
      rcases known with ⟨unknown, none_alone⟩ | ⟨found, known, alone⟩
      · simp [Angular.lookup, outside, unknown, none_alone, not_linkTo_finding]
      · simp [Angular.lookup, outside, known, alone, linkTo_append, linkTo_link,
          not_linkTo_roleEdits]

theorem linkTo_targetEdits {source : Source} {routeId routeName : String}
    {route : React.WrittenRoute} (lacks : draft.symbols.Lacks source.path route.target []) :
    LinkTo (React.targetEdits draft (React.routeComponents draft) source routeId routeName route)
        id ↔
      draft.options.includeFrameworkEdges = true ∧
        draft.symbols.isExternal source.path route.target = false ∧
          ∃ found, React.preferred? (draft.named React.isRoutable route.target) = some found ∧
            found.id = id := by
  obtain ⟨asked, absent⟩ := lacks
  rw [React.targetEdits, Draft.withMeaning, absent]
  cases outside : draft.symbols.isExternal source.path route.target with
  | true => simp [not_linkTo_nil]
  | false =>
      rw [React.routeComponents_knows]
      cases known : React.preferred? (draft.named React.isRoutable route.target) with
      | none => simp [not_linkTo_finding]
      | some found =>
          have component : found.kind = .component :=
            beq_iff_eq.mp (Draft.mem_named.mp (React.mem_of_preferred? known)).2.1
          simp [component, Option.filter, linkTo_link]

end

namespace Draft

/-- Names that mean nothing where they stand are looked up among all classifiers of the project.
What is rendered and what Angular routes lead to is found exactly if one classifier qualifies that
has the name, and a name that several have leads nowhere. A React route leads to one of several
components that have its name: to the first React component, or else to the first of all. -/
theorem runPasses_linkByName (program : Program) (options : ExtractOptions) (reporting : Bool)
    (passes : List Pass) :
    let draft := (start program options reporting).runPasses passes
    let described := draft.applyAll (React.descriptionEdits draft)
    (∀ source owner tag node id, described.symbols.Lacks source.path tag owner.scope →
      (LinkTo (React.renderEdits described (React.componentIndex described) source owner tag node)
          id ↔
        described.options.includeFrameworkEdges = true ∧
          described.symbols.isExternal source.path tag = false ∧ '.' ∉ tag.toList ∧
            ∃ found, described.named React.isRendered tag = [found] ∧ found.id = id)) ∧
    (∀ source routeId path target file id, draft.symbols.Lacks file target.name [] →
      (LinkTo (Angular.targetEditsFrom draft (Angular.routeIndex draft) source routeId path target
          file) id ↔
        draft.options.includeFrameworkEdges = true ∧
          draft.symbols.isExternal file target.name = false ∧
            ∃ found, draft.named Angular.isRoutable (Text.lastPiece '.' target.name) = [found] ∧
              found.id = id)) ∧
    ∀ source routeId routeName route id, draft.symbols.Lacks source.path route.target [] →
      (LinkTo (React.targetEdits draft (React.routeComponents draft) source routeId routeName route)
          id ↔
        draft.options.includeFrameworkEdges = true ∧
          draft.symbols.isExternal source.path route.target = false ∧
            ∃ found, React.preferred? (draft.named React.isRoutable route.target) = some found ∧
              found.id = id) := by
  intro draft described
  have regular : draft.Regular := runPasses_regular program options reporting passes
  have about : draft.About program := runPasses_about program options reporting passes
  have made := React.descriptionEdits_made about.declared
  have described_regular : described.Regular :=
    regular.applyAll (made.mono fun _ => Edit.Made.fits)
  have described_declared : described.ComponentsDeclared :=
    (runPasses_componentsDeclared program options reporting passes).applyAll
      (.of_modules (descriptionEdits_addModules draft))
  exact ⟨fun source owner tag node id lacks =>
      linkTo_renderEdits described_declared described_regular lacks,
    fun source routeId path target file id lacks => linkTo_targetEditsFrom lacks,
    fun source routeId routeName route id lacks => linkTo_targetEdits lacks⟩

/-- A file that declares the component `Twin`. -/
def twinFile (path : String) : Source :=
  { path
    bytes := "const Twin = () => <i/>".toUTF8
    root :=
      ⟨none, "program", true, 0, 23,
        [⟨none, "lexical_declaration", true, 0, 23,
            [⟨none, "variable_declarator", true, 6, 23,
                [⟨some "name", "identifier", true, 6, 10, []⟩,
                  ⟨some "value", "arrow_function", true, 13, 23,
                    [⟨some "parameters", "formal_parameters", true, 13, 15, []⟩,
                      ⟨some "body", "jsx_self_closing_element", true, 19, 23,
                        [⟨some "name", "identifier", true, 20, 21, []⟩]⟩]⟩]⟩]⟩]⟩ }

/-- A file with a route that leads to `Twin` without importing it. -/
def twinRoute : Source :=
  { path := "app.tsx"
    bytes := "<Route element=\x7b<Twin/>\x7d/>".toUTF8
    root :=
      ⟨none, "program", true, 0, 26,
        [⟨none, "expression_statement", true, 0, 26,
            [⟨none, "jsx_self_closing_element", true, 0, 26,
                [⟨some "name", "identifier", true, 1, 6, []⟩,
                  ⟨some "attribute", "jsx_attribute", true, 7, 24,
                    [⟨none, "property_identifier", true, 7, 14, []⟩,
                      ⟨none, "jsx_expression", true, 15, 24,
                        [⟨none, "jsx_self_closing_element", true, 16, 23,
                            [⟨some "name", "identifier", true, 17, 21, []⟩]⟩]⟩]⟩]⟩]⟩]⟩ }

/-- A program in which two files declare a component of one name. -/
def twinProgram : Program :=
  { tree := { top := .directory [] }
    root := .absolute ["project"]
    files := [twinFile "one.tsx", twinFile "two.tsx", twinRoute] }

/-- Where both are meant nothing is rendered and no Angular route leads anywhere, but a React route
leads to the first of them. -/
theorem twinProgram_linkByName :
    let draft := (start twinProgram { react := true } true).runPasses [.declarations, .react]
    let described := draft.applyAll (React.descriptionEdits draft)
    (∃ first second, draft.named React.isRoutable "Twin" = [first, second] ∧
      first.qualifiedName = some "one.Twin" ∧ second.qualifiedName = some "two.Twin" ∧
        ∀ route : React.WrittenRoute, route.target = "Twin" → ∀ routeId routeName id,
          LinkTo (React.targetEdits draft (React.routeComponents draft) twinRoute routeId routeName
            route) id ↔ id = first.id) ∧
    (∀ target : Angular.RouteTarget, target.name = "Twin" → ∀ routeId path id,
      ¬ LinkTo (Angular.targetEditsFrom draft (Angular.routeIndex draft) twinRoute routeId path
        target "app.tsx") id) ∧
    ∀ owner ∈ described.declarations, ∀ node id,
      ¬ LinkTo (React.renderEdits described (React.componentIndex described) twinRoute owner "Twin"
        node) id := by
  intro draft described
  obtain ⟨rendered, angular, react⟩ := runPasses_linkByName twinProgram { react := true } true
    [.declarations, .react]
  have facts : draft.symbols.resolve "app.tsx" "Twin" [] = .absent [] ∧
      draft.options.includeFrameworkEdges = true ∧
      draft.symbols.isExternal "app.tsx" "Twin" = false ∧
      (draft.named Angular.isRoutable "Twin").length = 2 ∧
      (described.named React.isRendered "Twin").length = 2 ∧
      Text.lastPiece '.' "Twin" = "Twin" ∧
      (draft.named React.isRoutable "Twin").map (·.qualifiedName)
        = [some "one.Twin", some "two.Twin"] ∧
      (draft.named React.isRoutable "Twin").all (·.hasStereotype "ReactComponent") = true ∧
      ∀ owner ∈ described.declarations, owner.scope = [] := by
    decide +kernel
  obtain ⟨absent, asked, inside, routable, renderable, whole, names, isReact, scopes⟩ := facts
  have lacks : draft.symbols.Lacks "app.tsx" "Twin" [] := ⟨[], absent⟩
  have described_lacks : described.symbols.Lacks "app.tsx" "Twin" [] :=
    (sameNames_reactDescription draft).symbols ▸ lacks
  refine ⟨?_, ?_, ?_⟩
  · obtain ⟨first, rest, two, first_name, rest_names⟩ := List.map_eq_cons_iff.mp names
    obtain ⟨second, last, rfl, second_name, none_left⟩ := List.map_eq_cons_iff.mp rest_names
    obtain rfl := List.map_eq_nil_iff.mp none_left
    refine ⟨first, second, two, first_name, second_name, ?_⟩
    intro route target routeId routeName id
    have first_react : first.hasStereotype "ReactComponent" = true :=
      List.all_eq_true.mp isReact first (two ▸ List.mem_cons_self)
    rw [react twinRoute routeId routeName route id (target ▸ lacks), target, two]
    have preferred : React.preferred? [first, second] = some first := by
      simp [React.preferred?, first_react]
    rw [preferred]
    constructor
    · rintro ⟨_, _, found, same, rfl⟩
      rw [Option.some.inj same]
    · rintro rfl
      exact ⟨asked, inside, first, rfl, rfl⟩
  · intro target name routeId path id link
    obtain ⟨_, _, found, alone, _⟩ := (angular twinRoute routeId path target "app.tsx" id
      (name ▸ lacks)).mp link
    rw [name, whole] at alone
    exact absurd (routable.symm.trans (congrArg List.length alone)) (by simp)
  · intro owner listed node id link
    obtain ⟨_, _, _, found, alone, _⟩ := (rendered twinRoute owner "Twin" node id
      (scopes owner listed ▸ described_lacks)).mp link
    exact absurd (renderable.symm.trans (congrArg List.length alone)) (by simp)

end Draft

end CodeGraph
