import CodeGraph.Proofs.Draft.Thinning

/-!
# What the options decide

Two options only decide whether some relations and findings are added: one asks for the relations
that frameworks make, the other one for dependencies. Every function that makes edits for alike
drafts makes thinned edits for the draft whose options ask for less. What a function needs for
that is stated here once for each way in which functions look at a draft.
-/

namespace CodeGraph

/-! ## Relations that are asked for -/

namespace RelationKind

/-- Relations of this kind are made by frameworks alone. -/
def isFramework : RelationKind → Bool
  | .render | .injection | .routeTo | .templateUses => true
  | .inheritance | .implementation | .association | .dependency => false

end RelationKind

/-- The tags of a dependency that comes from what a module or a standalone component lists. -/
def listedOrigins : List Tag :=
  [⟨"origin", "ngmodule"⟩, ⟨"origin", "standalone"⟩]

namespace ExtractOptions

/-- Both options ask for the same frameworks, and what the first one asks for, the second one asks
for too. -/
structure Below (fewer more : ExtractOptions) : Prop where
  /-- Both read React or none does. -/
  react : more.react = fewer.react
  /-- Both read Angular or none does. -/
  angular : more.angular = fewer.angular
  /-- Relations of frameworks are not dropped. -/
  edges : fewer.includeFrameworkEdges = true → more.includeFrameworkEdges = true
  /-- Dependencies are not dropped. -/
  deps : fewer.includeDeps = true → more.includeDeps = true

end ExtractOptions

namespace Edit

/-- The edit adds a relation that is made where relations of frameworks are asked for. -/
def IsFrameworkEdge : Edit → Prop
  | .relate link => link.kind.isFramework = true ∨
      link.kind = .dependency ∧ ∃ origin ∈ listedOrigins, origin ∈ link.tags
  | _ => False

/-- The edit is made where dependencies are asked for. -/
def IsForDeps : Edit → Prop
  | .relate link => link.kind = .dependency
  | .find finding => finding.kind = .unresolvedType
  | .giveUp => True
  | _ => False

/-- The edit is made under options that may not ask for relations of frameworks. -/
def Stays (fewer : ExtractOptions) : Edit → Prop
  | .relate link => link.kind.isFramework = true → fewer.includeFrameworkEdges = true
  | _ => True

/-- The edit is made under the second options and not under the first ones. -/
def Goes (fewer more : ExtractOptions) (edit : Edit) : Prop :=
  fewer.includeFrameworkEdges = false ∧ more.includeFrameworkEdges = true ∧ edit.IsFrameworkEdge ∨
    fewer.includeDeps = false ∧ more.includeDeps = true ∧ edit.IsForDeps

theorem Goes.accumulates {fewer more : ExtractOptions} {edit : Edit} (goes : edit.Goes fewer more) :
    edit.Accumulates := by
  cases edit with
  | relate | find | giveUp => trivial
  | bind | classifier | change | declare =>
      rcases goes with ⟨_, _, framework⟩ | ⟨_, _, deps⟩
      · exact framework
      · exact deps

end Edit

namespace Draft

/-- The drafts are alike, and the options of the first one ask for less. -/
structure Within (small large : Draft) : Prop extends Alike small large where
  /-- What is asked for. -/
  below : small.options.Below large.options

/-- The first edits are the second ones without some that only the options of the larger draft ask
for. -/
def Thins (small large : Draft) : (first second : List Edit) → Prop :=
  Thinning (Edit.Stays small.options) (Edit.Goes small.options large.options)

namespace Within

variable {small large : Draft}

/-- Drafts stay alike when the edits of one are those of the other, thinned. -/
theorem applyAll (within : Within small large) {first second : List Edit}
    (thins : Thins small large first second) :
    Within (small.applyAll first) (large.applyAll second) where
  toAlike := within.toAlike.applyAll thins fun _ => Edit.Goes.accumulates
  below := by
    rw [options_applyAll, options_applyAll]
    exact within.below

theorem declarationsIn (within : Within small large) (file : String) :
    large.declarationsIn file = small.declarationsIn file := by
  rw [Draft.declarationsIn, Draft.declarationsIn, within.declarations]

/-- A name means the same in both drafts, and the edits that follow from it are thinned if they are
whatever it means. -/
theorem withMeaning (within : Within small large) {file name : String} {scope : List String}
    {first second : Option Symbol → List Edit}
    (each : ∀ symbol, Thins small large (first symbol) (second symbol)) :
    Thins small large (small.withMeaning file name scope first)
      (large.withMeaning file name scope second) := by
  rw [Draft.withMeaning, Draft.withMeaning, within.symbols]
  split
  · exact each _
  · exact each none
  · exact Thinning.keep trivial .nil

theorem withMeaningAt (within : Within small large) {declaration : Declaration} {name : String}
    {first second : Option Symbol → List Edit}
    (each : ∀ symbol, Thins small large (first symbol) (second symbol)) :
    Thins small large (small.withMeaningAt declaration name first)
      (large.withMeaningAt declaration name second) :=
  within.withMeaning each

/-- Relations of frameworks are added or left out together. -/
theorem edges (within : Within small large) {edits : List Edit}
    (framework : ∀ edit ∈ edits, edit.IsFrameworkEdge) :
    Thins small large (if small.options.includeFrameworkEdges then edits else [])
      (if large.options.includeFrameworkEdges then edits else []) := by
  cases asked : small.options.includeFrameworkEdges with
  | true =>
      rw [within.below.edges asked]
      refine Thinning.same fun edit _ => ?_
      cases edit with
      | relate link => exact fun _ => asked
      | bind | classifier | change | declare | find | giveUp => trivial
  | false =>
      cases further : large.options.includeFrameworkEdges with
      | true =>
          refine Thinning.none fun edit present => ?_
          exact .inl ⟨asked, further, framework edit present⟩
      | false => exact Thinning.nil

/-- What is made for dependencies is thinned or left out as a whole. -/
theorem deps (within : Within small large) {first second : List Edit}
    (kept : Thins small large first second) (forDeps : ∀ edit ∈ second, edit.IsForDeps) :
    Thins small large (if small.options.includeDeps then first else [])
      (if large.options.includeDeps then second else []) := by
  cases asked : small.options.includeDeps with
  | true =>
      rw [within.below.deps asked]
      exact kept
  | false =>
      cases further : large.options.includeDeps with
      | true =>
          refine Thinning.none fun edit present => ?_
          exact .inr ⟨asked, further, forDeps edit present⟩
      | false => exact Thinning.nil

end Within

namespace Thins

variable {small large : Draft} {first second : List Edit}

theorem nil : Thins small large [] [] := Thinning.nil

theorem append {third fourth : List Edit} (left : Thins small large first second)
    (right : Thins small large third fourth) :
    Thins small large (first ++ third) (second ++ fourth) :=
  Thinning.append left right

theorem flatMap {α : Type} {items : List α} {fewer more : α → List Edit}
    (each : ∀ item ∈ items, Thins small large (fewer item) (more item)) :
    Thins small large (items.flatMap fewer) (items.flatMap more) :=
  Thinning.flatMap each

theorem change {id : String} {change : ClassifierChange} (rest : Thins small large first second) :
    Thins small large (.change id change :: first) (.change id change :: second) :=
  Thinning.keep trivial rest

theorem classifier {file : String} {added : Classifier} (rest : Thins small large first second) :
    Thins small large (.classifier file added :: first) (.classifier file added :: second) :=
  Thinning.keep trivial rest

theorem declare {scopedName : String} {declaration : Declaration}
    (rest : Thins small large first second) :
    Thins small large (.declare scopedName declaration :: first)
      (.declare scopedName declaration :: second) :=
  Thinning.keep trivial rest

theorem bind {file : String} {bindings : Bindings} (rest : Thins small large first second) :
    Thins small large (.bind file bindings :: first) (.bind file bindings :: second) :=
  Thinning.keep trivial rest

/-- Changes are made under all options. -/
theorem map_change {α : Type} (items : List α) (id : α → String) (change : α → ClassifierChange) :
    Thins small large (items.map fun item => .change (id item) (change item))
      (items.map fun item => .change (id item) (change item)) := by
  refine Thinning.same fun edit present => ?_
  obtain ⟨item, _, rfl⟩ := List.mem_map.mp present
  trivial

/-- So are findings. -/
theorem find (finding : Finding) : Thins small large [.find finding] [.find finding] :=
  Thinning.keep trivial .nil

/-- A relation that no framework makes is added under all options. -/
theorem relate {link : Link} (plain : link.kind.isFramework = false) :
    Thins small large [.relate link] [.relate link] := by
  refine Thinning.keep (fun framework => ?_) .nil
  rw [plain] at framework
  contradiction

/-- Edits that are chosen in the same way are thinned if they are in each case. -/
theorem ite {asked : Prop} [Decidable asked] {third fourth : List Edit}
    (positive : asked → Thins small large first second)
    (negative : ¬ asked → Thins small large third fourth) :
    Thins small large (if asked then first else third) (if asked then second else fourth) := by
  split
  next holds => exact positive holds
  next fails => exact negative fails

end Thins

end Draft

end CodeGraph
