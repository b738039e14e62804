import CodeGraph.Proofs.Draft.Provenance
import CodeGraph.Proofs.Draft.RouteNesting

/-!
# The routes of a model

Whatever passes run, the routes of a program are told of as they are nested: a route has a
classifier with its whole path, and the relations from routes to their children join each route to
the nearest one around it. The passes that read no routes tell nothing of them.
-/

namespace CodeGraph

open Syntax Edit

/-! ## Passes that read no routes -/

/-- A link of another kind tells nothing of routes. -/
theorem Edit.silent_relate {link : Link} (other : link.kind ≠ .routeTo) :
    (Edit.relate link).Silent :=
  fun same => absurd same other

theorem Edit.silent_tag {id key value : String} (mark : Tag.IsMark key) :
    (Edit.change id (.tag key value)).Silent := by
  simpa [Silent] using mark.ne_fullPath

theorem Declaring.Declares.silent {source : Source} {exportedNames : List String}
    {candidate : Candidate} {item : Declared} {edit : Edit}
    (declares : Declares source exportedNames candidate item edit) : edit.Silent := by
  cases declares with
  | classifier =>
      exact ⟨by simp [Classifier.IsRoute, Classifier.hasStereotype, classifierOf], fun _ _ => rfl⟩
  | tag given => exact silent_tag (shapeTag?_isMark item.shape _ given)
  | declare => trivial

theorem Draft.silent_fileModule (path file : String) :
    (Edit.classifier path (fileModule file)).Silent := by
  simp [Silent, Classifier.IsRoute, Classifier.hasStereotype, Classifier.tag?, Tag.get?, fileModule]

theorem Edit.MadeFor.silent {reader : Draft} {links : RelationKind → List Tag → Prop}
    {declaration : Declaration} {edit : Edit} (made : edit.MadeFor reader links declaration)
    (other : ∀ kind tags, links kind tags → kind ≠ .routeTo) : edit.Silent := by
  cases made with
  | link _ linked => exact silent_relate (other _ _ linked)
  | tag mark => exact silent_tag mark
  | stereotype | «attribute» | operation | role | binding | find | giveUp => trivial

theorem Links.Written.ne_routeTo {kind : RelationKind} {tags : List Tag}
    (written : Written kind tags) : kind ≠ .routeTo := by
  rintro rfl
  exact absurd written.plain (by simp [RelationKind.isFramework])

theorem Angular.Wired.ne_routeTo {kind : RelationKind} {tags : List Tag}
    (wired : Wired kind tags) : kind ≠ .routeTo := by
  rcases wired.kind_eq with rfl | rfl <;> simp

theorem React.Used.silent {draft : Draft} {source : Source} {edit : Edit}
    (used : React.Used draft source edit) : edit.Silent := by
  cases used with
  | context | render => exact silent_relate (by simp)
  | find | giveUp => trivial

theorem Angular.Applied.silent {draft : Draft} {index : TemplateIndex} {declaration : Declaration}
    {edit : Edit} (applied : Applied draft index declaration edit) : edit.Silent := by
  cases applied with
  | use => exact silent_relate (by simp)
  | find => trivial

theorem Modules.Joined.silent {resolver : ModuleResolver} {source : Source} {edit : Edit}
    (joined : Joined resolver source edit) : edit.Silent := by
  cases joined with
  | origin | target => exact Draft.silent_fileModule ..
  | link kind_eq => exact silent_relate (by simp [kind_eq])
  | find => trivial

/-! ## Whole runs -/

namespace Pass

variable {options : ExtractOptions}

theorem reactRoutes_mem_scheduled : .reactRoutes ∈ scheduled options ↔ options.react = true := by
  simp [scheduled]

theorem angularRoutes_mem_scheduled :
    .angularRoutes ∈ scheduled options ↔ options.angular = true := by
  simp [scheduled]

end Pass

namespace Draft

variable {program : Program} {options : ExtractOptions} {draft : Draft}

theorem silent_of_makes {pass : Pass} (other : pass ∉ [Pass.reactRoutes, .angularRoutes])
    {routes : Set String} {edit : Edit} (makes : pass.Makes draft routes edit) : edit.Silent := by
  cases makes with
  | bind => trivial
  | declares _ _ declares => exact declares.silent
  | members _ made | described _ made => exact made.silent fun _ _ => Links.Written.ne_routeTo
  | used _ used => exact used.silent
  | wired _ made => exact made.silent fun _ _ => Angular.Wired.ne_routeTo
  | routed router => exact absurd (by simpa using router) other
  | applied _ _ _ applied => exact applied.silent
  | joined _ joined => exact joined.silent

/-- A pass that reads no routes tells nothing of them. -/
theorem edits_silent {pass : Pass} (other : pass ∉ [Pass.reactRoutes, .angularRoutes]) :
    All Silent (pass.edits draft) :=
  (pass.edits_make draft (List.Subset.refl _)).mono fun _ => silent_of_makes other

/-- What a scheduled pass tells of nested routes is so. -/
theorem edits_tell (about : draft.About program) (options_eq : draft.options = options)
    {pass : Pass} (listed : pass ∈ Pass.scheduled options) :
    All (Tells program options) (pass.edits draft) := by
  have sources_eq : draft.program.sources = program.sources := by rw [about.program_eq]
  by_cases routes : pass ∈ [Pass.reactRoutes, .angularRoutes]
  · rcases List.mem_cons.mp routes with rfl | last
    · have asked := Pass.reactRoutes_mem_scheduled.mp listed
      exact .flatMap fun source present =>
        React.tells_routeEdits options_eq asked (sources_eq ▸ present) _
    · obtain rfl := List.mem_singleton.mp last
      have asked := Pass.angularRoutes_mem_scheduled.mp listed
      exact .flatMap fun source present =>
        Angular.tells_routeEdits options_eq asked (sources_eq ▸ present) _
  · exact (edits_silent routes).mono fun _ => .silent

theorem runEdits_tell (about : draft.About program) (options_eq : draft.options = options)
    {passes : List Pass} (subset : passes ⊆ Pass.scheduled options) :
    All (Tells program options) (draft.runEdits passes) := by
  induction passes generalizing draft with
  | nil => exact all_nil
  | cons pass passes ih =>
      obtain ⟨listed, further⟩ := List.cons_subset.mp subset
      rw [runEdits, Pass.run_eq]
      refine (edits_tell about options_eq listed).append
        (ih (about.applyAll (about.edits_made pass)) ?_ further)
      rw [options_applyAll, options_eq]

/-- A scheduled pass makes its edits for a draft of the program under the options. -/
theorem exists_draft_of_mem_scheduled (program : Program) (reporting : Bool) {pass : Pass}
    (listed : pass ∈ Pass.scheduled options) :
    ∃ before : Draft, before.options = options ∧ before.program = program ∧
      pass.edits before ⊆ (start program options reporting).completeEdits := by
  obtain ⟨early, subset⟩ := exists_edits_subset listed (start program options reporting)
  have task := sameTask_applyAll (start program options reporting) early
  exact ⟨_, task.options, task.program, subset⟩

/-- A run tells all there is to tell of every nested route. -/
theorem tellAllOf_completeEdits {reporting : Bool} (distinct : program.RoutesDistinct options)
    (arrays : options.angular = true → ∀ source ∈ program.sources, Angular.ArraysApart source)
    {framework : RouteFramework} {front : List Routes.Declared} {route : Routes.Declared}
    (nests : program.Nests options framework (front ++ [route])) :
    TellAllOf options framework front route (start program options reporting).completeEdits := by
  generalize whole : front ++ [route] = chain at nests
  cases nests with
  | @react source _ asked listed nested =>
      obtain ⟨front, last, rfl, rfl, last_eq⟩ := List.append_eq_map_iff.mp whole
      obtain ⟨route, rfl, rfl⟩ := List.map_eq_singleton_iff.mp last_eq
      obtain ⟨before, options_eq, rfl, subset⟩ :=
        exists_draft_of_mem_scheduled program reporting (Pass.reactRoutes_mem_scheduled.mpr asked)
      refine (React.tellAllOf_routeEdits options_eq (React.routeComponents before) nested).mono ?_
      exact List.Subset.trans (fun _ one => List.mem_flatMap_of_mem listed one) subset
  | @angular source _ asked listed nested =>
      obtain ⟨front, last, rfl, rfl, last_eq⟩ := List.append_eq_map_iff.mp whole
      obtain ⟨route, rfl, rfl⟩ := List.map_eq_singleton_iff.mp last_eq
      obtain ⟨before, options_eq, rfl, subset⟩ :=
        exists_draft_of_mem_scheduled program reporting (Pass.angularRoutes_mem_scheduled.mpr asked)
      refine (Angular.tellAllOf_routeEdits options_eq distinct asked listed
        (arrays asked _ listed) (Angular.routeIndex before) nested).mono ?_
      exact List.Subset.trans (fun _ one => List.mem_flatMap_of_mem listed one) subset

end Draft

/-! ## Whole paths of classifiers -/

/-- A route with this id has this whole path, as it is nested in a program. -/
def Program.HasWholePath (program : Program) (options : ExtractOptions) (framework : RouteFramework)
    (id path : String) : Prop :=
  ∃ front route, program.Nests options framework (front ++ [route]) ∧ route.id = id ∧
    path = RoutePath.whole ((front ++ [route]).map (·.path))

/-- The classifier has whole paths as the route with its id has them, and none if it is no route. -/
def Classifier.TellsPaths (program : Program) (options : ExtractOptions)
    (classifier : Classifier) : Prop :=
  ∀ framework ∈ [RouteFramework.react, .angular], ∀ path,
    classifier.tag? framework.fullPathKey = some path
      ↔ program.HasWholePath options framework classifier.id path

theorem Tag.get?_set_of_ne (tags : List Tag) {key other : String} (ne : other ≠ key)
    (value : String) : get? (set tags key value) other = get? tags other := by
  induction tags with
  | nil => simp [Tag.set, get?, ne.symm]
  | cons tag tags ih =>
      rw [get?, get?] at ih
      rw [Tag.set, get?, get?]
      split
      next same => simp [beq_iff_eq.mp same, ne.symm]
      next => cases found : tag.key == other <;> simp [found, ih]

namespace ClassifierChange

/-- A change that tells nothing of routes leaves the tags with whole paths alone. -/
theorem tag?_apply {id : String} {change : ClassifierChange}
    (silent : (Edit.change id change).Silent) (classifier : Classifier) {framework : RouteFramework}
    (listed : framework ∈ [RouteFramework.react, .angular]) :
    (change.apply classifier).tag? framework.fullPathKey
      = classifier.tag? framework.fullPathKey := by
  cases change with
  | tag key value => exact Tag.get?_set_of_ne _ (silent framework listed).symm value
  | stereotype | «attribute» | operation =>
      simp only [apply, Classifier.addStereotype, Classifier.addAttribute, Classifier.addOperation]
      split <;> rfl
  | role | binding => rfl

end ClassifierChange

section

variable {program : Program} {options : ExtractOptions} {edits : List Edit}

/-- The classifier of a route tells its whole path, and only that. -/
theorem RouteFramework.Shows.tellsPaths (distinct : program.RoutesDistinct options)
    {framework : RouteFramework} {front : List Routes.Declared} {route : Routes.Declared}
    {added : Classifier} (nests : program.Nests options framework (front ++ [route]))
    (shows : framework.Shows route.id (RoutePath.whole ((front ++ [route]).map (·.path))) added) :
    added.TellsPaths program options := by
  intro other listed path
  rw [shows.path_iff other listed path, shows.id_eq]
  constructor
  · rintro ⟨rfl, rfl⟩
    exact ⟨_, _, nests, rfl, rfl⟩
  · rintro ⟨others, last, other_nests, same, rfl⟩
    obtain ⟨rfl, chain_eq⟩ := distinct _ _ _ nests _ _ _ other_nests same
    exact ⟨rfl, by rw [chain_eq]⟩

variable (apart : Classifier.RoutesApart (edits.filterMap Edit.classifier?))
  (complete : ∀ framework front route, program.Nests options framework (front ++ [route]) →
    TellAllOf options framework front route edits)
include apart complete

/-- No route has the id of a classifier that is added and is no route: the route is added too. -/
theorem not_hasWholePath_of_mem {file : String} {added : Classifier}
    (present : .classifier file added ∈ edits) (no_route : ¬ added.IsRoute)
    (framework : RouteFramework) (path : String) :
    ¬ program.HasWholePath options framework added.id path := by
  rintro ⟨front, route, nests, same, -⟩
  obtain ⟨_, shown, shown_mem, shows⟩ := (complete _ _ _ nests).path
  have shown_listed : shown ∈ edits.filterMap Edit.classifier? :=
    List.mem_filterMap.mpr ⟨_, shown_mem, rfl⟩
  have added_listed : added ∈ edits.filterMap Edit.classifier? :=
    List.mem_filterMap.mpr ⟨_, present, rfl⟩
  have id_eq : added.id = shown.id := same.symm.trans shows.id_eq.symm
  exact no_route (apart shown shown_listed shows.isRoute added added_listed id_eq)

/-- Every edit of a list leaves classifiers telling their whole paths, if what the edits tell of
nested routes is so and is all there is to tell, and only routes have the ids of routes. -/
theorem Edit.preserves_tellsPaths (distinct : program.RoutesDistinct options) {edit : Edit}
    (present : edit ∈ edits) (tells : edit.Tells program options) :
    edit.Preserves (fun _ classifier => classifier.TellsPaths program options)
      (fun _ _ => True) := by
  cases tells with
  | silent silent =>
      cases edit with
      | classifier file added =>
          obtain ⟨no_route, blank⟩ := silent
          intro framework listed path
          have none_has := not_hasWholePath_of_mem apart complete present no_route framework path
          simp [blank framework listed, none_has]
      | change id change =>
          intro classifier telling framework listed path
          rw [ClassifierChange.tag?_apply silent classifier listed, ClassifierChange.apply_id]
          exact telling framework listed path
      | relate => exact ⟨fun _ => trivial, fun _ _ => trivial⟩
      | bind | declare | find | giveUp => trivial
  | route nests shows => exact shows.tellsPaths distinct nests
  | child => exact ⟨fun _ => trivial, fun _ _ => trivial⟩

end

/-! ## Models -/

/-- The model tells of the routes of a program as they are nested. -/
structure Model.TellsRoutes (program : Program) (options : ExtractOptions) (model : Model) :
    Prop where
  /-- Every route has a classifier. -/
  present : ∀ framework front route, program.Nests options framework (front ++ [route]) →
    ∃ classifier ∈ model.classifiers, classifier.id = route.id
  /-- Each classifier has whole paths as the route with its id has them. -/
  path : ∀ classifier ∈ model.classifiers, classifier.TellsPaths program options
  /-- A route is a child of the nearest route around it and of nothing else. -/
  child_iff : ∀ sourceId targetId,
    (∃ relation ∈ model.relations, relation.kind = .routeTo ∧ ⟨"role", "child"⟩ ∈ relation.tags ∧
        relation.sourceId = sourceId ∧ relation.targetId = targetId)
      ↔ options.includeFrameworkEdges = true ∧ ∃ framework front around route,
        program.Nests options framework (front ++ [around, route]) ∧
          around.id = sourceId ∧ route.id = targetId

namespace Draft

section

variable {program : Program} {options : ExtractOptions} {reporting : Bool}

/-- The relations of a model are those that the links of the run make. -/
theorem relations_complete :
    (start program options reporting).complete.toModel.relations
      = Ordered.values (Link.table (start program options reporting).completeLinks) :=
  edges_complete program options reporting

theorem completeEdits_tell :
    All (Tells program options) (start program options reporting).completeEdits :=
  runEdits_tell (start_about program options reporting) rfl (List.Subset.refl _)

/-- A child in a model is nested right inside of a route. -/
theorem nests_of_child (free : Link.CollisionFree (start program options reporting).completeLinks)
    {relation : Relation}
    (present : relation ∈ (start program options reporting).complete.toModel.relations)
    (kind : relation.kind = .routeTo) (tagged : ⟨"role", "child"⟩ ∈ relation.tags) :
    options.includeFrameworkEdges = true ∧ ∃ framework front around route,
      program.Nests options framework (front ++ [around, route]) ∧
        around.id = relation.sourceId ∧ route.id = relation.targetId := by
  rw [relations_complete] at present
  obtain ⟨⟨id, _⟩, entry_mem, rfl⟩ := List.mem_map.mp present
  have sums := (Link.tabulates_table _).sums id _ entry_mem
  obtain ⟨link, link_mem, link_tagged, _, link_kind, source, target⟩ :=
    sums.exists_link free tagged
  obtain ⟨edit, edit_mem, added⟩ := List.mem_filterMap.mp link_mem
  obtain rfl := eq_relate_of_link? added
  cases completeEdits_tell.of_mem _ edit_mem with
  | silent silent => exact absurd link_tagged (silent (link_kind.trans kind))
  | child asked nests source_eq target_eq =>
      exact ⟨asked, _, _, _, _, nests, source_eq.symm.trans source, target_eq.symm.trans target⟩

variable (distinct : program.RoutesDistinct options)
  (arrays : options.angular = true → ∀ source ∈ program.sources, Angular.ArraysApart source)
include distinct arrays

/-- A nested route has a classifier. -/
theorem exists_classifier_of_nests {framework : RouteFramework} {front : List Routes.Declared}
    {route : Routes.Declared} (nests : program.Nests options framework (front ++ [route])) :
    ∃ classifier ∈ (start program options reporting).complete.toModel.classifiers,
      classifier.id = route.id := by
  have told : TellAllOf options framework front route
      (start program options reporting).completeEdits :=
    tellAllOf_completeEdits distinct arrays nests
  obtain ⟨_, added, added_mem, shows⟩ := told.path
  have fit : All Fits (start program options reporting).completeEdits :=
    ((start_about program options reporting).runEdits_made _).mono fun _ => Made.fits
  obtain ⟨classifier, found⟩ :=
    (start_regular program options reporting).exists_classifier_of_mem fit added_mem
  have entry_mem : (added.id, classifier)
      ∈ (start program options reporting).complete.classifiers :=
    complete_eq (start program options reporting) ▸ Ordered.mem_of_get? found
  have regular : (start program options reporting).complete.Regular :=
    runPasses_regular program options reporting _
  refine ⟨classifier, List.mem_map.mpr ⟨_, entry_mem, rfl⟩, ?_⟩
  rw [(regular.classifier_regular _ classifier entry_mem).1, shows.id_eq]

theorem tellsPaths_of_mem_classifiers
    (apart : Classifier.RoutesApart
      ((start program options reporting).completeEdits.filterMap Edit.classifier?))
    {classifier : Classifier}
    (present : classifier ∈ (start program options reporting).complete.toModel.classifiers) :
    classifier.TellsPaths program options := by
  have preserved : All (Edit.Preserves (fun _ classifier => classifier.TellsPaths program options)
      fun _ _ => True) (start program options reporting).completeEdits :=
    ⟨fun edit listed => edit.preserves_tellsPaths apart
      (fun _ _ _ nests => tellAllOf_completeEdits distinct arrays nests) distinct listed
      (completeEdits_tell.of_mem edit listed)⟩
  have all := preserved.keeps (fun _ _ all preserves => all.apply preserves)
    (start_throughout program options reporting)
  rw [← complete_eq] at all
  exact (all.of_mem_classifiers present).elim fun _ tells => tells

/-- A route that is nested right inside of another one is its child in the model. -/
theorem exists_child_of_nests
    (free : Link.CollisionFree (start program options reporting).completeLinks)
    (asked : options.includeFrameworkEdges = true) {framework : RouteFramework}
    {front : List Routes.Declared} {around route : Routes.Declared}
    (nests : program.Nests options framework (front ++ [around, route])) :
    ∃ relation ∈ (start program options reporting).complete.toModel.relations,
      relation.kind = .routeTo ∧ ⟨"role", "child"⟩ ∈ relation.tags ∧
        relation.sourceId = around.id ∧ relation.targetId = route.id := by
  rw [List.append_cons] at nests
  have told : TellAllOf options framework (front ++ [around]) route
      (start program options reporting).completeEdits :=
    tellAllOf_completeEdits distinct arrays nests
  obtain ⟨link, link_mem, kind, tagged, source, target⟩ := told.child front around rfl asked
  have said : link.isVoid = false := by simp [Link.isVoid, kind, RelationKind.isIrreflexive]
  have present : link ∈ (start program options reporting).completeLinks :=
    List.mem_filterMap.mpr ⟨_, link_mem, by simp [Edit.link?, said]⟩
  obtain ⟨relation, relation_mem, same_kind, same_source, same_target, tags⟩ :=
    Link.exists_relation_of_mem free present
  rw [relations_complete]
  exact ⟨relation, relation_mem, same_kind.trans kind, tags tagged, same_source.trans source,
    same_target.trans target⟩

end

/-- Every model tells of the routes of its program as they are nested, as long as ids do not
collide: links with one id have one kind and the same ends, nothing but routes has the id of a
route, different routes have different ids, and different arrays of routes begin at different
places. -/
theorem complete_tellsRoutes (program : Program) (options : ExtractOptions) (reporting : Bool)
    (free : Link.CollisionFree (start program options reporting).completeLinks)
    (apart : Classifier.RoutesApart
      ((start program options reporting).completeEdits.filterMap Edit.classifier?))
    (distinct : program.RoutesDistinct options)
    (arrays : options.angular = true → ∀ source ∈ program.sources, Angular.ArraysApart source) :
    (start program options reporting).complete.toModel.TellsRoutes program options where
  present _ _ _ nests := exists_classifier_of_nests distinct arrays nests
  path _ present := tellsPaths_of_mem_classifiers distinct arrays apart present
  child_iff sourceId targetId := by
    constructor
    · rintro ⟨relation, present, kind, tagged, rfl, rfl⟩
      exact nests_of_child free present kind tagged
    · rintro ⟨asked, framework, front, around, route, nests, rfl, rfl⟩
      exact exists_child_of_nests distinct arrays free asked nests

/-- A file with a route element inside of another one and route objects inside of each other. -/
def pagesFile : Syntax.Source :=
  { path := "pages.tsx"
    bytes := ("<Route path='/a'><Route path='b'/></Route>; "
      ++ "useRoutes([\x7bpath: 'c/', children: [\x7bpath: '/d'\x7d]\x7d]);").toUTF8
    root :=
      ⟨none, "program", true, 0, 96,
        [⟨none, "expression_statement", true, 0, 43,
           [⟨none, "jsx_element", true, 0, 42,
              [⟨some "open_tag", "jsx_opening_element", true, 0, 17,
                 [⟨some "name", "identifier", true, 1, 6, []⟩,
                  ⟨none, "jsx_attribute", true, 7, 16,
                    [⟨none, "property_identifier", true, 7, 11, []⟩,
                     ⟨none, "string", true, 12, 16, []⟩]⟩]⟩,
               ⟨none, "jsx_self_closing_element", true, 17, 34,
                 [⟨some "name", "identifier", true, 18, 23, []⟩,
                  ⟨none, "jsx_attribute", true, 24, 32,
                    [⟨none, "property_identifier", true, 24, 28, []⟩,
                     ⟨none, "string", true, 29, 32, []⟩]⟩]⟩]⟩]⟩,
         ⟨none, "expression_statement", true, 44, 96,
           [⟨none, "call_expression", true, 44, 95,
              [⟨some "function", "identifier", true, 44, 53, []⟩,
               ⟨some "arguments", "arguments", true, 53, 95,
                 [⟨none, "array", true, 54, 94,
                    [⟨none, "object", true, 55, 93,
                       [⟨none, "pair", true, 56, 66,
                          [⟨some "key", "property_identifier", true, 56, 60, []⟩,
                           ⟨some "value", "string", true, 62, 66, []⟩]⟩,
                        ⟨none, "pair", true, 68, 92,
                          [⟨some "key", "property_identifier", true, 68, 76, []⟩,
                           ⟨some "value", "array", true, 78, 92,
                             [⟨none, "object", true, 79, 91,
                                [⟨none, "pair", true, 80, 90,
                                   [⟨some "key", "property_identifier", true, 80, 84, []⟩,
                                    ⟨some "value", "string", true, 86, 90, []⟩]⟩]⟩]⟩]⟩]⟩]⟩]⟩]⟩]⟩]⟩ }

/-- A file that exports Angular routes inside of each other. -/
def routesFile : Syntax.Source :=
  { path := "routes.ts"
    bytes := "export const routes = [\x7bpath: 'e', children: [\x7bpath: 'f'\x7d]\x7d]".toUTF8
    root :=
      ⟨none, "program", true, 0, 60,
        [⟨none, "export_statement", true, 0, 60,
           [⟨some "declaration", "lexical_declaration", true, 7, 60,
              [⟨none, "variable_declarator", true, 13, 60,
                 [⟨some "name", "identifier", true, 13, 19, []⟩,
                  ⟨some "value", "array", true, 22, 60,
                    [⟨none, "object", true, 23, 59,
                       [⟨none, "pair", true, 24, 33,
                          [⟨some "key", "property_identifier", true, 24, 28, []⟩,
                           ⟨some "value", "string", true, 30, 33, []⟩]⟩,
                        ⟨none, "pair", true, 35, 58,
                          [⟨some "key", "property_identifier", true, 35, 43, []⟩,
                           ⟨some "value", "array", true, 45, 58,
                             [⟨none, "object", true, 46, 57,
                                [⟨none, "pair", true, 47, 56,
                                   [⟨some "key", "property_identifier", true, 47, 51, []⟩,
                                    ⟨some "value", "string", true, 53, 56, []⟩]⟩]⟩]⟩]⟩]⟩]⟩]⟩]⟩]⟩]⟩ }

/-- The program of both files. -/
def pagesProgram : Program :=
  { tree := { top := .directory [] }
    root := .absolute ["project"]
    files := [pagesFile, routesFile] }

/-- Each route has its whole path, and each inner one is the child of the one around it. -/
theorem pagesProgram_tellsRoutes :
    let options : ExtractOptions := { react := true, angular := true }
    let draft := start pagesProgram options true
    let model := draft.complete.toModel
    (((model.classifiers.filterMap (·.tag? "react.routeFullPath") = ["/a", "/a/b", "/c", "/d"] ∧
          model.classifiers.filterMap (·.tag? "angular.routeFullPath") = ["/e", "/e/f"]) ∧
        Link.CollisionFree draft.completeLinks ∧
        Classifier.RoutesApart (draft.completeEdits.filterMap Edit.classifier?)) ∧
      pagesProgram.RoutesDistinct options ∧
        ∀ source ∈ pagesProgram.sources, Angular.ArraysApart source) ∧
      model.TellsRoutes pagesProgram options := by
  intro options draft model
  have evaluated : ((model.classifiers.filterMap (·.tag? "react.routeFullPath")
          = ["/a", "/a/b", "/c", "/d"] ∧
        model.classifiers.filterMap (·.tag? "angular.routeFullPath") = ["/e", "/e/f"]) ∧
        Link.CollisionFree draft.completeLinks ∧
        Classifier.RoutesApart (draft.completeEdits.filterMap Edit.classifier?)) ∧
      ((pagesProgram.nestings options).map (·.2.getLast?.map (·.id))).Nodup ∧
        ∀ source ∈ pagesProgram.sources, ((Angular.arraysRead source).map (·.start)).Nodup := by
    decide +kernel
  obtain ⟨told, ids, starts⟩ := evaluated
  have distinct := Program.routesDistinct_of_nodup ids
  have arrays : ∀ source ∈ pagesProgram.sources, Angular.ArraysApart source :=
    fun source listed => Angular.arraysApart_of_nodup (starts source listed)
  exact ⟨⟨told, distinct, arrays⟩, complete_tellsRoutes pagesProgram options true told.2.1
    told.2.2 distinct fun _ => arrays⟩

end Draft

end CodeGraph
