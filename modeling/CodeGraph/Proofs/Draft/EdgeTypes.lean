import CodeGraph.Proofs.Draft.MemberOrder
import CodeGraph.Proofs.Draft.Roles

/-!
# What the relations of frameworks join

A relation of a framework joins classifiers of the sort that its kind asks for: components render
components, templates belong to components and use what can be used in templates, routes lead to
other routes as to children, and what is told of a context leads to one. Each pass has looked this
up, or will have seen to it by the end, so it is shown link by link, for what stands in the draft
after the pass or is declared, and then carried to the end of the run.
-/

namespace CodeGraph

open Syntax Edit

/-! ## Typed links -/

/-- The tags tell of a context: that it is used, consumed or provided. What is provided with a kind
is a service and no context. -/
def Tag.TellContext (tags : List Tag) : Prop :=
  ⟨"origin", "useContext"⟩ ∈ tags ∨ ⟨"origin", "consumer"⟩ ∈ tags ∨
    ⟨"origin", "provider"⟩ ∈ tags ∧ "providerKind" ∉ Tag.keys tags

/-- The id is that of a class of a shape that is declared with a decorator. -/
def Draft.Decorates (draft : Draft) (shape : Shape) (id : String) : Prop :=
  ∃ declaration ∈ draft.declarations, declaration.decorator.isSome = true ∧
    declaration.shape = shape ∧ declaration.classifierId = id

/-- In a draft where some ids are those of routes, the link joins what its kind asks for. -/
structure Link.Typed (draft : Draft) (routes : Set String) (link : Link) : Prop where
  /-- A component renders a component. -/
  render : link.kind = .render →
    draft.Has link.sourceId (·.kind = .component) ∧ draft.Has link.targetId (·.kind = .component)
  /-- A decorated component uses a decorated class in its template. -/
  template : link.kind = .templateUses → draft.Decorates .angularComponent link.sourceId ∧
    ∃ shape ∈ Angular.TemplateIndex.shapes, draft.Decorates shape link.targetId
  /-- A route leads somewhere, and a child is a route. -/
  route : link.kind = .routeTo → link.sourceId ∈ routes ∧
    (⟨"role", "child"⟩ ∈ link.tags → link.targetId ∈ routes)
  /-- What is told of a context leads to one. -/
  context : link.kind = .injection → Tag.TellContext link.tags →
    draft.Has link.targetId (·.hasStereotype "ReactContext" = true)

/-- The edit declares nothing, and a link that it adds is typed. -/
def Edit.Typed (draft : Draft) (routes : Set String) : Edit → Prop
  | .relate link => link.Typed draft routes
  | .declare _ _ => False
  | _ => True

variable {draft : Draft} {routes : Set String}

/-- A link that is of no framework's kind joins what it likes. -/
theorem Link.typed_of_plain {link : Link} (plain : link.kind.isFramework = false) :
    link.Typed draft routes := by
  constructor <;> intro kind_eq <;> simp [kind_eq, RelationKind.isFramework] at plain

/-- A typed link stays typed when the draft gets further edits. -/
theorem Link.Typed.applyAll {link : Link} (typed : link.Typed draft routes)
    (regular : draft.Regular) {edits : List Edit} (fit : All Fits edits) :
    link.Typed (draft.applyAll edits) routes := by
  have growth := regular.grows_applyAll fit
  have kept {shape : Shape} {id : String} (decorates : draft.Decorates shape id) :
      (draft.applyAll edits).Decorates shape id := by
    obtain ⟨declaration, present, here⟩ := decorates
    exact ⟨declaration, Draft.declarations_subset_applyAll draft edits present, here⟩
  refine ⟨fun render => ?_, fun template => ?_, typed.route, fun injection tell => ?_⟩
  · obtain ⟨source, target⟩ := typed.render render
    exact ⟨source.grows (Classifier.lasting_kind _) growth,
      target.grows (Classifier.lasting_kind _) growth⟩
  · obtain ⟨source, shape, listed, target⟩ := typed.template template
    exact ⟨kept source, shape, listed, kept target⟩
  · exact (typed.context injection tell).grows (Classifier.lasting_stereotype _) growth

theorem Edit.Typed.applyAll {edit : Edit} (typed : edit.Typed draft routes)
    (regular : draft.Regular) {edits : List Edit} (fit : All Fits edits) :
    edit.Typed (draft.applyAll edits) routes := by
  cases edit with
  | relate link => exact Link.Typed.applyAll typed regular fit
  | declare => exact typed
  | bind | classifier | change | find | giveUp => trivial

/-! ## The links of passes -/

/-- Edits for a declaration are typed if all links of their kinds and tags are. -/
theorem Edit.MadeFor.typed {reader : Draft} {links : RelationKind → List Tag → Prop}
    {declaration : Declaration} {edit : Edit} (made : edit.MadeFor reader links declaration)
    (each : ∀ link : Link, links link.kind link.tags → link.Typed draft routes) :
    edit.Typed draft routes := by
  cases made with
  | link _ linked => exact each _ linked
  | stereotype | tag | «attribute» | operation | role | binding | find | giveUp => trivial

theorem Links.Written.plain {kind : RelationKind} {tags : List Tag}
    (written : Links.Written kind tags) : kind.isFramework = false := by
  cases written with
  | member | reference => rfl
  | supertype subtyping => cases kind <;> first | rfl | cases subtyping

theorem React.Used.typed (regular : draft.Regular) {source : Source} {edit : Edit}
    (used : React.Used draft source edit) : edit.Typed draft routes := by
  -- What was looked up under an id has that id.
  have named {id : String} {classifier : Classifier}
      (found : draft.classifier? id = some classifier) :
      draft.classifier? classifier.id = some classifier := by
    rwa [(regular.classifier_regular id classifier (Ordered.mem_of_get? found)).1]
  cases used with
  | context _ found isContext =>
      refine ⟨nofun, nofun, nofun, fun _ _ => ⟨_, named found, isContext⟩⟩
  | render _ renders renderer_kind found target_kind =>
      exact ⟨fun _ => ⟨⟨_, renders, renderer_kind⟩, ⟨_, named found, target_kind⟩⟩, nofun, nofun,
        nofun⟩
  | find | giveUp => trivial

theorem Routes.Routed.typed {symbols : SymbolTable} {source : Source} {edit : Edit}
    (routed : Routes.Routed symbols source routes edit) : edit.Typed draft routes := by
  cases routed with
  | @link _ _ role _ _ _ extra start child keys =>
      refine ⟨nofun, nofun, fun _ => ⟨start, fun tagged => child ?_⟩, nofun⟩
      rcases List.mem_append.mp tagged with told | further
      · obtain rfl : "child" = role := by simpa using told
        rfl
      · exact absurd (keys _ further) (by simp [Routes.extraKeys])
  | route | stereotype | tag | find | giveUp => trivial

theorem Modules.Joined.typed {resolver : ModuleResolver} {source : Source} {edit : Edit}
    (joined : Modules.Joined resolver source edit) : edit.Typed draft routes := by
  cases joined with
  | link kind_eq => exact Link.typed_of_plain (by rw [kind_eq]; rfl)
  | origin | target | find => trivial

namespace Angular

theorem Wired.kind_eq {kind : RelationKind} {tags : List Tag} (wired : Wired kind tags) :
    kind = .dependency ∨ kind = .injection := by
  cases wired with
  | payload | listed => exact .inl rfl
  | parameter | call | provider => exact .inr rfl

/-- No wired class is told as a context. -/
theorem Wired.not_tellContext {tags : List Tag} (wired : Wired .injection tags) :
    ¬ Tag.TellContext tags := by
  cases wired with
  | @parameter name token => cases token <;> simp [Tag.TellContext]
  | call => simp [Tag.TellContext]
  | @provider scope tags keys kind_mem =>
      have plain (value : String) : ⟨"origin", value⟩ ∉ tags :=
        fun present => absurd (keys _ present) (by simp [providerKeys])
      have told : "providerKind" ∈ Tag.keys ([⟨"origin", "provider"⟩, ⟨"role", "providers"⟩,
          ⟨"scope", scope⟩] ++ tags) := by
        rw [Tag.keys, List.map_append]
        exact List.mem_append_right _ kind_mem
      simpa [Tag.TellContext, plain] using told

theorem Wired.typed {link : Link} (wired : Wired link.kind link.tags) :
    link.Typed draft routes := by
  rcases wired.kind_eq with dependency | injection
  · exact Link.typed_of_plain (by rw [dependency]; rfl)
  · rw [injection] at wired
    exact ⟨by simp [injection], by simp [injection], by simp [injection],
      fun _ tell => absurd tell wired.not_tellContext⟩

theorem Applied.typed {declaration : Declaration} {index : TemplateIndex}
    (index_decorates : index.Holds fun shape classifier => draft.Decorates shape classifier.id)
    (decorates : draft.Decorates .angularComponent declaration.classifierId) {edit : Edit}
    (applied : Applied draft index declaration edit) : edit.Typed draft routes := by
  cases applied with
  | use found =>
      exact ⟨nofun, fun _ => ⟨decorates, index_decorates.of_get? found⟩, nofun, nofun⟩
  | find => trivial

end Angular

/-! ## The passes -/

namespace Draft

theorem templateIndex_decorates (regular : draft.Regular) :
    draft.templateIndex.Holds fun shape classifier => draft.Decorates shape classifier.id := by
  refine Angular.TemplateIndex.ofClassifiers_holds fun entry present => ?_
  obtain ⟨⟨declaration, decorator⟩, listed, entry_eq⟩ := List.mem_filterMap.mp present
  obtain ⟨classifier, found, rfl⟩ := Option.map_eq_some_iff.mp entry_eq
  obtain ⟨declaration_mem, kept⟩ := Angular.mem_decorated.mp listed
  have id_eq := (regular.classifier_regular _ classifier (Ordered.mem_of_get? found)).1
  exact ⟨declaration, declaration_mem, Option.isSome_of_eq_some kept, rfl, id_eq.symm⟩

variable {program : Program}

/-- Every pass but the first declares nothing and adds typed links. -/
theorem edits_typed (about : draft.About program) (regular : draft.Regular) {pass : Pass}
    (later : pass ≠ .declarations) {whole : List Edit} (subset : pass.edits draft ⊆ whole) :
    All (Edit.Typed (pass.run draft) (routeIds whole)) (pass.edits draft) := by
  have fit : All Fits (pass.edits draft) := (about.edits_made pass).mono fun _ => Made.fits
  refine (pass.edits_make draft subset).mono fun edit makes => ?_
  cases makes with
  | bind | declares => exact absurd rfl later
  | members _ made | described _ made =>
      exact made.typed fun _ written => Link.typed_of_plain written.plain
  | used _ used =>
      -- What is rendered and used is looked up between the two rounds of edits.
      obtain ⟨description, uses⟩ := all_append.mp fit
      have described := regular.applyAll description
      exact (used.typed described).applyAll described uses
  | wired _ made => exact made.typed fun _ => Angular.Wired.typed
  | routed _ _ routed => exact routed.typed
  | applied present kept shape_eq applied =>
      have decorates : draft.Decorates .angularComponent _ := ⟨_, present, kept, shape_eq, rfl⟩
      exact (applied.typed (templateIndex_decorates regular) decorates).applyAll regular fit
  | joined _ joined => exact joined.typed

/-- So do all passes behind the first one, for what stands in the draft in the end. -/
theorem runEdits_typed (about : draft.About program) (regular : draft.Regular)
    {passes : List Pass} (later : .declarations ∉ passes) {whole : List Edit}
    (subset : draft.runEdits passes ⊆ whole) :
    All (Edit.Typed (draft.runPasses passes) (routeIds whole)) (draft.runEdits passes) := by
  induction passes generalizing draft with
  | nil => exact all_nil
  | cons pass passes ih =>
      obtain ⟨here, further⟩ := List.append_subset.mp subset
      have first := List.ne_of_not_mem_cons later
      replace later := List.not_mem_of_not_mem_cons later
      have made := about.edits_made pass
      have about' : (pass.run draft).About program := pass.run_eq draft ▸ about.applyAll made
      have regular' : (pass.run draft).Regular :=
        pass.run_eq draft ▸ regular.applyAll (made.mono fun _ => Made.fits)
      have rest := (about'.runEdits_made passes).mono fun _ => Made.fits
      refine .append ?_ (ih about' regular' later further)
      refine (edits_typed about regular (Ne.symm first) here).mono fun _ typed => ?_
      exact runPasses_eq (pass.run draft) passes ▸ typed.applyAll regular' rest

end Draft

/-! ## Whole runs -/

namespace Pass

theorem declarations_notMem_tail (options : ExtractOptions) :
    .declarations ∉ (scheduled options).tail := by
  cases options.react <;> cases options.angular <;> cases options.importGraph <;>
    simp [scheduled, *]

theorem angular_mem_tail {options : ExtractOptions} (asked : options.angular = true) :
    .angular ∈ (scheduled options).tail := by
  simp [scheduled, asked]

end Pass

namespace Draft

section

variable (program : Program) (options : ExtractOptions) (reporting : Bool)

/-- The first pass of a run takes the declarations in, and the others follow. -/
theorem complete_eq_runPasses :
    (start program options reporting).complete
      = (start program options reporting).declareAll.runPasses (Pass.scheduled options).tail := rfl

end

variable {program : Program} {options : ExtractOptions} {reporting : Bool}

/-- What the passes behind the first one add is typed in the end, and they declare nothing. -/
theorem runEdits_declareAll_typed :
    All (Edit.Typed (start program options reporting).complete
        (routeIds (start program options reporting).completeEdits))
      ((start program options reporting).declareAll.runEdits (Pass.scheduled options).tail) := by
  have edits_eq : (start program options reporting).completeEdits
      = Declaring.edits program options
        ++ (start program options reporting).declareAll.runEdits (Pass.scheduled options).tail :=
    rfl
  exact runEdits_typed (runPasses_about program options reporting [.declarations])
    (runPasses_regular program options reporting [.declarations])
    (Pass.declarations_notMem_tail options) (edits_eq ▸ List.subset_append_right ..)

/-- In the end a decorated class has the role of the part that its shape comes from. -/
theorem has_of_decorates {shape : Shape} {id : String}
    (decorates : (start program options reporting).complete.Decorates shape id) :
    ∃ part : Angular.Part, part.shape = shape ∧
      (start program options reporting).complete.Has id
        (·.hasStereotype part.stereotype = true) := by
  let declared := (start program options reporting).declareAll
  have about : declared.About program := runPasses_about program options reporting [.declarations]
  have regular : declared.Regular := runPasses_regular program options reporting [.declarations]
  have wellFormed : declared.WellFormed :=
    (start_wellFormed program options reporting).runPasses [.declarations]
  obtain ⟨declaration, present, decorated, rfl, rfl⟩ := decorates
  rw [complete_eq_runPasses, runPasses_eq] at present ⊢
  -- The other passes declare nothing, so the class was declared by the first one.
  have declaration_mem : declaration ∈ declared.declarations := by
    rcases mem_declarations_applyAll.mp present with early | ⟨scopedName, late⟩
    · exact early
    · exact (runEdits_declareAll_typed.of_mem _ late).elim
  obtain ⟨decorator, kept⟩ := Option.isSome_iff_exists.mp decorated
  obtain ⟨asked, part, part_eq, shape_eq⟩ := part_of_mem_declarations declaration_mem kept
  obtain ⟨early, subset⟩ := exists_edits_subset (Pass.angular_mem_tail asked) declared
  refine ⟨part, shape_eq.symm, regular.has_of_change_mem
    ((about.runEdits_made _).mono fun _ => Made.fits)
    (wellFormed.declaration_mem declaration declaration_mem) (subset ?_)⟩
  exact change_mem_angularEdits (declarations_subset_applyAll declared early declaration_mem) kept
    part_eq

/-- Every link of a run is typed in the end. -/
theorem typed_of_mem_completeLinks {link : Link}
    (present : link ∈ (start program options reporting).completeLinks) :
    link.Typed (start program options reporting).complete
      (routeIds (start program options reporting).completeEdits) := by
  obtain ⟨edit, edit_mem, added⟩ := List.mem_filterMap.mp present
  rcases List.mem_append.mp edit_mem with declares | later
  · simp [Declaring.link?_of_mem_edits declares] at added
  · obtain rfl := eq_relate_of_link? added
    exact runEdits_declareAll_typed.of_mem _ later

end Draft

/-! ## Relations of a model -/

/-- The id is that of a classifier of the model, and what has the id has a property. -/
structure Model.Names (model : Model) (id : String) (property : Classifier → Prop) : Prop where
  present : ∃ classifier ∈ model.classifiers, classifier.id = id
  holds : ∀ classifier ∈ model.classifiers, classifier.id = id → property classifier

/-- Where ids do not collide, a relation that tells of a context does so by one of its links. -/
theorem Link.Sums.exists_tellContext {links : List Link} {id : String} {relation : Relation}
    (sums : Link.Sums links id relation) (free : Link.CollisionFree links)
    (tell : Tag.TellContext relation.tags) :
    ∃ link ∈ links, Tag.TellContext link.tags ∧ link.kind = relation.kind ∧
      link.targetId = relation.targetId := by
  rcases tell with used | consumed | ⟨provided, plain⟩
  · obtain ⟨link, link_mem, tagged, _, kind, _, target⟩ := sums.exists_link free used
    exact ⟨link, link_mem, .inl tagged, kind, target⟩
  · obtain ⟨link, link_mem, tagged, _, kind, _, target⟩ := sums.exists_link free consumed
    exact ⟨link, link_mem, .inr (.inl tagged), kind, target⟩
  · obtain ⟨link, link_mem, tagged, subset, kind, _, target⟩ := sums.exists_link free provided
    exact ⟨link, link_mem,
      .inr (.inr ⟨tagged, fun key => plain (List.map_subset _ subset key)⟩), kind, target⟩

/-- The classifier stands for a class that templates use. -/
def Classifier.IsUsedInTemplates (classifier : Classifier) : Prop :=
  classifier.hasStereotype "AngularPipe" = true ∨
    classifier.hasStereotype "AngularComponent" = true ∨
      classifier.hasStereotype "AngularDirective" = true

/-- The relation joins what its kind asks for. -/
structure Relation.WellTyped (model : Model) (relation : Relation) : Prop where
  /-- A component renders a component. -/
  render : relation.kind = .render → model.Names relation.sourceId (·.kind = .component) ∧
    model.Names relation.targetId (·.kind = .component)
  /-- The template of a component uses a class that templates use. -/
  template : relation.kind = .templateUses →
    model.Names relation.sourceId (·.hasStereotype "AngularComponent" = true) ∧
      model.Names relation.targetId Classifier.IsUsedInTemplates
  /-- A route leads somewhere. -/
  route : relation.kind = .routeTo → model.Names relation.sourceId Classifier.IsRoute
  /-- A child is a route. -/
  child : relation.kind = .routeTo → ⟨"role", "child"⟩ ∈ relation.tags →
    model.Names relation.targetId Classifier.IsRoute
  /-- What is told of a context leads to one. -/
  context : relation.kind = .injection → Tag.TellContext relation.tags →
    model.Names relation.targetId (·.hasStereotype "ReactContext" = true)

namespace Draft

/-- What stands under an id in a regular draft is what the id names in its model. -/
theorem Has.names (regular : draft.Regular) {id : String} {property : Classifier → Prop}
    (has : draft.Has id property) : draft.toModel.Names id property := by
  obtain ⟨classifier, found, here⟩ := has
  have entry_mem := Ordered.mem_of_get? found
  refine ⟨⟨classifier, List.mem_map.mpr ⟨_, entry_mem, rfl⟩,
    (regular.classifier_regular id classifier entry_mem).1⟩, fun other present same => ?_⟩
  obtain ⟨⟨key, _⟩, other_mem, rfl⟩ := List.mem_map.mp present
  obtain rfl : key = id := (regular.classifier_regular key _ other_mem).1.symm.trans same
  have other_found := Ordered.get?_of_mem regular.classifiers_nodup other_mem
  obtain rfl := Option.some.inj (found.symm.trans other_found)
  exact here

theorem Has.imp {id : String} {property weaker : Classifier → Prop} (has : draft.Has id property)
    (implies : ∀ classifier, property classifier → weaker classifier) : draft.Has id weaker :=
  Exists.imp (fun classifier => And.imp_right (implies classifier)) has

section

variable {program : Program} {options : ExtractOptions} {reporting : Bool}

theorem has_angularComponent {id : String}
    (decorates : (start program options reporting).complete.Decorates .angularComponent id) :
    (start program options reporting).complete.Has id
      (·.hasStereotype "AngularComponent" = true) := by
  obtain ⟨part, shape_eq, has⟩ := has_of_decorates decorates
  cases part <;> first | exact has | cases shape_eq

/-- A decorated class of a shape that templates use is one that they use. -/
theorem has_isUsedInTemplates {shape : Shape} {id : String}
    (listed : shape ∈ Angular.TemplateIndex.shapes)
    (decorates : (start program options reporting).complete.Decorates shape id) :
    (start program options reporting).complete.Has id Classifier.IsUsedInTemplates := by
  obtain ⟨part, rfl, has⟩ := has_of_decorates decorates
  refine has.imp fun classifier plays => ?_
  cases part with
  | pipe => exact .inl plays
  | component => exact .inr (.inl plays)
  | directive => exact .inr (.inr plays)
  | injectable | ngModule => simp [Angular.TemplateIndex.shapes, Angular.Part.shape] at listed

end

/-- Every relation of a model joins what its kind asks for, as long as ids do not collide: links
with one id have one kind and the same ends, and nothing but routes has the id of a route. -/
theorem complete_wellTyped (program : Program) (options : ExtractOptions) (reporting : Bool)
    (free : Link.CollisionFree (start program options reporting).completeLinks)
    (apart : Classifier.RoutesApart
      ((start program options reporting).completeEdits.filterMap Edit.classifier?)) :
    let model := (start program options reporting).complete.toModel
    ∀ relation ∈ model.relations, relation.WellTyped model := by
  intro model relation present
  let final := (start program options reporting).complete
  have regular : final.Regular := runPasses_regular program options reporting _
  have made := (start_about program options reporting).runEdits_made (Pass.scheduled options)
  have has_route : ∀ id ∈ routeIds (start program options reporting).completeEdits,
      final.Has id Classifier.IsRoute := by
    have routes := (start_regular program options reporting).has_route rfl
      (made.mono fun _ => Made.fits) apart
    rwa [← runPasses_eq] at routes
  have table : model.relations
      = Ordered.values (Link.table (start program options reporting).completeLinks) :=
    edges_complete program options reporting
  rw [table] at present
  obtain ⟨⟨id, other⟩, entry_mem, same⟩ := List.mem_map.mp present
  obtain rfl : other = relation := same
  have sums := (Link.tabulates_table _).sums id other entry_mem
  obtain ⟨link, link_mem, _, kind, source, target⟩ := sums.from_link
  have typed := typed_of_mem_completeLinks link_mem
  refine ⟨fun render => ?_, fun template => ?_, fun route => ?_, fun route tagged => ?_,
    fun injection tell => ?_⟩
  · obtain ⟨renderer, rendered⟩ := typed.render (kind.trans render)
    exact ⟨source ▸ renderer.names regular, target ▸ rendered.names regular⟩
  · obtain ⟨component, shape, listed, used⟩ := typed.template (kind.trans template)
    exact ⟨source ▸ (has_angularComponent component).names regular,
      target ▸ (has_isUsedInTemplates listed used).names regular⟩
  · exact source ▸ (has_route _ (typed.route (kind.trans route)).1).names regular
  · obtain ⟨childLink, child_mem, child_tagged, _, child_kind, _, child_target⟩ :=
      sums.exists_link free tagged
    have child := (typed_of_mem_completeLinks child_mem).route (child_kind.trans route)
    exact child_target ▸ (has_route _ (child.2 child_tagged)).names regular
  · obtain ⟨told, told_mem, told_tell, told_kind, told_target⟩ := sums.exists_tellContext free tell
    have context := (typed_of_mem_completeLinks told_mem).context (told_kind.trans injection)
    exact told_target ▸ (context told_tell).names regular

/-- A file in which a component uses a context and renders another component, with two routes. -/
def homeFile : Syntax.Source :=
  { path := "home.tsx"
    bytes := ("const Theme = createContext(); function Page() \x7b useContext(Theme); "
      ++ "return <Card/> \x7d <Route><Route/></Route>").toUTF8
    root :=
      ⟨none, "program", true, 0, 108,
        [⟨none, "lexical_declaration", true, 0, 29,
            [⟨none, "variable_declarator", true, 6, 29,
                [⟨some "name", "identifier", true, 6, 11, []⟩,
                  ⟨some "value", "call_expression", true, 14, 29,
                    [⟨some "function", "identifier", true, 14, 27, []⟩,
                      ⟨some "arguments", "arguments", true, 27, 29, []⟩]⟩]⟩]⟩,
          ⟨none, "function_declaration", true, 31, 84,
            [⟨some "name", "identifier", true, 40, 44, []⟩,
              ⟨some "body", "statement_block", true, 47, 84,
                [⟨none, "expression_statement", true, 49, 66,
                    [⟨none, "call_expression", true, 49, 66,
                        [⟨some "function", "identifier", true, 49, 59, []⟩,
                          ⟨some "arguments", "arguments", true, 59, 66,
                            [⟨none, "identifier", true, 60, 65, []⟩]⟩]⟩]⟩,
                  ⟨none, "return_statement", true, 68, 82,
                    [⟨none, "jsx_self_closing_element", true, 75, 82,
                        [⟨some "name", "identifier", true, 76, 80, []⟩]⟩]⟩]⟩]⟩,
          ⟨none, "expression_statement", true, 85, 108,
            [⟨none, "jsx_element", true, 85, 108,
                [⟨some "open_tag", "jsx_opening_element", true, 85, 92,
                    [⟨some "name", "identifier", true, 86, 91, []⟩]⟩,
                  ⟨none, "jsx_self_closing_element", true, 92, 100,
                    [⟨some "name", "identifier", true, 93, 98, []⟩]⟩]⟩]⟩]⟩ }

/-- The file of this other component, with a pipe and a class that uses it in its template. -/
def partsFile : Syntax.Source :=
  { path := "parts.tsx"
    bytes := ("function Card() \x7b return <></> \x7d @Pipe class Up \x7b\x7d "
      ++ "@Component(\x7btemplate: '\x7b\x7b x | Up \x7d\x7d'\x7d) class Shell \x7b\x7d").toUTF8
    root :=
      ⟨none, "program", true, 0, 104,
        [⟨none, "function_declaration", true, 0, 32,
            [⟨some "name", "identifier", true, 9, 13, []⟩,
              ⟨some "body", "statement_block", true, 16, 32,
                [⟨none, "return_statement", true, 18, 30,
                    [⟨none, "jsx_fragment", true, 25, 30, []⟩]⟩]⟩]⟩,
          ⟨none, "class_declaration", true, 33, 50,
            [⟨none, "decorator", true, 33, 38, [⟨none, "identifier", true, 34, 38, []⟩]⟩,
              ⟨some "name", "type_identifier", true, 45, 47, []⟩,
              ⟨some "body", "class_body", true, 48, 50, []⟩]⟩,
          ⟨none, "class_declaration", true, 51, 104,
            [⟨none, "decorator", true, 51, 89,
                [⟨none, "call_expression", true, 52, 89,
                    [⟨some "function", "identifier", true, 52, 61, []⟩,
                      ⟨some "arguments", "arguments", true, 61, 89,
                        [⟨none, "object", true, 62, 88,
                            [⟨none, "pair", true, 63, 87,
                                [⟨some "key", "property_identifier", true, 63, 71, []⟩,
                                  ⟨some "value", "string", true, 73, 87, []⟩]⟩]⟩]⟩]⟩]⟩,
              ⟨some "name", "type_identifier", true, 96, 101, []⟩,
              ⟨some "body", "class_body", true, 102, 104, []⟩]⟩]⟩ }

/-- The program of both files. -/
def homeProgram : Program :=
  { tree := { top := .directory [] }
    root := .absolute ["project"]
    files := [homeFile, partsFile] }

/-- A context is used, a component rendered, a route led to and a pipe used, each by what has to. -/
theorem homeProgram_wellTyped :
    let draft := start homeProgram { react := true, angular := true } true
    let model := draft.complete.toModel
    (model.relations.map (·.kind) = [.injection, .render, .routeTo, .templateUses] ∧
      Link.CollisionFree draft.completeLinks ∧
      Classifier.RoutesApart (draft.completeEdits.filterMap Edit.classifier?)) ∧
      ∀ relation ∈ model.relations, relation.WellTyped model := by
  intro draft model
  have evaluated : model.relations.map (·.kind) = [.injection, .render, .routeTo, .templateUses] ∧
      Link.CollisionFree draft.completeLinks ∧
      Classifier.RoutesApart (draft.completeEdits.filterMap Edit.classifier?) := by decide +kernel
  exact ⟨evaluated, complete_wellTyped homeProgram { react := true, angular := true } true
    evaluated.2.1 evaluated.2.2⟩

end Draft

end CodeGraph
