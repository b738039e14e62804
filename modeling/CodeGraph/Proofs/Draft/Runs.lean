import CodeGraph.Proofs.Draft.FrameworkOptions

/-!
# Runs as lists of edits

A pass makes its edits in one or more rounds, each for the draft that the round before has left.
All of them together are one list, and so are those of a run. The list of a run under options that
ask for less is the list of the run under the others, thinned.
-/

namespace CodeGraph

open Draft

namespace Draft

/-- The edits that describe and wire a decorated class. -/
def decoratedEdits (draft : Draft) (declaration : Declaration) : List Edit :=
  match declaration.decorator with
  | none => []
  | some decorator =>
      match Angular.partOf? declaration.source decorator with
      | none => []
      | some part =>
          let details := Angular.metadata? declaration.source decorator
          let description := Angular.descriptionEdits declaration part details
          description ++ Angular.wiringEdits (draft.applyAll description) declaration part details

theorem addDecorated_eq (draft : Draft) (declaration : Declaration) :
    draft.addDecorated declaration = draft.applyAll (draft.decoratedEdits declaration) := by
  rw [addDecorated, decoratedEdits]
  cases declaration.decorator with
  | none => rfl
  | some decorator =>
      simp only
      cases Angular.partOf? declaration.source decorator with
      | none => rfl
      | some part => simp only [applyAll_append]

/-- The edits that describe and wire decorated classes one after the other. -/
def angularEdits (draft : Draft) : List Declaration → List Edit
  | [] => []
  | declaration :: declarations =>
      draft.decoratedEdits declaration
        ++ angularEdits (draft.addDecorated declaration) declarations

theorem foldl_addDecorated (draft : Draft) (declarations : List Declaration) :
    declarations.foldl addDecorated draft = draft.applyAll (draft.angularEdits declarations) := by
  induction declarations generalizing draft with
  | nil => rfl
  | cons declaration declarations ih =>
      rw [List.foldl_cons, ih, angularEdits, applyAll_append, ← addDecorated_eq]

/-- The edits of what a draft says about React components and contexts. -/
def reactEdits (draft : Draft) : List Edit :=
  let described := draft.applyAll (React.descriptionEdits draft)
  React.descriptionEdits draft
    ++ described.program.sources.flatMap (React.useEdits described (React.componentIndex described))

end Draft

namespace Pass

/-- The edits of a pass. -/
def edits (draft : Draft) : Pass → List Edit
  | .declarations => Declaring.edits draft.program draft.options
  | .members => draft.declarations.flatMap (Members.declarationEdits draft)
  | .react => draft.reactEdits
  | .reactRoutes =>
      draft.program.sources.flatMap (React.routeEdits draft (React.routeComponents draft))
  | .angular => draft.angularEdits draft.declarations
  | .angularRoutes =>
      draft.program.sources.flatMap (Angular.routeEdits draft (Angular.routeIndex draft))
  | .angularTemplates =>
      (draft.decorated.filter fun (declaration, _) =>
        declaration.shape == .angularComponent).flatMap fun (declaration, decorator) =>
          Angular.componentEdits draft draft.templateIndex declaration decorator
  | .imports =>
      draft.program.sources.flatMap fun source =>
        (Modules.references source).flatMap fun reference =>
          reference.edits draft.symbols.resolver source

/-- A pass makes its edits and nothing else. -/
theorem run_eq (pass : Pass) (draft : Draft) :
    pass.run draft = draft.applyAll (pass.edits draft) := by
  cases pass with
  | react =>
      rw [run, addReact, edits, reactEdits, applyAll_append]
  | angular => exact foldl_addDecorated draft draft.declarations
  | declarations | members | reactRoutes | angularRoutes | angularTemplates | imports => rfl

end Pass

namespace Draft

variable {small large : Draft}

/-- Edits do not change what is asked for. -/
theorem Thins.of_applyAll {first second third fourth : List Edit}
    (thins : Thins (small.applyAll first) (large.applyAll second) third fourth) :
    Thins small large third fourth := by
  rwa [Thins, options_applyAll, options_applyAll] at thins

theorem decoratedEdits_thins (within : Within small large) (declaration : Declaration) :
    Thins small large (small.decoratedEdits declaration) (large.decoratedEdits declaration) := by
  rw [decoratedEdits, decoratedEdits]
  split
  · exact .nil
  · split
    · exact .nil
    next decorator _ _ part _ =>
      let details := Angular.metadata? declaration.source decorator
      have description : Thins small large (Angular.descriptionEdits declaration part details)
          (Angular.descriptionEdits declaration part details) :=
        Angular.descriptionEdits_thins part details
      have described := within.applyAll description
      exact description.append (Angular.wiringEdits_thins described part details).of_applyAll

theorem angularEdits_thins (within : Within small large) (declarations : List Declaration) :
    Thins small large (small.angularEdits declarations) (large.angularEdits declarations) := by
  induction declarations generalizing small large with
  | nil => exact .nil
  | cons declaration declarations ih =>
      -- Each class is wired in the drafts that the classes before it have left, which are alike.
      have here := decoratedEdits_thins within declaration
      rw [angularEdits, angularEdits, addDecorated_eq, addDecorated_eq]
      exact here.append (ih (within.applyAll here)).of_applyAll

theorem reactEdits_thins (within : Within small large) :
    Thins small large small.reactEdits large.reactEdits := by
  have description := React.descriptionEdits_thins within
  have described := within.applyAll description
  rw [reactEdits, reactEdits, described.program, React.componentIndex_eq described]
  refine description.append (.flatMap fun source _ => ?_)
  exact (React.useEdits_thins described _ source).of_applyAll

theorem templateIndex_eq (within : Within small large) :
    large.templateIndex = small.templateIndex := by
  simp only [templateIndex, decorated, within.declarations, within.classifier?]

/-- The edits of a pass are thinned where less is asked for. -/
theorem Within.edits_thins (within : Within small large) (pass : Pass) :
    Thins small large (pass.edits small) (pass.edits large) := by
  cases pass with
  | declarations =>
      rw [Pass.edits, Pass.edits, within.program]
      exact Declaring.edits_thins within _
  | members =>
      rw [Pass.edits, Pass.edits, within.declarations]
      exact .flatMap fun declaration _ => Members.declarationEdits_thins within
  | react => exact reactEdits_thins within
  | reactRoutes =>
      rw [Pass.edits, Pass.edits, within.program, React.routeComponents_eq within]
      refine .flatMap fun source _ => ?_
      exact RouteTree.editsOfAll_thins (React.makeRoute_thins within _ source) none _
  | angular =>
      rw [Pass.edits, Pass.edits, within.declarations]
      exact angularEdits_thins within _
  | angularRoutes =>
      rw [Pass.edits, Pass.edits, within.program, Angular.routeIndex_eq within]
      refine .flatMap fun source _ => ?_
      exact RouteTree.editsOfAll_thins (Angular.makeRoute_thins within _ source) none _
  | angularTemplates =>
      rw [Pass.edits, Pass.edits, templateIndex_eq within, decorated, decorated,
        within.declarations]
      exact .flatMap fun entry _ => Angular.componentEdits_thins within ..
  | imports =>
      rw [Pass.edits, Pass.edits, within.program, within.symbols]
      exact .flatMap fun source _ => .flatMap fun reference _ =>
        Modules.ModuleReference.edits_thins reference _ source

/-- The edits of passes that run one after the other. -/
def runEdits (draft : Draft) : List Pass → List Edit
  | [] => []
  | pass :: passes => pass.edits draft ++ runEdits (pass.run draft) passes

/-- A run makes its edits and nothing else. -/
theorem runPasses_eq (draft : Draft) (passes : List Pass) :
    draft.runPasses passes = draft.applyAll (draft.runEdits passes) := by
  induction passes generalizing draft with
  | nil => rfl
  | cons pass passes ih =>
      rw [runEdits, applyAll_append, ← Pass.run_eq, ← ih]
      rfl

/-- The edits of a pass are among those of a run, for a draft that the run comes by. -/
theorem exists_edits_subset {pass : Pass} {passes : List Pass} (present : pass ∈ passes)
    (draft : Draft) :
    ∃ early, pass.edits (draft.applyAll early) ⊆ draft.runEdits passes := by
  induction passes generalizing draft with
  | nil => exact absurd present List.not_mem_nil
  | cons first passes ih =>
      rw [runEdits]
      rcases List.mem_cons.mp present with rfl | later
      · exact ⟨[], List.subset_append_left _ _⟩
      · obtain ⟨early, subset⟩ := ih later (first.run draft)
        refine ⟨first.edits draft ++ early, ?_⟩
        rw [applyAll_append, ← Pass.run_eq]
        exact List.Subset.trans subset (List.subset_append_right _ _)

/-- The edits of a run are thinned where less is asked for. -/
theorem Within.runEdits_thins (within : Within small large) (passes : List Pass) :
    Thins small large (small.runEdits passes) (large.runEdits passes) := by
  induction passes generalizing small large with
  | nil => exact .nil
  | cons pass passes ih =>
      have here := within.edits_thins pass
      rw [runEdits, runEdits, Pass.run_eq, Pass.run_eq]
      exact here.append (ih (within.applyAll here)).of_applyAll

theorem Within.runPasses (within : Within small large) (passes : List Pass) :
    Within (small.runPasses passes) (large.runPasses passes) := by
  rw [runPasses_eq, runPasses_eq]
  exact within.applyAll (within.runEdits_thins passes)

theorem runEdits_append (draft : Draft) (first second : List Pass) :
    draft.runEdits (first ++ second)
      = draft.runEdits first ++ (draft.runPasses first).runEdits second := by
  induction first generalizing draft with
  | nil => rfl
  | cons pass first ih =>
      rw [List.cons_append, runEdits, runEdits, ih, List.append_assoc]
      rfl

end Draft

end CodeGraph
