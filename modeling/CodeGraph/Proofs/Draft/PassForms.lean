import CodeGraph.Proofs.Draft.AngularEdits
import CodeGraph.Proofs.Draft.Declaring
import CodeGraph.Proofs.Draft.ReactEdits
import CodeGraph.Proofs.Draft.RouteEdits
import CodeGraph.Proofs.Draft.Runs

/-!
# The forms of edits

Each pass makes edits of a few forms: it declares what candidates declare, reads declarations, looks
up what is used in a file, reads routes or templates, or joins files. What a pass makes for a draft
is told here once for all passes, so what holds of every form holds of whatever a pass does.
-/

namespace CodeGraph

open Syntax Edit

/-! ## The import graph -/

namespace Modules

/-- The forms of edits that the references of a file make, when specifiers lead to these files. -/
inductive Joined (resolver : ModuleResolver) (source : Source) : Edit → Prop
  /-- The file becomes a module. -/
  | origin : Joined resolver source (.classifier source.path (Draft.fileModule source.path))
  /-- So does the file that a specifier leads to. -/
  | target {specifier file : String} (found : resolver.resolve? specifier source.path = some file) :
      Joined resolver source (.classifier file (Draft.fileModule file))
  /-- The first module depends on the other one. -/
  | link {link : Link} {node : Node} (kind_eq : link.kind = .dependency)
      (placed : link.source = some (source.place node)) (named : Tag.Named link.tags) :
      Joined resolver source (.relate link)
  /-- A specifier leads nowhere. -/
  | find {finding : Finding} (kind_eq : finding.kind = .unresolvedImport) :
      Joined resolver source (.find finding)

theorem ModuleReference.edits_joined (reference : ModuleReference) (resolver : ModuleResolver)
    (source : Source) : All (Joined resolver source) (reference.edits resolver source) := by
  rw [edits]
  split
  next target found =>
    exact all_cons.mpr ⟨.origin, all_cons.mpr ⟨.target found,
      .single (.link rfl rfl (by simp [Tag.Named]))⟩⟩
  next =>
    split
    · exact .single (.find rfl)
    · exact all_nil

end Modules

/-! ## Frameworks -/

namespace Draft

theorem decoratedEdits_madeFor (draft : Draft) (declaration : Declaration) :
    All (MadeFor draft Angular.Wired declaration) (draft.decoratedEdits declaration) := by
  rw [decoratedEdits]
  split
  · exact all_nil
  · split
    · exact all_nil
    next decorator _ _ part _ =>
      let details := Angular.metadata? declaration.source decorator
      have description := Angular.descriptionEdits_madeFor draft declaration part details
      have wiring := Angular.wiringEdits_madeFor
        (draft.applyAll (Angular.descriptionEdits declaration part details)) declaration part
        details
      exact description.append
        (wiring.mono fun _ => .of_sameNames (description.sameNames_applyAll draft))

/-- Describing and wiring a class does not change what names mean, or what classifiers are
called. -/
theorem sameNames_addDecorated (draft : Draft) (declaration : Declaration) :
    draft.SameNames (draft.addDecorated declaration) :=
  addDecorated_eq draft declaration ▸
    (decoratedEdits_madeFor draft declaration).sameNames_applyAll draft

/-- So each class is wired with the names that there were before the first one. -/
theorem angularEdits_madeFor (draft : Draft) (declarations : List Declaration) :
    All (fun edit => ∃ declaration ∈ declarations,
      edit.MadeFor draft Angular.Wired declaration) (draft.angularEdits declarations) := by
  induction declarations generalizing draft with
  | nil => exact all_nil
  | cons declaration declarations ih =>
      have here := decoratedEdits_madeFor draft declaration
      have same := sameNames_addDecorated draft declaration
      refine .append (here.mono fun _ made => ⟨declaration, List.mem_cons_self, made⟩) ?_
      exact (ih (draft.addDecorated declaration)).mono fun _ ⟨other, present, made⟩ =>
        ⟨other, List.mem_cons_of_mem _ present, made.of_sameNames same⟩

theorem reactDescription_madeFor (draft : Draft) :
    All (fun edit => ∃ declaration ∈ draft.declarations,
      edit.MadeFor draft Links.Written declaration) (React.descriptionEdits draft) := by
  refine .append (.flatMap fun declaration present => ?_) (.flatMap fun declaration present => ?_)
  · exact (composed_madeFor draft declaration).componentEdits.mono fun _ made =>
      ⟨_, (List.mem_filter.mp present).1, made⟩
  · exact (composed_madeFor draft declaration).contextEdits.mono fun _ made =>
      ⟨_, (List.mem_filter.mp present).1, made⟩

/-- Describing components and contexts does not change what names mean, or what classifiers are
called. -/
theorem sameNames_reactDescription (draft : Draft) :
    draft.SameNames (draft.applyAll (React.descriptionEdits draft)) :=
  (reactDescription_madeFor draft).keeps
    (fun _ _ same ⟨_, _, made⟩ => same.trans (made.sameNames_apply _)) (.refl draft)

/-- Nor does it declare anything. -/
theorem declarations_reactDescription {draft : Draft} {declaration : Declaration}
    (present : declaration ∈ (draft.applyAll (React.descriptionEdits draft)).declarations) :
    declaration ∈ draft.declarations := by
  rcases mem_declarations_applyAll.mp present with old | ⟨_, one⟩
  · exact old
  · obtain ⟨_, _, made⟩ := (reactDescription_madeFor draft).of_mem _ one
    cases made

end Draft

/-! ## The passes -/

namespace Pass

/-- The forms of edits that a pass makes for a draft, when the ids in `routes` are those of
routes. -/
inductive Makes (draft : Draft) (routes : Set String) : Pass → Edit → Prop
  /-- A file's bindings are taken. -/
  | bind {source : Source} (listed : source ∈ draft.program.files) :
      Makes draft routes .declarations (.bind source.path source.bindings)
  /-- A candidate declares a name. -/
  | declares {source : Source} {exportedNames : List String} {candidate : Declaring.Candidate}
      {item : Declaring.Declared} {edit : Edit} (listed : source ∈ draft.program.sources)
      (written : item ∈ Declaring.declared draft.options source candidate)
      (declares : Declaring.Declares source exportedNames candidate item edit) :
      Makes draft routes .declarations edit
  /-- The members of a declaration are read. -/
  | members {declaration : Declaration} {edit : Edit} (present : declaration ∈ draft.declarations)
      (made : edit.MadeFor draft Links.Written declaration) :
      Makes draft routes .members edit
  /-- A component or a context is described. -/
  | described {declaration : Declaration} {edit : Edit} (present : declaration ∈ draft.declarations)
      (made : edit.MadeFor draft Links.Written declaration) : Makes draft routes .react edit
  /-- A component is rendered or a context is used. -/
  | used {source : Source} {edit : Edit} (listed : source ∈ draft.program.sources)
      (used : React.Used (draft.applyAll (React.descriptionEdits draft)) source edit) :
      Makes draft routes .react edit
  /-- A decorated class is described and wired. -/
  | wired {declaration : Declaration} {edit : Edit} (present : declaration ∈ draft.declarations)
      (made : edit.MadeFor draft Angular.Wired declaration) :
      Makes draft routes .angular edit
  /-- A route is read. -/
  | routed {pass : Pass} {source : Source} {edit : Edit}
      (router : pass = .reactRoutes ∨ pass = .angularRoutes)
      (listed : source ∈ draft.program.sources)
      (routed : Routes.Routed draft.symbols source routes edit) : Makes draft routes pass edit
  /-- The template of a component is read. -/
  | applied {declaration : Declaration} {edit : Edit} (present : declaration ∈ draft.declarations)
      (kept : declaration.decorator.isSome) (shape_eq : declaration.shape = .angularComponent)
      (applied : Angular.Applied draft draft.templateIndex declaration edit) :
      Makes draft routes .angularTemplates edit
  /-- A file refers to a module. -/
  | joined {source : Source} {edit : Edit} (listed : source ∈ draft.program.sources)
      (joined : Modules.Joined draft.symbols.resolver source edit) :
      Makes draft routes .imports edit

/-- All edits of a pass have its forms, where the routes are those that a longer list adds. -/
theorem edits_make (draft : Draft) (pass : Pass) {whole : List Edit}
    (subset : pass.edits draft ⊆ whole) :
    All (pass.Makes draft (routeIds whole)) (pass.edits draft) := by
  cases pass with
  | declarations =>
      refine .append ⟨List.forall_mem_map.mpr fun source listed => .bind listed⟩ ?_
      exact .flatMap fun source listed => .flatMap fun candidate _ => .flatMap fun item written =>
        ⟨fun edit one => .declares listed written (Declaring.mem_declareEdits.mp one)⟩
  | members =>
      exact .flatMap fun declaration present =>
        (Members.declarationEdits_madeFor ..).mono fun _ => .members present
  | react =>
      refine .append ((Draft.reactDescription_madeFor draft).mono
        fun _ ⟨_, present, made⟩ => .described present made) (.flatMap fun source listed => ?_)
      rw [(Draft.sameTask_applyAll draft _).program] at listed
      exact (React.useEdits_used ..).mono fun _ => .used listed
  | reactRoutes =>
      exact .flatMap fun source listed =>
        (React.routeEdits_routed draft _ source fun _ present =>
          subset (List.mem_flatMap_of_mem listed present)).mono fun _ => .routed (.inl rfl) listed
  | angular =>
      exact (Draft.angularEdits_madeFor draft draft.declarations).mono
        fun _ ⟨_, present, made⟩ => .wired present made
  | angularRoutes =>
      exact .flatMap fun source listed =>
        (Angular.routeEdits_routed draft _ source fun _ present =>
          subset (List.mem_flatMap_of_mem listed present)).mono fun _ => .routed (.inr rfl) listed
  | angularTemplates =>
      refine .flatMap fun entry present => ?_
      obtain ⟨listed, isComponent⟩ := List.mem_filter.mp present
      obtain ⟨declaration_mem, kept⟩ := Angular.mem_decorated.mp listed
      exact (Angular.componentEdits_applied ..).mono fun _ =>
        .applied declaration_mem (Option.isSome_of_eq_some kept) (beq_iff_eq.mp isComponent)
  | imports =>
      exact .flatMap fun source listed => .flatMap fun reference _ =>
        (reference.edits_joined ..).mono fun _ => .joined listed

end Pass

end CodeGraph
