import CodeGraph.Proofs.Draft.PassForms
import CodeGraph.Proofs.Resolution.Moves

/-!
# What passes make

All passes together make edits of a few forms. A classifier that is added is declared by a file
with code, stands for such a file, or is a route in it. What is written in a declaration makes the
edits of a declaration, and the other links of frameworks lead to no supertype. What holds of every
form and is kept by edits of every form holds of every draft that passes reach.
-/

namespace CodeGraph

open Syntax

theorem Declaring.shapeTag?_isMark (shape : Shape) :
    ∀ tag ∈ shapeTag? shape, Tag.IsMark tag.key := by
  rintro tag tag_eq
  cases shape with
  | abstractClass | functionComponent | classComponent =>
      obtain rfl := Option.some.inj tag_eq
      exact ⟨by simp, by simp⟩
  | _ => cases tag_eq

namespace Edit

/-- The forms of edits that passes make for a program. -/
inductive Made (program : Program) : Edit → Prop
  /-- A file's bindings are taken. -/
  | bind {source : Source} (listed : source ∈ program.files) :
      Made program (.bind source.path source.bindings)
  /-- A file declares something. -/
  | declares {source : Source} {exportedNames : List String} {options : ExtractOptions}
      {candidate : Declaring.Candidate} {item : Declaring.Declared} {edit : Edit}
      (listed : source ∈ program.sources)
      (written : item ∈ Declaring.declared options source candidate)
      (one : edit ∈ Declaring.declareEdits source exportedNames candidate item) :
      Made program edit
  /-- A declaration is read. -/
  | ofDeclaration {reader : Draft} {links : RelationKind → List Tag → Prop}
      {declaration : Declaration} {edit : Edit} (listed : declaration.source ∈ program.sources)
      (made : edit.MadeFor reader links declaration) : Made program edit
  /-- A file becomes a module. -/
  | fileModule {source : Source} (listed : source ∈ program.sources) :
      Made program (.classifier source.path (Draft.fileModule source.path))
  /-- A route becomes a classifier. -/
  | route {framework : RouteFramework} {source : Source} {node : Node} {name key : String}
      {tags : List Tag} (listed : source ∈ program.sources)
      (distinct : ("framework" :: tags.map (·.key)).Nodup) (named : Tag.Named tags)
      (known : framework = .react ∨ framework = .angular) :
      Made program (.classifier source.path (framework.classifier source node name key tags))
  /-- A relation is made of something else than a written type. -/
  | relate {link : Link} {source : Source} {node : Node} (listed : source ∈ program.sources)
      (placed : link.source = some (source.place node))
      (unwritten : link.kind.isWritten = false) (named : Tag.Named link.tags) :
      Made program (.relate link)
  /-- What a route leads to gets a role. -/
  | stereotype {id name : String} (named : name ≠ "") : Made program (.change id (.stereotype name))
  /-- What a route leads to gets a tag. -/
  | tag {id key value : String} (mark : Tag.IsMark key) : Made program (.change id (.tag key value))
  | find {finding : Finding} : Made program (.find finding)
  | giveUp : Made program .giveUp

end Edit

open Edit

variable {program : Program} {draft : Draft} {declaration : Declaration} {source : Source}

/-! ## Frameworks -/

theorem React.Used.made {edit : Edit} (used : React.Used draft source edit)
    (listed : source ∈ program.sources) : Made program edit := by
  cases used with
  | context | render => exact .relate listed rfl rfl (by simp [Tag.Named])
  | find => exact .find
  | giveUp => exact .giveUp

theorem React.descriptionEdits_made
    (declared : ∀ declaration ∈ draft.declarations, declaration.source ∈ program.sources) :
    All (Made program) (React.descriptionEdits draft) := by
  exact (draft.reactDescription_madeFor).mono fun _ ⟨declaration, present, made⟩ =>
    .ofDeclaration (declared declaration present) made

theorem Routes.Routed.made {symbols : SymbolTable} {routes : Set String} {edit : Edit}
    (routed : Routes.Routed symbols source routes edit) (listed : source ∈ program.sources) :
    Made program edit := by
  cases routed with
  | route distinct named known => exact .route listed distinct named known
  | link _ _ keys =>
      refine .relate listed rfl rfl (.append (by simp [Tag.Named]) fun tag present empty => ?_)
      simpa [empty, Routes.extraKeys] using keys tag present
  | stereotype role => exact .stereotype role.ne_empty
  | tag mark => exact .tag mark
  | find => exact .find
  | giveUp => exact .giveUp

theorem Angular.Applied.made {draft : Draft} {index : Angular.TemplateIndex} {edit : Edit}
    (applied : Angular.Applied draft index declaration edit)
    (listed : declaration.source ∈ program.sources) : Made program edit := by
  cases applied with
  | use _ named => exact .relate listed rfl rfl (by simpa [Tag.Named] using named)
  | find => exact .find

/-! ## The import graph -/

namespace Program

/-- A path of a program that does not name a file of types is that of a source with code. -/
theorem exists_source_of_mem_paths {file : String} (present : file ∈ program.paths)
    (code : isDeclarationPath file = false) : ∃ source ∈ program.sources, source.path = file := by
  obtain ⟨source, source_mem, rfl⟩ := List.mem_map.mp present
  exact ⟨source, List.mem_filter.mpr ⟨source_mem, by simpa [Source.isDeclaration] using code⟩, rfl⟩

end Program

theorem Modules.Joined.made {resolver : ModuleResolver} {edit : Edit}
    (joined : Modules.Joined resolver source edit) (files : resolver.files = program.paths)
    (listed : source ∈ program.sources) : Made program edit := by
  cases joined with
  | origin => exact .fileModule listed
  | target found =>
      have known := files ▸ ModuleResolver.mem_files_of_resolve? found
      obtain ⟨other, other_listed, rfl⟩ := Program.exists_source_of_mem_paths known
        (ModuleResolver.isDeclarationPath_of_resolve? found)
      exact .fileModule other_listed
  | link kind_eq placed named => exact .relate listed placed (by rw [kind_eq]; rfl) named
  | find => exact .find

/-! ## The passes -/

namespace Draft

/-- The draft is about a program. -/
structure About (program : Program) (draft : Draft) : Prop where
  /-- The program is that of the draft. -/
  program_eq : draft.program = program
  /-- Specifiers lead to files of the program. -/
  files_eq : draft.symbols.resolver.files = program.paths
  /-- What is declared is declared in a file with code. -/
  declared : ∀ declaration ∈ draft.declarations, declaration.source ∈ program.sources
  /-- What a file binds is read off its syntax. -/
  bound : ∀ file bindings, (file, bindings) ∈ draft.symbols.bindings →
    ∃ source ∈ program.files, source.path = file ∧ source.bindings = bindings

theorem start_about (program : Program) (options : ExtractOptions) (reporting : Bool) :
    (start program options reporting).About program :=
  ⟨rfl, rfl, by simp [start], by simp [start]⟩

/-- A declaration that a pass takes in stands in a file with code. -/
theorem source_mem_of_made {scopedName : String}
    (made : Made program (.declare scopedName declaration)) :
    declaration.source ∈ program.sources := by
  cases made with
  | declares listed _ one =>
      cases Declaring.mem_declareEdits.mp one
      exact listed
  | ofDeclaration _ made => cases made

/-- What a file binds after an edit is what it bound before or what the edit sets. -/
theorem mem_bindings_of_apply {edit : Edit} {file : String} {bindings : Bindings}
    (present : (file, bindings) ∈ (draft.apply edit).symbols.bindings) :
    (file, bindings) ∈ draft.symbols.bindings ∨ edit = .bind file bindings := by
  cases edit with
  | bind other new =>
      rcases Ordered.mem_of_mem_set present with same | old
      · obtain ⟨rfl, rfl⟩ := Prod.mk.inj same
        exact .inr rfl
      · exact .inl old
  | declare | giveUp => exact .inl present
  | classifier | change | relate | find =>
      simp only [apply, addClassifier, changeClassifier, relate] at present
      split at present <;> exact .inl present

/-- An edit that passes make keeps a draft about its program. -/
theorem About.apply (about : draft.About program) {edit : Edit} (made : Made program edit) :
    (draft.apply edit).About program := by
  have task := sameTask_apply draft edit
  refine ⟨task.program.trans about.program_eq, ?_, fun declaration present => ?_,
    fun file bindings present => ?_⟩
  · rw [task.resolver, about.files_eq]
  · rcases mem_declarations_apply.mp present with old | ⟨scopedName, rfl⟩
    · exact about.declared declaration old
    · exact source_mem_of_made made
  · rcases mem_bindings_of_apply present with old | rfl
    · exact about.bound file bindings old
    · cases made with
      | bind listed => exact ⟨_, listed, rfl, rfl⟩
      | declares _ _ one => cases Declaring.mem_declareEdits.mp one
      | ofDeclaration _ made => cases made

/-- Edits that passes make keep a draft about its program. -/
theorem About.applyAll (about : draft.About program) {edits : List Edit}
    (made : All (Made program) edits) : (draft.applyAll edits).About program :=
  made.keeps (fun _ _ about made => about.apply made) about

/-- What a pass makes for a draft of a program is made for the program. -/
theorem About.made (about : draft.About program) {pass : Pass} {routes : Set String} {edit : Edit}
    (makes : pass.Makes draft routes edit) : Made program edit := by
  have sources_eq : draft.program.sources = program.sources := by rw [about.program_eq]
  cases makes with
  | bind listed => exact .bind (about.program_eq ▸ listed)
  | declares listed written declares =>
      exact .declares (sources_eq ▸ listed) written (Declaring.mem_declareEdits.mpr declares)
  | members present made | described present made | wired present made =>
      exact .ofDeclaration (about.declared _ present) made
  | used listed used => exact used.made (sources_eq ▸ listed)
  | routed _ listed routed => exact routed.made (sources_eq ▸ listed)
  | applied present _ _ applied => exact applied.made (about.declared _ present)
  | joined listed joined => exact joined.made about.files_eq (sources_eq ▸ listed)

/-- All edits of a pass have these forms. -/
theorem About.edits_made (about : draft.About program) (pass : Pass) :
    All (Made program) (pass.edits draft) :=
  (pass.edits_make draft (List.Subset.refl _)).mono fun _ => about.made

/-- All edits of a run have these forms. -/
theorem About.runEdits_made (about : draft.About program) (passes : List Pass) :
    All (Made program) (draft.runEdits passes) := by
  induction passes generalizing draft with
  | nil => exact all_nil
  | cons pass passes ih =>
      have made := about.edits_made pass
      rw [runEdits, Pass.run_eq]
      exact made.append (ih (about.applyAll made))

/-- Every draft that passes reach is about its program. -/
theorem runPasses_about (program : Program) (options : ExtractOptions) (reporting : Bool)
    (passes : List Pass) : ((start program options reporting).runPasses passes).About program := by
  rw [runPasses_eq]
  have started := start_about program options reporting
  exact started.applyAll (started.runEdits_made passes)

end Draft

end CodeGraph
