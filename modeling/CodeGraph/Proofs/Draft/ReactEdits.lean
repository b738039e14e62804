import CodeGraph.Project.Pass
import CodeGraph.Proofs.Draft.DeclarationEdits

/-!
# What components are read as

A component or a context is described in the pieces that every declaration is read in. The calls
and the elements of a file make edits of a few forms, and each form says what has been looked up
before: which context is used, and which component renders which other one.
-/

namespace CodeGraph

open Syntax Edit

variable {draft : Draft} {declaration : Declaration} {source : Source}

/-! ## Descriptions -/

namespace Edit.Composed

variable {form : List Edit → Prop} (composed : Composed draft declaration form)
include composed

theorem markEdits {stereotype : String} (role : Stereotype.IsRole stereotype) :
    form (React.markEdits declaration stereotype) :=
  composed.append (composed.single (.stereotype role)) (composed.single (.tag ⟨by simp, by simp⟩))

theorem roleEdits {role : String} (mark : Tag.IsMark ("react." ++ role ++ "Type"))
    (type : Option Node) : form (React.roleEdits draft declaration role type) := by
  cases type with
  | none => exact composed.nil
  | some node =>
      refine composed.append (composed.append (composed.single (.role ?_))
        (composed.single (.tag mark))) (composed.ofType _ _ _ _ ?_) <;> simp [Links.typeOrigins]

theorem componentEdits : form (React.componentEdits draft declaration) :=
  composed.append (composed.append (composed.markEdits ⟨by simp, by simp⟩)
    (composed.roleEdits ⟨by decide, by decide⟩ _))
    (composed.roleEdits ⟨by decide, by decide⟩ _)

theorem contextEdits : form (React.contextEdits declaration) := by
  simp only [React.contextEdits]
  refine composed.append (composed.markEdits ⟨by simp, by simp⟩) ?_
  cases _ <|> declaration.node.childIn? "type" with
  | none => exact composed.nil
  | some node => exact composed.single (.tag ⟨by simp, by simp⟩)

end Edit.Composed

/-! ## Calls and elements -/

namespace React

/-- The owner of a node is one of the declarations. -/
theorem mem_of_ownerOf? {declarations : List Declaration} {node : Node} {owner : Declaration}
    (found : ownerOf? declarations node = some owner) : owner ∈ declarations := by
  have listed := (List.mem_filter.mp (List.mem_of_getLast? found)).1
  exact (List.mergeSort_perm declarations spanLe).mem_iff.mp listed

/-- The forms of edits that the calls and elements of a file make. -/
inductive Used (draft : Draft) (source : Source) : Edit → Prop
  /-- A declaration uses a context. -/
  | context {owner : Declaration} {context : Classifier} {id origin : String} {node : Node}
      (owned : owner ∈ draft.declarations) (found : draft.classifier? id = some context)
      (isContext : context.hasStereotype "ReactContext" = true) :
      Used draft source (.relate
        { kind := .injection
          sourceId := owner.classifierId
          targetId := context.id
          tags := [⟨"origin", origin⟩]
          source := some (source.place node) })
  /-- A component renders a component. -/
  | render {owner : Declaration} {renderer target : Classifier} {id : String} {node : Node}
      (owned : owner ∈ draft.declarations)
      (renders : draft.classifier? owner.classifierId = some renderer)
      (renderer_kind : renderer.kind = .component) (found : draft.classifier? id = some target)
      (target_kind : target.kind = .component) :
      Used draft source (.relate
        { kind := .render
          sourceId := owner.classifierId
          targetId := target.id
          tags := [⟨"origin", "jsx"⟩]
          source := some (source.place node) })
  /-- A finding is made of what a declaration uses, and the name is looked up in its scope. -/
  | find {owner : Declaration} {finding : Finding}
      (present : owner ∈ draft.declarationsIn source.path) (owned : draft.Owns owner finding)
      (fair : finding.Fair draft.symbols source.path owner.scope) :
      Used draft source (.find finding)
  | giveUp : Used draft source .giveUp

theorem mem_declarationsIn {owner : Declaration} {file : String} :
    owner ∈ draft.declarationsIn file ↔ owner ∈ draft.declarations ∧ owner.file = file := by
  rw [Draft.declarationsIn, List.mem_filter, beq_iff_eq]

theorem unknownTag_used {owner : Declaration} (owned : owner ∈ draft.declarationsIn source.path)
    {tag : String} (lacks : draft.symbols.Tells source.path tag owner.scope none)
    (inside : draft.symbols.isExternal source.path tag = false) (node : Node) :
    All (Used draft source) (unknownTag draft source owner tag node) := by
  simp only [unknownTag]
  split
  · refine .ofMeaning (fun symbol _ => ?_) .giveUp
    cases symbol with
    | some symbol => exact all_nil
    | none =>
        exact .single (.find owned rfl
          (.of_tells nofun (Finding.isAbout_atLine rfl ..) lacks fun _ => inside))
  · exact .single (.find owned rfl
      (.of_tells nofun (Finding.isAbout_atLine rfl ..) lacks fun _ => inside))

/-- A context that a name means is found under an id. -/
theorem exists_of_context? {symbol : Option Symbol} {context : Classifier}
    (found : context? draft symbol = some context) :
    (∃ id, draft.classifier? id = some context) ∧ context.hasStereotype "ReactContext" = true := by
  obtain ⟨meaning, isContext⟩ := Option.filter_eq_some_iff.mp found
  obtain ⟨symbol, _, present⟩ := Option.bind_eq_some_iff.mp meaning
  exact ⟨⟨_, present⟩, isContext⟩

/-- What a rendered name leads to is found under an id. -/
theorem exists_of_rendered? {index : Ordered (Option String)} {tag : String}
    {symbol : Option Symbol} {isExternal : Bool} {target : Classifier}
    (found : rendered? draft index tag symbol isExternal = some target) :
    ∃ id, draft.classifier? id = some target := by
  cases symbol with
  | some symbol => exact ⟨_, found⟩
  | none =>
      simp only [rendered?] at found
      split at found
      · simp at found
      · obtain ⟨id, _, present⟩ := Option.bind_eq_some_iff.mp found
        exact ⟨id, present⟩

section

variable {owner : Declaration} (owned : owner ∈ draft.declarationsIn source.path)
include owned

theorem contextUse_used (name origin : String) (node : Node) :
    All (Used draft source) (contextUse draft source owner name origin node) := by
  refine .ofMeaning (fun symbol told => ?_) .giveUp
  split
  next context found =>
    obtain ⟨⟨id, present⟩, isContext⟩ := exists_of_context? found
    split
    · exact .single (.context (mem_declarationsIn.mp owned).1 present isContext)
    · exact all_nil
  next =>
    split
    next => exact all_nil
    next inside =>
      exact .single (.find owned rfl (.of_tells nofun (Finding.isAbout_atLine rfl ..) told
        fun _ => by simpa using inside))

theorem renderEdits_used {renderer : Classifier}
    (renders : draft.classifier? owner.classifierId = some renderer)
    (renderer_kind : renderer.kind = .component) (index : Ordered (Option String)) (tag : String)
    (node : Node) : All (Used draft source) (renderEdits draft index source owner tag node) := by
  refine .ofMeaning (fun symbol told => ?_) .giveUp
  simp only
  split
  next target found =>
    obtain ⟨id, present⟩ := exists_of_rendered? found
    split
    next asked =>
      have target_kind : target.kind = .component := by simp_all
      have declared := (mem_declarationsIn.mp owned).1
      exact .single (.render declared renders renderer_kind present target_kind)
    next => exact all_nil
  next =>
    split
    next => exact all_nil
    next unknown =>
      obtain rfl : symbol = none := by cases symbol <;> simp_all
      exact unknownTag_used owned told (by simpa using unknown) node

end

section

variable {owners : List Declaration} (owned : owners ⊆ draft.declarationsIn source.path)
include owned

theorem callEdits_used (node : Node) :
    All (Used draft source) (callEdits draft source owners node) := by
  rw [callEdits]
  split
  · split
    next found =>
      split
      · exact contextUse_used (owned (mem_of_ownerOf? found)) ..
      · exact all_nil
    next => exact all_nil
  · exact all_nil

theorem elementEdits_used (index : Ordered (Option String)) (node : Node) :
    All (Used draft source) (elementEdits draft index source owners node) := by
  simp only [elementEdits]
  split
  · exact all_nil
  · split
    next => exact all_nil
    next owner found =>
      have owner_mem := owned (mem_of_ownerOf? found)
      split
      · exact contextUse_used owner_mem ..
      · split
        next renders =>
          obtain ⟨component, _⟩ := Bool.and_eq_true_iff.mp renders
          obtain ⟨renderer, present, renderer_kind⟩ := (Option.any_eq_true ..).mp component
          exact renderEdits_used owner_mem present (beq_iff_eq.mp renderer_kind) ..
        next => exact all_nil

end

theorem useEdits_used (draft : Draft) (index : Ordered (Option String)) (source : Source) :
    All (Used draft source) (useEdits draft index source) := by
  have owned : (draft.declarationsIn source.path).filter (·.shape != .reactContext)
      ⊆ draft.declarationsIn source.path := List.filter_subset_self _
  refine .flatMap fun node _ => ?_
  split
  · exact callEdits_used owned node
  · split
    · exact elementEdits_used owned index node
    · exact all_nil

end React

end CodeGraph
