import CodeGraph.Draft.Declaring
import CodeGraph.Draft.Members
import CodeGraph.Modules.ImportGraph
import CodeGraph.Proofs.Draft.Options

/-!
# The passes of every extraction under options that ask for less

What is declared depends on the frameworks that are read and on nothing else that is asked for.
Members make dependencies where these are asked for.
-/

namespace CodeGraph

open Draft

variable {small large : Draft} {declaration : Declaration}

/-! ## Links -/

namespace Links

/-- What a name leads to by meaning is there for dependencies if it is whatever the name means. -/
theorem withMeaningAt_forDeps {draft : Draft} {name : String} {edits : Option Symbol → List Edit}
    (each : ∀ symbol, ∀ edit ∈ edits symbol, edit.IsForDeps) :
    ∀ edit ∈ draft.withMeaningAt declaration name edits, edit.IsForDeps := by
  rw [withMeaningAt, withMeaning]
  split
  · exact each _
  · exact each none
  · simp [Edit.IsForDeps]

variable (within : Within small large)
include within

theorem ofTypeName_thins (place : SourceRef) (member origin : String) (name : String × Bool) :
    Thins small large (ofTypeName small declaration place member origin name)
      (ofTypeName large declaration place member origin name) := by
  rw [ofTypeName, ofTypeName]
  refine within.withMeaningAt fun symbol => ?_
  cases symbol with
  | none => exact .nil
  | some symbol =>
      refine .append (.ite (fun _ => .relate rfl) fun _ => .nil) ?_
      refine within.deps (.relate rfl) fun edit present => ?_
      obtain rfl := List.mem_singleton.mp present
      rfl

theorem ofType_thins (type : Option Syntax.Node) (member origin : String) (direct : Bool) :
    Thins small large (ofType small declaration type member origin direct)
      (ofType large declaration type member origin direct) := by
  cases type with
  | none => exact .nil
  | some node => exact .flatMap fun name _ => ofTypeName_thins within _ member origin name

theorem ofUses_thins (body : Option Syntax.Node) :
    Thins small large (ofUses small declaration body) (ofUses large declaration body) := by
  cases body with
  | none => exact .nil
  | some body =>
      rw [ofUses, ofUses]
      refine within.deps (.flatMap fun node _ => ?_) fun edit present => ?_
      · split
        · exact .nil
        · refine within.withMeaningAt fun symbol => ?_
          cases symbol with
          | none => exact .nil
          | some symbol => exact .relate rfl
      · obtain ⟨node, _, made⟩ := List.mem_flatMap.mp present
        split at made
        · exact absurd made List.not_mem_nil
        · refine withMeaningAt_forDeps (fun symbol => ?_) edit made
          cases symbol with
          | none => simp
          | some symbol => simp [Edit.IsForDeps, link]

end Links

/-! ## Members -/

namespace Members

section

variable (within : Within small large)
include within

theorem operationEdits_thins (name : String) (function origin : Syntax.Node)
    (traits : OperationTraits) :
    Thins small large (operationEdits small declaration name function origin traits)
      (operationEdits large declaration name function origin traits) := by
  simp only [operationEdits, within.nameOf]
  refine .append (.append (.append ?_ ?_) (.change .nil)) ?_
  · exact .flatMap fun parameter _ => Links.ofType_thins within ..
  · exact .ite (fun _ => .nil) fun _ => Links.ofType_thins within ..
  · exact Links.ofUses_thins within _

theorem attributeEdits_thins (name : String) (type : Option Syntax.Node)
    (origin : Syntax.Node) (traits : AttributeTraits) :
    Thins small large (attributeEdits small declaration name type origin traits)
      (attributeEdits large declaration name type origin traits) :=
  .append (.change .nil) (Links.ofType_thins within ..)

theorem supertypeEdits_thins {kind : RelationKind} (plain : kind.isFramework = false)
    (node : Syntax.Node) :
    Thins small large (supertypeEdits small declaration kind node)
      (supertypeEdits large declaration kind node) := by
  rw [supertypeEdits, supertypeEdits]
  refine within.withMeaningAt fun symbol => ?_
  cases symbol with
  | none => exact .nil
  | some symbol => exact .ite (fun _ => .nil) fun _ => .relate plain

theorem classHeritage_thins :
    Thins small large (classHeritage small declaration) (classHeritage large declaration) := by
  refine .flatMap fun heritage _ => .flatMap fun clause _ => ?_
  refine .ite (fun _ => ?_) fun _ => .ite (fun _ => ?_) fun _ => .nil
  · refine .append (.flatMap fun node _ => ?_) (Links.ofType_thins within ..)
    exact supertypeEdits_thins within rfl node
  · exact .flatMap fun node _ => supertypeEdits_thins within rfl node

theorem interfaceHeritage_thins :
    Thins small large (interfaceHeritage small declaration)
      (interfaceHeritage large declaration) :=
  .flatMap fun _ _ => .flatMap fun node _ => supertypeEdits_thins within rfl node

theorem constructorAttributes_thins (constructor : Syntax.Node) :
    Thins small large (constructorAttributes small declaration constructor)
      (constructorAttributes large declaration constructor) :=
  .flatMap fun _ _ => .ite (fun _ => attributeEdits_thins within ..) fun _ => .nil

theorem classMember_thins (member nameNode : Syntax.Node) :
    Thins small large (classMember small declaration member nameNode)
      (classMember large declaration member nameNode) := by
  simp only [classMember]
  refine .ite (fun _ => ?_) fun _ => .ite (fun _ => ?_) fun _ => .ite (fun _ => ?_) fun _ => .nil
  · split
    · exact operationEdits_thins within ..
    · exact (attributeEdits_thins within ..).append (Links.ofUses_thins within _)
  · refine (operationEdits_thins within ..).append (.ite (fun _ => ?_) fun _ => .nil)
    exact constructorAttributes_thins within member
  · exact operationEdits_thins within ..

theorem interfaceMember_thins (member nameNode : Syntax.Node) :
    Thins small large (interfaceMember small declaration member nameNode)
      (interfaceMember large declaration member nameNode) := by
  rw [interfaceMember, interfaceMember]
  refine .ite (fun _ => ?_) fun _ => .ite (fun _ => ?_) fun _ => .nil
  · exact attributeEdits_thins within ..
  · exact operationEdits_thins within ..

theorem typeAlias_thins :
    Thins small large (typeAlias small declaration) (typeAlias large declaration) := by
  rw [typeAlias, typeAlias]
  split
  · exact .nil
  · exact .append (.change .nil) (Links.ofType_thins within ..)

end

theorem bodyMembers_thins {fewer more : Syntax.Node → Syntax.Node → List Edit}
    (each : ∀ member nameNode, Thins small large (fewer member nameNode) (more member nameNode)) :
    Thins small large (bodyMembers declaration fewer) (bodyMembers declaration more) := by
  rw [bodyMembers, bodyMembers]
  split
  · exact .nil
  · refine .flatMap fun member _ => ?_
    split
    · exact each member _
    · exact .nil

theorem enumMembers_thins :
    Thins small large (enumMembers declaration) (enumMembers declaration) := by
  rw [enumMembers]
  split
  · exact .nil
  · refine .flatMap fun member _ => ?_
    rw [enumMember]
    exact .ite (fun _ => .change .nil) fun _ => .ite (fun _ => .change .nil) fun _ => .nil

theorem declarationEdits_thins (within : Within small large) :
    Thins small large (declarationEdits small declaration)
      (declarationEdits large declaration) := by
  rw [declarationEdits, declarationEdits]
  refine .ite (fun _ => ?_) fun _ => .ite (fun _ => ?_) fun _ => ?_
  · exact (classHeritage_thins within).append (bodyMembers_thins (classMember_thins within))
  · exact operationEdits_thins within ..
  · split
    · exact (interfaceHeritage_thins within).append
        (bodyMembers_thins (interfaceMember_thins within))
    · exact enumMembers_thins
    · exact typeAlias_thins within
    · exact .nil

end Members

/-! ## Declarations -/

namespace Declaring

/-- What is declared depends on the frameworks alone. -/
theorem edits_eq {fewer more : ExtractOptions} (below : fewer.Below more) (program : Program) :
    edits program more = edits program fewer := by
  have declared_eq : declared more = declared fewer := by
    funext source candidate
    simp only [declared, classShape, variableShape?, below.react, below.angular]
  have fileEdits_eq : fileEdits more = fileEdits fewer := by
    funext source
    simp only [fileEdits, declared_eq]
  rw [edits, edits, fileEdits_eq]

theorem edits_thins (within : Within small large) (program : Program) :
    Thins small large (edits program small.options) (edits program large.options) := by
  rw [edits_eq within.below]
  refine .append ?_ (.flatMap fun source _ => .flatMap fun candidate _ => .flatMap fun item _ => ?_)
  · rw [List.map_eq_flatMap]
    exact .flatMap fun source _ => .bind .nil
  · refine .append (.append (.classifier .nil) ?_) (.declare .nil)
    rw [Option.toList_map]
    exact .map_change ..

end Declaring

/-! ## The import graph -/

namespace Modules.ModuleReference

theorem edits_thins (reference : ModuleReference) (resolver : ModuleResolver)
    (source : Syntax.Source) :
    Thins small large (reference.edits resolver source) (reference.edits resolver source) := by
  rw [edits]
  split
  · exact .classifier (.classifier (.relate rfl))
  · exact .ite (fun _ => .find _) fun _ => .nil

end Modules.ModuleReference

end CodeGraph
