import CodeGraph.Draft.Declaring
import CodeGraph.Proofs.Draft.Parts

/-!
# What declaring adds

For each name that a file declares, a classifier is added, its shape may give it a tag, and the
declaration is taken in under the name with the namespaces around it. So what a program declares is
what its candidates declare, one by one.
-/

namespace CodeGraph

open Syntax

namespace Declaring

/-- The name of what a candidate declares, with the namespaces around it. -/
def scopedNameOf (candidate : Candidate) (item : Declared) : String :=
  String.intercalate "." (candidate.scope ++ [item.name])

/-- The declaration of a name in a file. -/
def declarationOf (source : Source) (candidate : Candidate) (item : Declared) : Declaration :=
  { shape := item.shape
    source
    node := item.node
    name := item.name
    scope := candidate.scope
    classifierId :=
      classifierId item.shape.kind (Draft.qualifiedName source.path candidate.scope item.name)
    wrapper := candidate.wrapper
    function := item.function
    decorator := item.decorator }

/-- The classifier that a name in a file is declared as. -/
def classifierOf (source : Source) (exportedNames : List String) (candidate : Candidate)
    (item : Declared) : Classifier :=
  { id := (declarationOf source candidate item).classifierId
    name := item.name
    kind := item.shape.kind
    qualifiedName := some (Draft.qualifiedName source.path candidate.scope item.name)
    packageId := some (packageId (PackageMap.directoryOf source.path))
    visibility :=
      some (if candidate.exported || exportedNames.contains (scopedNameOf candidate item) then
        .everyone
      else
        .samePackage)
    source := some (source.place candidate.wrapper) }

/-- The forms of edits that declare one name. -/
inductive Declares (source : Source) (exportedNames : List String) (candidate : Candidate)
    (item : Declared) : Edit → Prop
  /-- Its classifier is added. -/
  | classifier : Declares source exportedNames candidate item
      (.classifier source.path (classifierOf source exportedNames candidate item))
  /-- Its shape gives the classifier a tag. -/
  | tag {tag : Tag} (given : shapeTag? item.shape = some tag) :
      Declares source exportedNames candidate item
        (.change (declarationOf source candidate item).classifierId (.tag tag.key tag.value))
  /-- The declaration is taken in. -/
  | declare : Declares source exportedNames candidate item
      (.declare (scopedNameOf candidate item) (declarationOf source candidate item))

/-- A name is declared by edits of these forms and no others. -/
theorem mem_declareEdits {source : Source} {exportedNames : List String} {candidate : Candidate}
    {item : Declared} {edit : Edit} :
    edit ∈ declareEdits source exportedNames candidate item ↔
      Declares source exportedNames candidate item edit := by
  have edits_eq : declareEdits source exportedNames candidate item
      = .classifier source.path (classifierOf source exportedNames candidate item)
        :: (((shapeTag? item.shape).map fun tag => Edit.change
            (declarationOf source candidate item).classifierId (.tag tag.key tag.value)).toList
          ++ [.declare (scopedNameOf candidate item) (declarationOf source candidate item)]) := rfl
  rw [edits_eq]
  constructor
  · intro present
    rcases List.mem_cons.mp present with rfl | later
    · exact .classifier
    · rcases List.mem_append.mp later with tagged | last
      · obtain ⟨tag, given, rfl⟩ := Option.map_eq_some_iff.mp (Option.mem_toList.mp tagged)
        exact .tag given
      · exact List.mem_singleton.mp last ▸ .declare
  · intro declares
    cases declares with
    | classifier => exact List.mem_cons_self
    | tag given =>
        refine List.mem_cons_of_mem _ (List.mem_append_left _ (Option.mem_toList.mpr ?_))
        exact Option.map_eq_some_iff.mpr ⟨_, given, rfl⟩
    | declare => exact List.mem_cons_of_mem _ (List.mem_append_right _ List.mem_cons_self)

/-- The edits of a program bind the names of its files and declare what candidates declare. -/
theorem mem_edits {program : Program} {options : ExtractOptions} {edit : Edit} :
    edit ∈ edits program options ↔
      (∃ source ∈ program.files, .bind source.path source.bindings = edit) ∨
        ∃ source ∈ program.sources, ∃ candidate ∈ candidates source,
          ∃ item ∈ declared options source candidate,
            Declares source source.bindings.exports.values candidate item edit := by
  simp only [edits, fileEdits, List.mem_append, List.mem_map, List.mem_flatMap, mem_declareEdits]

theorem declare_mem_edits {program : Program} {options : ExtractOptions} {source : Source}
    {candidate : Candidate} {item : Declared} (listed : source ∈ program.sources)
    (stands : candidate ∈ candidates source) (written : item ∈ declared options source candidate) :
    .declare (scopedNameOf candidate item) (declarationOf source candidate item)
      ∈ edits program options :=
  mem_edits.mpr (.inr ⟨source, listed, candidate, stands, item, written, .declare⟩)

end Declaring

namespace Draft

/-- What a program declares is what its candidates declare. -/
theorem mem_declarations_declareAll {program : Program} {options : ExtractOptions}
    {reporting : Bool} {declaration : Declaration} :
    declaration ∈ (start program options reporting).declareAll.declarations ↔
      ∃ source ∈ program.sources, ∃ candidate ∈ Declaring.candidates source,
        ∃ item ∈ Declaring.declared options source candidate,
          Declaring.declarationOf source candidate item = declaration := by
  rw [declareAll, mem_declarations_applyAll]
  constructor
  · rintro (none | ⟨scopedName, declared⟩)
    · exact absurd none List.not_mem_nil
    · obtain ⟨_, _, bind⟩ | ⟨source, listed, candidate, stands, item, written, declares⟩ :=
        Declaring.mem_edits.mp declared
      · cases bind
      · cases declares
        exact ⟨source, listed, candidate, stands, item, written, rfl⟩
  · rintro ⟨source, listed, candidate, stands, item, written, rfl⟩
    exact .inr ⟨_, Declaring.declare_mem_edits listed stands written⟩

end Draft

end CodeGraph
