import CodeGraph.Proofs.Draft.Comparison
import CodeGraph.Proofs.Draft.DeclarationEdits
import CodeGraph.Proofs.Draft.Declaring
import CodeGraph.Proofs.Draft.MergeOrder
import CodeGraph.Proofs.Draft.Thinning

/-!
# The order of declarations does not matter

What is read from a declaration follows from the names that are declared, not from what has been
read from others. So declarations in another order add the same links in another order, and these
make the same relations: the members of declarations that share a classifier may come in turn, and
a link that several members, types or supertypes make is written where it stands first.
-/

namespace CodeGraph

open Edit

namespace Edit

/-- A link that is made for a declaration has no name, and its place counts from one. -/
theorem MadeFor.plain_link {reader : Draft} {links : RelationKind → List Tag → Prop}
    {declaration : Declaration} {link : Link}
    (made : MadeFor reader links declaration (.relate link)) :
    link.name = none ∧ ∀ place ∈ link.source, place.CountsFromOne := by
  cases made with
  | link =>
      refine ⟨rfl, ?_⟩
      rintro place ⟨⟩
      exact SourceRef.countsFromOne_place ..

end Edit

namespace Declaring

/-- Declaring classifiers adds no links. -/
theorem link?_of_mem_edits {program : Program} {options : ExtractOptions} {edit : Edit}
    (present : edit ∈ edits program options) : edit.link? = none := by
  obtain ⟨_, _, rfl⟩ | ⟨_, _, _, _, _, _, declares⟩ := mem_edits.mp present
  · rfl
  · cases declares <;> rfl

end Declaring

namespace Draft

/-- The links that reading the members of all declarations adds. -/
def memberLinks (draft : Draft) : List Link :=
  (draft.declarations.flatMap (Members.declarationEdits draft)).filterMap Edit.link?

variable {draft : Draft}

theorem relations_declareAll (program : Program) (options : ExtractOptions) (reporting : Bool) :
    (start program options reporting).declareAll.relations = [] := by
  have none_added : (Declaring.edits program options).filterMap Edit.link? = [] :=
    List.filterMap_eq_nil_iff.mpr fun _ => Declaring.link?_of_mem_edits
  rw [declareAll, relations_applyAll]
  exact congrArg (List.foldl Link.addTo []) none_added

/-- A draft without relations gets those of its members' links. -/
theorem relations_addMembers (empty : draft.relations = []) :
    draft.addMembers.relations = Link.table draft.memberLinks := by
  rw [addMembers, relations_applyAll, empty]
  rfl

/-- The links of members have no names, and their places count from one. -/
theorem plain_of_mem_memberLinks {link : Link} (present : link ∈ draft.memberLinks) :
    link.name = none ∧ ∀ place ∈ link.source, place.CountsFromOne := by
  obtain ⟨edit, edit_mem, added⟩ := List.mem_filterMap.mp present
  obtain rfl := Edit.eq_relate_of_link? added
  obtain ⟨declaration, _, one⟩ := List.mem_flatMap.mp edit_mem
  exact ((Members.declarationEdits_madeFor draft declaration).of_mem _ one).plain_link

/-- Where ids do not collide, the links of members with one id differ in tags and places alone. -/
theorem agree_memberLinks (free : Link.CollisionFree draft.memberLinks) :
    Link.Agree draft.memberLinks := by
  intro first first_mem second second_mem same
  obtain ⟨kinds, sources, targets⟩ := free first first_mem second second_mem same
  have first_name := (plain_of_mem_memberLinks first_mem).1
  have second_name := (plain_of_mem_memberLinks second_mem).1
  exact ⟨kinds, sources, targets, first_name.trans second_name.symm⟩

section

variable {declarations : List Declaration} (perm : declarations.Perm draft.declarations)
include perm

/-- What is read from a declaration does not depend on where it stands among the others. -/
theorem memberEdits_perm :
    (declarations.flatMap (Members.declarationEdits { draft with declarations })).Perm
      (draft.declarations.flatMap (Members.declarationEdits draft)) :=
  perm.flatMap_right (Members.declarationEdits draft)

theorem memberLinks_perm : { draft with declarations }.memberLinks.Perm draft.memberLinks :=
  (memberEdits_perm perm).filterMap Edit.link?

theorem givenUp_addMembers_of_perm :
    { draft with declarations }.addMembers.givenUp = draft.addMembers.givenUp := by
  rw [addMembers, addMembers, givenUp_applyAll, givenUp_applyAll]
  exact congrArg (draft.givenUp || ·) ((memberEdits_perm perm).any_eq)

end

/-- The relations of a program's members do not depend on the order of its declarations, and a
search is given up in any order or in none. -/
theorem addMembers_ignores_order (program : Program) (options : ExtractOptions) (reporting : Bool)
    (free : Link.CollisionFree (start program options reporting).declareAll.memberLinks)
    (declarations : List Declaration)
    (perm : declarations.Perm (start program options reporting).declareAll.declarations) :
    let declared := (start program options reporting).declareAll
    let shuffled := { declared with declarations }
    shuffled.addMembers.toModel.canonical.relations
        = declared.addMembers.toModel.canonical.relations ∧
      shuffled.addMembers.givenUp = declared.addMembers.givenUp := by
  intro declared shuffled
  have empty : declared.relations = [] := relations_declareAll program options reporting
  have shuffled_empty : shuffled.relations = [] := empty
  refine ⟨?_, givenUp_addMembers_of_perm perm⟩
  have sorted := Link.canonical_table_eq_of_perm (agree_memberLinks free)
    (fun link present => (plain_of_mem_memberLinks present).2) (memberLinks_perm perm).symm
  rw [← relations_addMembers empty, ← relations_addMembers shuffled_empty] at sorted
  exact sorted.symm

/-- A file with a class `Item` and a class `Box` whose fields are items. -/
def boxFile (path : String) : Syntax.Source :=
  { path
    bytes := "class Item \x7b\x7d class Box \x7b one: Item; two: Item[] \x7d".toUTF8
    root :=
      ⟨none, "program", true, 0, 50,
        [⟨none, "class_declaration", true, 0, 13,
            [⟨some "name", "type_identifier", true, 6, 10, []⟩,
              ⟨some "body", "class_body", true, 11, 13, []⟩]⟩,
          ⟨none, "class_declaration", true, 14, 50,
            [⟨some "name", "type_identifier", true, 20, 23, []⟩,
              ⟨some "body", "class_body", true, 24, 50,
                [⟨none, "public_field_definition", true, 26, 35,
                    [⟨some "name", "property_identifier", true, 26, 29, []⟩,
                      ⟨some "type", "type_annotation", true, 29, 35,
                        [⟨none, "type_identifier", true, 31, 35, []⟩]⟩]⟩,
                  ⟨none, "public_field_definition", true, 37, 48,
                    [⟨some "name", "property_identifier", true, 37, 40, []⟩,
                      ⟨some "type", "type_annotation", true, 40, 48,
                        [⟨none, "array_type", true, 42, 48,
                            [⟨none, "type_identifier", true, 42, 46, []⟩]⟩]⟩]⟩]⟩]⟩]⟩ }

/-- A program with two such files, whose declarations share their classifiers. -/
def boxProgram : Program :=
  { tree := { top := .directory [] }
    root := .absolute ["project"]
    files := [boxFile "a.ts", boxFile "a.tsx"] }

/-- Read backwards, the declarations of both files make the same relations, with the tags of both
fields and the place of the first. -/
theorem boxProgram_ignores_order :
    let declared := (start boxProgram { includeDeps := true } true).declareAll
    let shuffled := { declared with declarations := declared.declarations.reverse }
    (declared.declarations.map (·.file), shuffled.declarations.map (·.file))
        = (["a.ts", "a.ts", "a.tsx", "a.tsx"], ["a.tsx", "a.tsx", "a.ts", "a.ts"]) ∧
      shuffled.addMembers.edges.map
          (fun relation => (relation.kind, relation.tags, relation.source))
        = [(.association, [⟨"member", "one"⟩, ⟨"member", "two"⟩],
              some { file := "a.ts", line := some 1, col := some 32 }),
          (.dependency, [⟨"origin", "typeRef"⟩],
              some { file := "a.ts", line := some 1, col := some 32 })] ∧
      shuffled.addMembers.toModel.canonical.relations
        = declared.addMembers.toModel.canonical.relations := by
  intro declared shuffled
  have facts : (declared.declarations.map (·.file), shuffled.declarations.map (·.file))
        = (["a.ts", "a.ts", "a.tsx", "a.tsx"], ["a.tsx", "a.tsx", "a.ts", "a.ts"]) ∧
      shuffled.addMembers.edges.map
          (fun relation => (relation.kind, relation.tags, relation.source))
        = [(.association, [⟨"member", "one"⟩, ⟨"member", "two"⟩],
              some { file := "a.ts", line := some 1, col := some 32 }),
          (.dependency, [⟨"origin", "typeRef"⟩],
              some { file := "a.ts", line := some 1, col := some 32 })] ∧
      Link.CollisionFree declared.memberLinks := by decide +kernel
  obtain ⟨files_eq, edges_eq, free⟩ := facts
  exact ⟨files_eq, edges_eq, (addMembers_ignores_order boxProgram { includeDeps := true } true free
    _ (List.reverse_perm _)).1⟩

end Draft

end CodeGraph
