import CodeGraph.Proofs.Draft.Comparison

/-!
# Runs with and without relations of frameworks

The option for relations of frameworks adds relations and nothing else: elements, findings and the
relations that are written in types are the same without it. A dependency may come from a framework
as well as from a type, and then it carries further tags.
-/

namespace CodeGraph.Draft

/-- The second draft is the first one with relations that frameworks make. -/
structure FrameworkEdgesAdded (bare full : Draft) : Prop where
  /-- The packages are the same. -/
  packages : full.packages = bare.packages
  /-- The classifiers are the same, with all that they have. -/
  classifiers : full.classifiers = bare.classifiers
  /-- The findings are the same. -/
  findings : full.findings = bare.findings
  /-- A search is given up in both or in none. -/
  givenUp : full.givenUp = bare.givenUp
  /-- Relations that only types make are the same. -/
  written : ∀ kind ∈ [RelationKind.inheritance, .implementation, .association],
    full.edges.filter (·.kind == kind) = bare.edges.filter (·.kind == kind)
  /-- The first draft has no relation that only frameworks make. -/
  none_bare : ∀ relation ∈ bare.edges, relation.kind.isFramework = false
  /-- Each of its relations is in the second draft, perhaps with further tags. -/
  completed : ∀ relation ∈ bare.edges, ∃ other ∈ full.edges, relation.CompletedBy other
  /-- Further relations are made by frameworks alone, or come from what a module or a standalone
  component lists. -/
  added : ∀ relation ∈ full.edges, (∀ other ∈ bare.edges, other.id ≠ relation.id) →
    relation.kind.isFramework = true ∨
      relation.kind = .dependency ∧ ∃ origin ∈ listedOrigins, origin ∈ relation.tags

/-- Two drafts whose options differ in asking for relations of frameworks. -/
theorem within_frameworkEdges (program : Program) (options : ExtractOptions) (reporting : Bool) :
    Within (start program { options with includeFrameworkEdges := false } reporting)
      (start program { options with includeFrameworkEdges := true } reporting) :=
  ⟨⟨rfl, rfl, rfl, rfl, rfl⟩, rfl, rfl, fun _ => rfl, fun asked => asked⟩

/-- The edits of a run without relations of frameworks are those of the run with them, without
these relations. -/
theorem completeEdits_frameworkEdges (program : Program) (options : ExtractOptions)
    (reporting : Bool) :
    Thinning (Edit.Stays { options with includeFrameworkEdges := false }) Edit.IsFrameworkEdge
      (start program { options with includeFrameworkEdges := false } reporting).completeEdits
      (start program { options with includeFrameworkEdges := true } reporting).completeEdits := by
  have within := within_frameworkEdges program options reporting
  have thins := within.runEdits_thins (Pass.scheduled options)
  refine thins.mono (fun _ stays => stays) fun edit goes => ?_
  rcases goes with ⟨_, _, framework⟩ | ⟨off, on, _⟩
  · exact framework
  · exact absurd (off.symm.trans on) Bool.false_ne_true

theorem givesUp_of_isFrameworkEdge {edit : Edit} (framework : edit.IsFrameworkEdge) :
    edit.givesUp = false := by
  cases edit with
  | giveUp => exact framework.elim
  | bind | classifier | change | declare | relate | find => rfl

/-- A relation that goes with those of frameworks is none that only types make. -/
theorem kind_ne_of_isFrameworkEdge {link : Link} {kind : RelationKind}
    (goes : (Edit.relate link).IsFrameworkEdge)
    (written : kind ∈ [RelationKind.inheritance, .implementation, .association]) :
    (link.kind == kind) = false := by
  simp only [List.mem_cons, List.not_mem_nil, or_false] at written
  rcases goes with framework | ⟨dependency, _⟩
  · cases made : link.kind <;> rw [made] at framework <;>
      rcases written with rfl | rfl | rfl <;> first | rfl | contradiction
  · rw [dependency]
    rcases written with rfl | rfl | rfl <;> rfl

/-- Asking for relations of frameworks adds such relations and changes nothing else, as long as
ids do not collide. -/
theorem complete_frameworkEdges (program : Program) (options : ExtractOptions) (reporting : Bool)
    (free : Link.CollisionFree
      (start program { options with includeFrameworkEdges := true } reporting).completeLinks) :
    FrameworkEdgesAdded
      (start program { options with includeFrameworkEdges := false } reporting).complete
      (start program { options with includeFrameworkEdges := true } reporting).complete := by
  let bare := start program { options with includeFrameworkEdges := false } reporting
  let full := start program { options with includeFrameworkEdges := true } reporting
  have alike : Alike bare.complete full.complete :=
    ((within_frameworkEdges program options reporting).runPasses (Pass.scheduled options)).toAlike
  have edits := completeEdits_frameworkEdges program options reporting
  have links : Thinning _ _ bare.completeLinks full.completeLinks := edits.links
  refine ⟨alike.packages, alike.classifiers, ?_, ?_, ?_, ?_, ?_, ?_⟩
  · rw [findings_complete, findings_complete, edits.findings.eq_of_none_go fun _ goes => goes]
  · rw [givenUp_complete, givenUp_complete,
      edits.any_eq fun _ goes => givesUp_of_isFrameworkEdge goes]
  · intro kind written
    rw [edges_complete, edges_complete]
    exact filter_table_eq_of_thinning links free (· == kind) fun link goes =>
      kind_ne_of_isFrameworkEdge goes written
  · intro relation present
    rw [edges_complete] at present
    obtain ⟨link, stays, kind⟩ := exists_link_that_stays links present
    rw [← kind]
    exact Bool.eq_false_iff.mpr fun framework => Bool.false_ne_true (stays framework)
  · intro relation present
    rw [edges_complete] at present ⊢
    exact exists_completedBy links free present
  · intro relation present new
    rw [edges_complete] at present new
    obtain ⟨link, goes, kind, tags⟩ := exists_link_that_goes links present new
    rw [← kind]
    exact goes.imp_right fun ⟨dependency, origin, listed, tagged⟩ =>
      ⟨dependency, origin, listed, tags tagged⟩

/-- A file in which the module `Page` imports the service `Items` and has it injected. -/
def pageFile : Syntax.Source :=
  { path := "page.ts"
    bytes := ("@Injectable class Items \x7b\x7d @NgModule(\x7bimports: [Items]\x7d) class Page "
      ++ "\x7b items: Items = inject(Items) \x7d").toUTF8
    root :=
      ⟨none, "program", true, 0, 100,
        [⟨none, "class_declaration", true, 0, 26,
            [⟨none, "decorator", true, 0, 11, [⟨none, "identifier", true, 1, 11, []⟩]⟩,
              ⟨some "name", "type_identifier", true, 18, 23, []⟩,
              ⟨some "body", "class_body", true, 24, 26, []⟩]⟩,
          ⟨none, "class_declaration", true, 27, 100,
            [⟨none, "decorator", true, 27, 56,
                [⟨none, "call_expression", true, 28, 56,
                    [⟨some "function", "identifier", true, 28, 36, []⟩,
                      ⟨some "arguments", "arguments", true, 36, 56,
                        [⟨none, "object", true, 37, 55,
                            [⟨none, "pair", true, 38, 54,
                                [⟨some "key", "property_identifier", true, 38, 45, []⟩,
                                  ⟨some "value", "array", true, 47, 54,
                                    [⟨none, "identifier", true, 48, 53, []⟩]⟩]⟩]⟩]⟩]⟩]⟩,
              ⟨some "name", "type_identifier", true, 63, 67, []⟩,
              ⟨some "body", "class_body", true, 68, 100,
                [⟨none, "public_field_definition", true, 70, 98,
                    [⟨some "name", "property_identifier", true, 70, 75, []⟩,
                      ⟨some "type", "type_annotation", true, 75, 82,
                        [⟨none, "type_identifier", true, 77, 82, []⟩]⟩,
                      ⟨some "value", "call_expression", true, 85, 98,
                        [⟨some "function", "identifier", true, 85, 91, []⟩,
                          ⟨some "arguments", "arguments", true, 91, 98,
                            [⟨none, "identifier", true, 92, 97, []⟩]⟩]⟩]⟩]⟩]⟩]⟩ }

/-- The program of this file alone. -/
def pageProgram : Program :=
  { tree := { top := .directory [] }
    root := .absolute ["project"]
    files := [pageFile] }

/-- The type of the field makes a dependency, which the import completes, and the injection is a
relation of its own. -/
theorem pageProgram_frameworkEdges :
    let options : ExtractOptions := { angular := true, includeDeps := true }
    let bare := (start pageProgram { options with includeFrameworkEdges := false } true).complete
    let full := (start pageProgram { options with includeFrameworkEdges := true } true).complete
    bare.edges.map (fun relation => (relation.kind, relation.tags))
        = [(.association, [⟨"member", "items"⟩]), (.dependency, [⟨"origin", "typeRef"⟩])] ∧
      full.edges.map (fun relation => (relation.kind, relation.tags))
        = [(.association, [⟨"member", "items"⟩]),
          (.dependency, [⟨"origin", "typeRef"⟩, ⟨"origin", "ngmodule"⟩, ⟨"role", "imports"⟩]),
          (.injection, [⟨"origin", "injectFn"⟩])] ∧
      FrameworkEdgesAdded bare full := by
  -- All that is evaluated is one statement, so that no digest is worked out again.
  refine and_assoc.mp (.imp_right
    (complete_frameworkEdges pageProgram { angular := true, includeDeps := true } true) ?_)
  decide +kernel

end CodeGraph.Draft
