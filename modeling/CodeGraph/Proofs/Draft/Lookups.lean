import CodeGraph.Proofs.Draft.Sparing
import Mathlib.Data.List.Forall2

/-!
# What becomes of the names in the wiring

The wiring of a decorated class looks up the types of constructor parameters, what calls inject,
what is provided or listed, and the types of emitted events. Each lookup is settled in one of three
ways: the name means something, or it comes from outside of the project, or one finding tells that
it is missing. No other findings are made of the wiring, so those of all decorated classes are the
findings of their lookups, in order.
-/

namespace CodeGraph

open Syntax Edit

namespace Angular

/-! ## Lookups -/

/-- Where the wiring of a class comes upon a name. -/
inductive Spot where
  /-- The type of a constructor parameter without a token. -/
  | parameter
  /-- The argument of a call that injects. -/
  | call
  /-- An entry of the providers. -/
  | provider
  /-- An entry of another list of classes. -/
  | listed
  /-- The type of an output's events. -/
  | payload

/-- The kind of the finding about a missing name. -/
def Spot.complaint : Spot → FindingKind
  | .parameter | .call => .unresolvedInjection
  | .provider | .listed => .unresolvedDecoratorRef
  | .payload => .unresolvedType

/-- A name that the wiring of a class looks up. -/
structure Lookup where
  /-- The class. -/
  owner : Declaration
  /-- Where the wiring comes upon the name. -/
  spot : Spot
  /-- The name. -/
  name : String
  /-- The node that a finding points to. -/
  node : Node

namespace Lookup

/-- The finding tells that the name is missing. -/
structure Blames (lookup : Lookup) (finding : Finding) : Prop where
  kind_eq : finding.kind = lookup.spot.complaint
  place_eq : finding.place = some
    { file := lookup.owner.file, line := some (lookup.owner.source.lineOf lookup.node) }
  subject_eq : finding.subject? = some lookup.name

/-- What is told of a name that is looked up. -/
inductive Settled (symbols : SymbolTable) (lookup : Lookup) : List Finding → Prop
  /-- It means something. -/
  | resolved (meant : symbols.Resolves lookup.owner.file lookup.name lookup.owner.scope) :
      Settled symbols lookup []
  /-- It means nothing and comes from outside of the project. -/
  | outside (lacks : symbols.Lacks lookup.owner.file lookup.name lookup.owner.scope)
      (external : symbols.isExternal lookup.owner.file lookup.name = true) :
      Settled symbols lookup []
  /-- It means nothing and does not come from outside. -/
  | missing {finding : Finding}
      (lacks : symbols.Lacks lookup.owner.file lookup.name lookup.owner.scope)
      (inside : symbols.isExternal lookup.owner.file lookup.name = false)
      (blames : lookup.Blames finding) : Settled symbols lookup [finding]

end Lookup

/-! ## The lookups of a class -/

section

variable (owner : Declaration)

/-- The lookup of a constructor parameter: one with a token is never missed. -/
def parameterLookups (parameter : Members.WrittenParameter) : List Lookup :=
  if (injectToken? owner.source parameter.node).isSome then []
  else
    ((injectedType? owner.source parameter.type).filter (!·.isEmpty)).toList.map fun name =>
      ⟨owner, .parameter, name, parameter.node⟩

/-- The constructor of a class. -/
def constructor? : Option Node :=
  (body? owner).bind fun body =>
    body.namedChildren.find? fun member =>
      member.kind == "method_definition"
        && owner.source.textOf (member.childIn? "name") == "constructor"

/-- The lookups of what the constructor is injected with. -/
def constructorLookups : List Lookup :=
  (constructor? owner).toList.flatMap fun constructor =>
    (Members.parameters owner.source constructor).flatMap (parameterLookups owner)

/-- The lookup of a call that injects. -/
def callLookups (node : Node) : List Lookup :=
  if node.kind == "call_expression"
      && owner.source.textOf (node.childIn? "function") == "inject" then
    (((firstArgument? node).bind (reference? owner.source)).filter (!·.isEmpty)).toList.map
      fun name => ⟨owner, .call, name, node⟩
  else
    []

/-- The lookups of what the class injects by calls. -/
def injectLookups : List Lookup :=
  (body? owner).toList.flatMap fun body => body.preorder.flatMap (callLookups owner)

/-- The lookups of the types that an output emits, where dependencies are asked for. -/
def payloadLookups (options : ExtractOptions) (member : Node) : List Lookup :=
  if options.includeDeps then
    (eventPayload? owner.source member).toList.flatMap fun payload =>
      (TypeReading.names owner.source true payload).map fun typeName =>
        ⟨owner, .payload, typeName.1, member⟩
  else
    []

/-- The lookups of all outputs. -/
def outputLookups (options : ExtractOptions) : List Lookup :=
  (body? owner).toList.flatMap fun body =>
    (decoratedMembers [] body.namedChildren).flatMap fun (member, decorators) =>
      if (owner.source.textOf (member.childIn? "name")).isEmpty then []
      else
        decorators.flatMap fun decorator =>
          if (decoratorParts owner.source decorator).1 == "Output" then
            payloadLookups owner options member
          else
            []

/-- The lookups of what a class provides. -/
def providerLookups (details : Node) : List Lookup :=
  (entriesOf owner.source details "providers").flatMap fun entry =>
    ((providerTarget? owner.source entry).filter (!·.1.isEmpty)).toList.map fun target =>
      ⟨owner, .provider, target.1, entry⟩

/-- The lookups of a list of classes. -/
def listedLookups (details : Node) (role : String) : List Lookup :=
  (entriesOf owner.source details role).flatMap fun entry =>
    ((reference? owner.source entry).filter (!·.isEmpty)).toList.map fun name =>
      ⟨owner, .listed, name, entry⟩

end

/-- The lists of classes that the details of a decorator are read for. -/
def listedRoles (draft : Draft) (owner : Declaration) (part : Part) : List String :=
  if part == .ngModule then moduleRoles
  else if part == .component
      && (draft.classifier? owner.classifierId).any
        (·.tag? "angular.standalone" == some "true") then ["imports"]
  else []

/-- The lookups of the wiring of a class. -/
def wiringLookups (draft : Draft) (owner : Declaration) (part : Part) (details : Option Node) :
    List Lookup :=
  constructorLookups owner ++ injectLookups owner
    ++ (if part.hasBindings then outputLookups owner draft.options else [])
    ++ details.toList.flatMap fun details =>
        (if part.hasProviders then providerLookups owner details else [])
          ++ (listedRoles draft owner part).flatMap (listedLookups owner details)

end Angular

namespace Draft

/-- The lookups of a class, if it is decorated. -/
def decoratedLookups (draft : Draft) (declaration : Declaration) : List Angular.Lookup :=
  match declaration.decorator with
  | none => []
  | some decorator =>
      match Angular.partOf? declaration.source decorator with
      | none => []
      | some part =>
          let details := Angular.metadata? declaration.source decorator
          let described := draft.applyAll (Angular.descriptionEdits declaration part details)
          Angular.wiringLookups described declaration part details

/-- The lookups of classes that are described and wired one after the other. -/
def angularLookups (draft : Draft) : List Declaration → List Angular.Lookup
  | [] => []
  | declaration :: declarations =>
      draft.decoratedLookups declaration
        ++ angularLookups (draft.addDecorated declaration) declarations

end Draft

/-! ## Edits that settle lookups -/

namespace Angular

/-- Unless a search is given up, the findings of the edits are those of the lookups, in order. -/
def Settles (symbols : SymbolTable) (lookups : List Lookup) (edits : List Edit) : Prop :=
  edits.any Edit.givesUp = false →
    ∃ told : List (List Finding), edits.filterMap Edit.finding? = told.flatten ∧
      List.Forall₂ (Lookup.Settled symbols) lookups told

variable {symbols : SymbolTable} {lookups more : List Lookup} {edits further : List Edit}

theorem settles_of_quiet (quiet : edits.filterMap Edit.finding? = []) :
    Settles symbols [] edits :=
  fun _ => ⟨[], quiet, .nil⟩

theorem Settles.cons_quiet {edit : Edit} (quiet : edit.finding? = none)
    (rest : Settles symbols lookups edits) : Settles symbols lookups (edit :: edits) := by
  intro ends
  rw [List.any_cons, Bool.or_eq_false_iff] at ends
  rw [List.filterMap_cons_none quiet]
  exact rest ends.2

theorem Settles.append (left : Settles symbols lookups edits)
    (right : Settles symbols more further) :
    Settles symbols (lookups ++ more) (edits ++ further) := by
  intro ends
  rw [List.any_append, Bool.or_eq_false_iff] at ends
  obtain ⟨told, told_eq, settled⟩ := left ends.1
  obtain ⟨later, later_eq, settled'⟩ := right ends.2
  refine ⟨told ++ later, ?_, List.rel_append settled settled'⟩
  rw [List.filterMap_append, told_eq, later_eq, List.flatten_append]

theorem Settles.flatMap {α : Type} {items : List α} {lookups : α → List Lookup}
    {edits : α → List Edit} (each : ∀ item ∈ items, Settles symbols (lookups item) (edits item)) :
    Settles symbols (items.flatMap lookups) (items.flatMap edits) := by
  induction items with
  | nil => exact settles_of_quiet rfl
  | cons item items ih =>
      obtain ⟨here, rest⟩ := List.forall_mem_cons.mp each
      rw [List.flatMap_cons, List.flatMap_cons]
      exact here.append (ih rest)

/-- What is left out is not looked up. -/
theorem Settles.ite (settles : Settles symbols lookups edits) (condition : Bool) :
    Settles symbols (if condition then lookups else []) (if condition then edits else []) := by
  cases condition with
  | true => exact settles
  | false => exact settles_of_quiet rfl

variable {draft : Draft} {lookup : Lookup}

/-- The edits of a name settle its lookup if they tell nothing of a name with a meaning. -/
theorem Settles.ofMeaning (lookup : Lookup) {edits : Option Symbol → List Edit}
    (quiet : ∀ symbol, (edits (some symbol)).filterMap Edit.finding? = [])
    (missing : draft.symbols.Lacks lookup.owner.file lookup.name lookup.owner.scope →
      Settles draft.symbols [lookup] (edits none)) :
    Settles draft.symbols [lookup] (draft.withMeaningAt lookup.owner lookup.name edits) := by
  rw [Draft.withMeaningAt, Draft.withMeaning]
  cases found : draft.symbols.resolve lookup.owner.file lookup.name lookup.owner.scope with
  | found symbol => exact fun _ => ⟨[[]], quiet symbol, .cons (.resolved ⟨symbol, found⟩) .nil⟩
  | absent asked => exact missing ⟨asked, found⟩
  | exhausted => exact fun ends => absurd ends (by simp [Edit.givesUp])

theorem complain_settles {complaint : Complaint}
    (kind_eq : complaint.kind = lookup.spot.complaint)
    (subject : (("owner", draft.nameOf lookup.owner.classifierId) :: complaint.facts).lookup
      complaint.kind.subjectKey = some lookup.name)
    (lacks : draft.symbols.Lacks lookup.owner.file lookup.name lookup.owner.scope) :
    Settles draft.symbols [lookup]
      (complain draft lookup.owner lookup.name lookup.node complaint) := by
  rw [complain]
  split
  next external => exact fun _ => ⟨[[]], rfl, .cons (.outside lacks external) .nil⟩
  next inside =>
    exact fun _ => ⟨[[_]], rfl,
      .cons (.missing lacks (by simpa using inside) ⟨kind_eq, rfl, subject⟩) .nil⟩

theorem wire_settles (lookup : Lookup) {kind : RelationKind} {tags : List Tag}
    {complaint : Complaint}
    (kind_eq : complaint.kind = lookup.spot.complaint)
    (subject : (("owner", draft.nameOf lookup.owner.classifierId) :: complaint.facts).lookup
      complaint.kind.subjectKey = some lookup.name) :
    Settles draft.symbols [lookup]
      (wire draft lookup.owner kind lookup.name lookup.node tags
        (complain draft lookup.owner lookup.name lookup.node complaint)) := by
  refine .ofMeaning lookup (fun symbol => ?_) (complain_settles kind_eq subject)
  simp only
  split <;> rfl

/-! ## The edits of a class -/

/-- Nothing is told of a name that nothing is to be told of. -/
theorem findings_wire_nil (draft : Draft) (owner : Declaration) (kind : RelationKind)
    (name : String) (node : Node) (tags : List Tag) :
    (wire draft owner kind name node tags []).filterMap Edit.finding? = [] := by
  rw [wire, Draft.withMeaningAt, Draft.withMeaning]
  cases draft.symbols.resolve owner.file name owner.scope with
  | found symbol =>
      simp only
      split <;> rfl
  | absent | exhausted => rfl

theorem parameterEdits_settle (owner : Declaration) (parameter : Members.WrittenParameter) :
    Settles draft.symbols (parameterLookups owner parameter)
      (parameterEdits draft owner parameter) := by
  rw [parameterLookups, parameterEdits]
  cases injectToken? owner.source parameter.node with
  | some token =>
      refine settles_of_quiet ?_
      simp only [Option.isSome_some, if_true]
      split
      · rfl
      · exact findings_wire_nil ..
  | none =>
      cases injectedType? owner.source parameter.type with
      | none => exact settles_of_quiet rfl
      | some name =>
          have alone : (none <|> some name) = some name := rfl
          simp only [Option.filter_some, alone, Option.getD_some]
          cases name.isEmpty with
          | true => exact settles_of_quiet rfl
          | false => exact wire_settles ⟨owner, .parameter, name, parameter.node⟩ rfl rfl

theorem constructorEdits_settle (draft : Draft) (owner : Declaration) :
    Settles draft.symbols (constructorLookups owner) (constructorEdits draft owner) := by
  have edits_eq : constructorEdits draft owner
      = (constructor? owner).toList.flatMap fun constructor =>
        (Members.parameters owner.source constructor).flatMap (parameterEdits draft owner) := by
    rw [constructorEdits, constructor?]
    cases (body? owner).bind _ <;> simp
  rw [edits_eq]
  exact .flatMap fun _ _ => .flatMap fun parameter _ => parameterEdits_settle owner parameter

theorem injectCall_settles (owner : Declaration) (node : Node) :
    Settles draft.symbols (callLookups owner node) (injectCall draft owner node) := by
  rw [callLookups, injectCall]
  split
  · cases (firstArgument? node).bind (reference? owner.source) with
    | none => exact settles_of_quiet rfl
    | some name =>
        simp only [Option.filter_some, Option.getD_some]
        cases name.isEmpty with
        | true => exact settles_of_quiet rfl
        | false => exact wire_settles ⟨owner, .call, name, node⟩ rfl rfl
  · exact settles_of_quiet rfl

theorem injectEdits_settle (draft : Draft) (owner : Declaration) :
    Settles draft.symbols (injectLookups owner) (injectEdits draft owner) := by
  have edits_eq : injectEdits draft owner
      = (body? owner).toList.flatMap fun body =>
        body.preorder.flatMap (injectCall draft owner) := by
    rw [injectEdits]
    cases body? owner <;> simp
  rw [edits_eq]
  exact .flatMap fun _ _ => .flatMap fun node _ => injectCall_settles owner node

theorem payloadEdits_settle (owner : Declaration) (member : Node) (name typeName : String) :
    Settles draft.symbols [⟨owner, .payload, typeName, member⟩]
      (payloadEdits draft owner member name typeName) :=
  .ofMeaning ⟨owner, .payload, typeName, member⟩ (fun _ => rfl) (complain_settles rfl rfl)

theorem bindingEdits_settle (owner : Declaration) (member : Node) (name role : String)
    (call : Option Node) :
    Settles draft.symbols
      (if role == "output" then payloadLookups owner draft.options member else [])
      (bindingEdits draft owner member name role call) := by
  refine .cons_quiet rfl ?_
  cases role == "output" with
  | false => exact settles_of_quiet rfl
  | true =>
      simp only [if_true, payloadLookups]
      cases eventPayload? owner.source member with
      | none => cases draft.options.includeDeps <;> exact settles_of_quiet rfl
      | some payload =>
          cases draft.options.includeDeps with
          | false => exact settles_of_quiet rfl
          | true =>
              simp only [if_true, Option.toList_some, List.flatMap_singleton, List.map_eq_flatMap]
              exact .flatMap fun typeName _ => payloadEdits_settle owner member name typeName.1

theorem inputOutputEdits_settle (draft : Draft) (owner : Declaration) :
    Settles draft.symbols (outputLookups owner draft.options) (inputOutputEdits draft owner) := by
  rw [outputLookups, inputOutputEdits]
  cases body? owner with
  | none => exact settles_of_quiet rfl
  | some body =>
      simp only [Option.toList_some, List.flatMap_singleton]
      refine .flatMap fun member _ => ?_
      split
      · exact settles_of_quiet rfl
      · refine .flatMap fun decorator _ => ?_
        generalize (decoratorParts owner.source decorator).1 = label
        rw [bindingRole?]
        by_cases input : label = "Input"
        · simpa [input] using bindingEdits_settle owner member.1 _ "input" _
        · by_cases output : label = "Output"
          · simpa [output] using bindingEdits_settle owner member.1 _ "output" _
          · simpa [input, output] using settles_of_quiet rfl

theorem providerEdits_settle (owner : Declaration) (part : Part) (details : Node) :
    Settles draft.symbols (providerLookups owner details)
      (providerEdits draft owner part details) := by
  refine .flatMap fun entry _ => ?_
  cases (providerTarget? owner.source entry).filter (!·.1.isEmpty) with
  | none => exact settles_of_quiet rfl
  | some target =>
      exact wire_settles ⟨owner, .provider, target.1, entry⟩ rfl rfl

theorem referenceEdits_settle (owner : Declaration) (part : Part) (details : Node)
    (origin role : String) :
    Settles draft.symbols (listedLookups owner details role)
      (referenceEdits draft owner part details origin role) := by
  refine .flatMap fun entry _ => ?_
  cases (reference? owner.source entry).filter (!·.isEmpty) with
  | none => exact settles_of_quiet rfl
  | some name => exact wire_settles ⟨owner, .listed, name, entry⟩ rfl rfl

theorem listedEdits_settle (draft : Draft) (owner : Declaration) (part : Part) (details : Node) :
    Settles draft.symbols ((listedRoles draft owner part).flatMap (listedLookups owner details))
      (if part == .ngModule then
        moduleRoles.flatMap (referenceEdits draft owner part details "ngmodule")
      else if part == .component
          && (draft.classifier? owner.classifierId).any
            (·.tag? "angular.standalone" == some "true") then
        referenceEdits draft owner part details "standalone" "imports"
      else []) := by
  rw [listedRoles]
  split
  · exact .flatMap fun role _ => referenceEdits_settle owner part details "ngmodule" role
  · split
    · simpa using referenceEdits_settle owner part details "standalone" "imports"
    · exact settles_of_quiet rfl

theorem wiringEdits_settle (draft : Draft) (owner : Declaration) (part : Part)
    (details : Option Node) :
    Settles draft.symbols (wiringLookups draft owner part details)
      (wiringEdits draft owner part details) := by
  refine .append (.append (.append (constructorEdits_settle draft owner)
    (injectEdits_settle draft owner)) ((inputOutputEdits_settle draft owner).ite _)) ?_
  cases details with
  | none => exact settles_of_quiet rfl
  | some details =>
      simp only [Option.toList_some, List.flatMap_singleton]
      exact ((providerEdits_settle owner part details).ite _).append
        (listedEdits_settle draft owner part details)

theorem findings_descriptionEdits (declaration : Declaration) (part : Part)
    (details : Option Node) :
    (descriptionEdits declaration part details).filterMap Edit.finding? = [] := by
  rw [descriptionEdits, List.filterMap_cons_none rfl, List.filterMap_map]
  exact List.filterMap_eq_nil_iff.mpr fun _ _ => rfl

end Angular

namespace Draft

theorem decoratedEdits_settle (draft : Draft) (declaration : Declaration) :
    Angular.Settles draft.symbols (draft.decoratedLookups declaration)
      (draft.decoratedEdits declaration) := by
  rw [decoratedLookups, decoratedEdits]
  cases declaration.decorator with
  | none => exact Angular.settles_of_quiet rfl
  | some decorator =>
      simp only
      cases Angular.partOf? declaration.source decorator with
      | none => exact Angular.settles_of_quiet rfl
      | some part =>
          let details := Angular.metadata? declaration.source decorator
          let description := Angular.descriptionEdits declaration part details
          let described := draft.applyAll description
          -- The description tells nothing and leaves the meaning of names as it is.
          have same : described.symbols = draft.symbols :=
            ((Angular.descriptionEdits_madeFor draft declaration part
              details).sameNames_applyAll draft).symbols
          have wiring := Angular.wiringEdits_settle described declaration part details
          rw [same] at wiring
          exact (Angular.settles_of_quiet
            (Angular.findings_descriptionEdits declaration part details)).append wiring

theorem angularEdits_settle (draft : Draft) (declarations : List Declaration) :
    Angular.Settles draft.symbols (draft.angularLookups declarations)
      (draft.angularEdits declarations) := by
  induction declarations generalizing draft with
  | nil => exact Angular.settles_of_quiet rfl
  | cons declaration declarations ih =>
      have further := ih (draft.addDecorated declaration)
      rw [(sameNames_addDecorated draft declaration).symbols] at further
      exact (decoratedEdits_settle draft declaration).append further

/-- Where findings are taken and no search is given up, the findings of the wiring are those of its
lookups in order, each of which is settled in one of three ways. And if any pass, that of the import
graph apart, tells of a name that means nothing in the scope in which it is looked up, then the name
does not come from outside of the project. That is the scope of the declaration that the finding
names as its owner, or no namespace for what routes lead to. -/
theorem addAngular_settles_lookups (draft : Draft) :
    (draft.reporting = true → draft.addAngular.givenUp = false →
      ∃ told : List (List Finding), draft.addAngular.findings = draft.findings ++ told.flatten ∧
        List.Forall₂ (Angular.Lookup.Settled draft.symbols)
          (draft.angularLookups draft.declarations) told) ∧
    ∀ pass : Pass, pass ≠ .imports →
      ∃ told : List Finding, (pass.run draft).findings = draft.findings ++ told ∧
        ∀ finding ∈ told, ∃ file scope,
          draft.Asks pass finding file scope ∧ finding.Fair draft.symbols file scope := by
  constructor
  · intro reporting ends
    rw [addAngular, foldl_addDecorated] at ends ⊢
    rw [givenUp_applyAll, Bool.or_eq_false_iff] at ends
    obtain ⟨told, told_eq, settled⟩ := angularEdits_settle draft draft.declarations ends.2
    refine ⟨told, ?_, settled⟩
    rw [findings_applyAll, if_pos reporting, told_eq]
  · intro pass other
    have spare := edits_spare draft other
    refine ⟨if draft.reporting then (pass.edits draft).filterMap Edit.finding? else [], ?_, ?_⟩
    · rw [Pass.run_eq, findings_applyAll]
    · intro finding present
      split at present
      · obtain ⟨edit, edit_mem, tells⟩ := List.mem_filterMap.mp present
        obtain rfl := Edit.eq_find_of_finding? tells
        exact spare.of_mem _ edit_mem
      · exact absurd present List.not_mem_nil

/-- A file in which the module `Page` imports a class, a name from a library and a name that is
nowhere. -/
def listingFile : Source :=
  { path := "page.ts"
    bytes := ("import \x7b Lib \x7d from 'lib'; class Items \x7b\x7d "
      ++ "@NgModule(\x7bimports: [Items, Lib, Gone]\x7d) class Page \x7b\x7d").toUTF8
    root :=
      ⟨none, "program", true, 0, 96,
        [⟨none, "import_statement", true, 0, 26,
            [⟨none, "import_clause", true, 7, 14,
                [⟨none, "named_imports", true, 7, 14,
                    [⟨none, "import_specifier", true, 9, 12,
                        [⟨some "name", "identifier", true, 9, 12, []⟩]⟩]⟩]⟩,
              ⟨some "source", "string", true, 20, 25, []⟩]⟩,
          ⟨none, "class_declaration", true, 27, 41,
            [⟨some "name", "type_identifier", true, 33, 38, []⟩,
              ⟨some "body", "class_body", true, 39, 41, []⟩]⟩,
          ⟨none, "class_declaration", true, 42, 96,
            [⟨none, "decorator", true, 42, 82,
                [⟨none, "call_expression", true, 43, 82,
                    [⟨some "function", "identifier", true, 43, 51, []⟩,
                      ⟨some "arguments", "arguments", true, 51, 82,
                        [⟨none, "object", true, 52, 81,
                            [⟨none, "pair", true, 53, 80,
                                [⟨some "key", "property_identifier", true, 53, 60, []⟩,
                                  ⟨some "value", "array", true, 62, 80,
                                    [⟨none, "identifier", true, 63, 68, []⟩,
                                      ⟨none, "identifier", true, 70, 73, []⟩,
                                      ⟨none, "identifier", true, 75, 79, []⟩]⟩]⟩]⟩]⟩]⟩]⟩,
              ⟨some "name", "type_identifier", true, 89, 93, []⟩,
              ⟨some "body", "class_body", true, 94, 96, []⟩]⟩]⟩ }

/-- The program of this file alone. -/
def listingProgram : Program :=
  { tree := { top := .directory [] }
    root := .absolute ["project"]
    files := [listingFile] }

/-- All three names are looked up, and only the one that is nowhere is told of. -/
theorem listingProgram_settles_lookups :
    let draft := (start listingProgram { angular := true } true).runPasses
      [.declarations, .members]
    (draft.angularLookups draft.declarations).map (·.name) = ["Items", "Lib", "Gone"] ∧
      draft.addAngular.findings.map (·.message)
        = ["NgModule imports references 'Gone' but it was not found as a classifier"] ∧
      draft.reporting = true ∧ draft.addAngular.givenUp = false ∧
      (∃ told : List (List Finding), draft.addAngular.findings = draft.findings ++ told.flatten ∧
        List.Forall₂ (Angular.Lookup.Settled draft.symbols)
          (draft.angularLookups draft.declarations) told) ∧
      ∃ told : List Finding, (Pass.run .angular draft).findings = draft.findings ++ told ∧
        ∀ finding ∈ told, ∃ file scope,
          draft.Asks .angular finding file scope ∧ finding.Fair draft.symbols file scope := by
  intro draft
  have facts : (draft.angularLookups draft.declarations).map (·.name) = ["Items", "Lib", "Gone"] ∧
      draft.addAngular.findings.map (·.message)
        = ["NgModule imports references 'Gone' but it was not found as a classifier"] ∧
      draft.reporting = true ∧ draft.addAngular.givenUp = false := by
    decide +kernel
  obtain ⟨names, messages, reporting, ends⟩ := facts
  obtain ⟨settled, fair⟩ := addAngular_settles_lookups draft
  exact ⟨names, messages, reporting, ends, settled reporting ends, fair .angular (by decide)⟩

end Draft

end CodeGraph
