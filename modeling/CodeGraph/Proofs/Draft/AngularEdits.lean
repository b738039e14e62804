import CodeGraph.Project.Pass
import CodeGraph.Proofs.Draft.DeclarationEdits

/-!
# What decorated classes are read as

The decorator of a class gives it a role and tags, and links it to what is injected, provided,
listed and emitted there. What its template uses is looked up in an index of the decorated classes.
-/

namespace CodeGraph

open Syntax Edit

variable {draft : Draft} {declaration : Declaration}

namespace Angular

/-! ## Decorators -/

/-- The keys of the tags that tell how something is provided. -/
def providerKeys : List String := ["providerKind", "useClass", "useExisting", "provide"]

/-- The links of the wiring, by kind and tags. -/
inductive Wired : RelationKind → List Tag → Prop
  /-- An output emits a type. -/
  | payload {name : String} :
      Wired .dependency [⟨"origin", "output"⟩, ⟨"role", "eventPayload"⟩, ⟨"member", name⟩]
  /-- A class is listed. -/
  | listed {origin role : String} : Wired .dependency [⟨"origin", origin⟩, ⟨"role", role⟩]
  /-- A constructor parameter is injected. -/
  | parameter {name : String} {token : Option String} :
      Wired .injection ([⟨"origin", "constructor"⟩, ⟨"param", name⟩]
        ++ (token.map fun token => Tag.mk "token" token).toList)
  /-- A call injects something. -/
  | call : Wired .injection [⟨"origin", "injectFn"⟩]
  /-- Something is provided. -/
  | provider {scope : String} {tags : List Tag}
      (keys : ∀ tag ∈ tags, tag.key ∈ providerKeys)
      (kind_mem : "providerKind" ∈ Tag.keys tags) :
      Wired .injection
        ([⟨"origin", "provider"⟩, ⟨"role", "providers"⟩, ⟨"scope", scope⟩] ++ tags)

theorem Wired.named {kind : RelationKind} {tags : List Tag} (wired : Wired kind tags) :
    Tag.Named tags := by
  cases wired with
  | payload | listed | call => simp [Tag.Named]
  | parameter => cases ‹Option String› <;> simp [Tag.Named]
  | provider keys =>
      refine .append (by simp [Tag.Named]) fun tag listed empty => ?_
      simpa [empty, providerKeys] using keys tag listed

/-- The wiring makes no relation that is written as a type. -/
theorem Wired.unwritten {kind : RelationKind} {tags : List Tag} (wired : Wired kind tags) :
    kind.isWritten = false := by
  cases wired <;> rfl

theorem Wired.madeFor {kind : RelationKind} {tags : List Tag} (wired : Wired kind tags)
    {symbol : Symbol} (meant : draft.symbols.Declares symbol) (node : Node) :
    MadeFor draft Wired declaration
      (Links.link declaration kind symbol tags (declaration.source.place node)) := by
  have plain := RelationKind.isSubtyping_of_not_isWritten wired.unwritten
  exact .link meant wired wired.named fun subtyping => absurd subtyping (by simp [plain])

/-- What the details of a decorator are told by. -/
def detailKeys : List String :=
  ["angular.selector", "angular.templateUrl", "angular.pipeName", "angular.standalone",
    "angular.providedIn"]

theorem detailTags_keys (source : Source) (part : Part) (details : Node) :
    ∀ tag ∈ detailTags source part details, tag.key ∈ detailKeys := by
  intro tag listed
  simp only [detailTags, List.mem_append, Option.mem_toList, Option.map_eq_some_iff] at listed
  rcases listed with (((text | text) | name) | standalone) | text
  · obtain ⟨value, _, rfl⟩ := text
    simp [detailKeys]
  · obtain ⟨value, _, rfl⟩ := text
    simp [detailKeys]
  · split at name
    · obtain ⟨value, _, rfl⟩ := Option.map_eq_some_iff.mp (Option.mem_toList.mp name)
      simp [detailKeys]
    · exact absurd name List.not_mem_nil
  · split at standalone
    · obtain rfl := List.mem_singleton.mp standalone
      simp [detailKeys]
    · exact absurd standalone List.not_mem_nil
  · obtain ⟨value, _, rfl⟩ := text
    simp [detailKeys]

theorem isMark_of_mem_detailKeys {key : String} (listed : key ∈ detailKeys) : Tag.IsMark key := by
  simp only [detailKeys, List.mem_cons, List.not_mem_nil, or_false] at listed
  rcases listed with rfl | rfl | rfl | rfl | rfl <;> exact ⟨by decide, by decide⟩

theorem descriptionEdits_madeFor (draft : Draft) (declaration : Declaration) (part : Part)
    (details : Option Node) :
    All (MadeFor draft Wired declaration) (descriptionEdits declaration part details) := by
  have marks : ∀ tag ∈ [Tag.mk "framework" "angular", ⟨"angular.decorator", part.label⟩]
      ++ (details.map (detailTags declaration.source part)).getD [], Tag.IsMark tag.key := by
    refine List.forall_mem_append.mpr ⟨?_, ?_⟩
    · exact List.forall_mem_cons.mpr ⟨⟨by simp, by simp⟩,
        List.forall_mem_singleton.mpr ⟨by simp, by simp⟩⟩
    · cases details with
      | none => exact List.forall_mem_nil _
      | some details =>
          exact fun tag listed => isMark_of_mem_detailKeys (detailTags_keys _ _ details tag listed)
  refine all_cons.mpr ⟨.stereotype ⟨by cases part <;> simp [Part.stereotype],
    by cases part <;> simp [Part.stereotype]⟩, ?_⟩
  exact ⟨List.forall_mem_map.mpr fun tag listed => .tag (marks tag listed)⟩

theorem complain_madeFor {name : String} {complaint : Complaint}
    (kind_ne : complaint.kind ≠ .unresolvedImport)
    (subject : (("owner", draft.nameOf declaration.classifierId) :: complaint.facts).lookup
      complaint.kind.subjectKey = some name)
    (lacks : draft.symbols.Tells declaration.file name declaration.scope none) (node : Node) :
    All (MadeFor draft Wired declaration)
      (complain draft declaration name node complaint) := by
  rw [complain]
  split
  next => exact all_nil
  next inside =>
    exact .single (.find rfl (.of_tells kind_ne (Finding.isAbout_atLine subject ..) lacks
      fun _ => by simpa using inside))

theorem wire_madeFor {kind : RelationKind} {name : String} {node : Node} {tags : List Tag}
    {unresolved : List Edit} (wired : Wired kind tags)
    (complaint : draft.symbols.Tells declaration.file name declaration.scope none →
      All (MadeFor draft Wired declaration) unresolved) :
    All (MadeFor draft Wired declaration)
      (wire draft declaration kind name node tags unresolved) := by
  refine .ofMeaningAt fun symbol told => ?_
  cases symbol with
  | none => exact complaint told
  | some symbol =>
      simp only
      split
      · exact .single (wired.madeFor (SymbolTable.declares_of_found told) _)
      · exact all_nil

theorem constructorEdits_madeFor (draft : Draft) (declaration : Declaration) :
    All (MadeFor draft Wired declaration) (constructorEdits draft declaration) := by
  simp only [constructorEdits]
  split
  · refine .flatMap fun parameter _ => ?_
    simp only [parameterEdits]
    split
    · exact all_nil
    · refine wire_madeFor .parameter fun lacks => ?_
      split
      · exact all_nil
      · exact complain_madeFor (by simp) rfl lacks _
  · exact all_nil

theorem injectEdits_madeFor (draft : Draft) (declaration : Declaration) :
    All (MadeFor draft Wired declaration) (injectEdits draft declaration) := by
  rw [injectEdits]
  split
  · refine .flatMap fun node _ => ?_
    simp only [injectCall]
    split
    · split
      · exact all_nil
      · exact wire_madeFor .call fun lacks => complain_madeFor (by simp) rfl lacks _
    · exact all_nil
  · exact all_nil

theorem bindingEdits_madeFor (draft : Draft) (declaration : Declaration) (member : Node)
    (name role : String) (call : Option Node) :
    All (MadeFor draft Wired declaration)
      (bindingEdits draft declaration member name role call) := by
  simp only [bindingEdits]
  refine all_cons.mpr ⟨.binding ?_, ?_⟩
  · refine .append (.append (.append (by simp [Tag.Named]) ?_) ?_) ?_
    · split <;> simp [Tag.Named]
    · exact Tag.named_option (by simp) id _
    · exact Tag.named_option (by simp) _ _
  · split
    · split
      · refine .flatMap fun typeName _ => .ofMeaningAt fun symbol told => ?_
        cases symbol with
        | some symbol =>
            exact .single (Wired.payload.madeFor (SymbolTable.declares_of_found told) _)
        | none => exact complain_madeFor (by simp) rfl told _
      · exact all_nil
    · exact all_nil

theorem inputOutputEdits_madeFor (draft : Draft) (declaration : Declaration) :
    All (MadeFor draft Wired declaration) (inputOutputEdits draft declaration) := by
  simp only [inputOutputEdits]
  split
  · exact all_nil
  · refine .flatMap fun member _ => ?_
    split
    · exact all_nil
    · refine .flatMap fun decorator _ => ?_
      split
      · exact bindingEdits_madeFor ..
      · exact all_nil

/-- What is provided is always told with a kind. -/
theorem providerTarget?_tags {entry : Node} {target : String} {tags : List Tag}
    (found : providerTarget? source entry = some (target, tags)) :
    (∀ tag ∈ tags, tag.key ∈ providerKeys) ∧ "providerKind" ∈ Tag.keys tags := by
  have provided (token : Option String) :
      ∀ tag ∈ (token.map fun token => Tag.mk "provide" token).toList, tag.key ∈ providerKeys := by
    cases token <;> simp [providerKeys]
  simp only [providerTarget?] at found
  split at found
  · cases substitute : ["useClass", "useExisting"].findSome? fun key =>
        (source.property? entry key).map fun value => (key, value) with
    | none =>
        simp only [substitute, Option.bind_none] at found
        split at found
        · simp at found
        · obtain ⟨token, _, same⟩ := Option.map_eq_some_iff.mp found
          obtain ⟨_, rfl⟩ := Prod.mk.inj same
          refine ⟨?_, by simp [Tag.keys]⟩
          exact List.forall_mem_append.mpr ⟨provided _, by simp [providerKeys]⟩
    | some pair =>
        obtain ⟨key, value⟩ := pair
        have key_mem : key ∈ providerKeys := by
          obtain ⟨word, word_mem, pair_eq⟩ := List.exists_of_findSome?_eq_some substitute
          obtain ⟨_, _, same⟩ := Option.map_eq_some_iff.mp pair_eq
          obtain ⟨rfl, _⟩ := Prod.mk.inj same
          simp only [List.mem_cons, List.not_mem_nil, or_false] at word_mem
          rcases word_mem with rfl | rfl <;> simp [providerKeys]
        have substituted (text : String) :
            ∀ tag ∈ [Tag.mk "providerKind" key, ⟨key, text⟩], tag.key ∈ providerKeys :=
          List.forall_mem_cons.mpr ⟨by simp [providerKeys], by simpa using key_mem⟩
        simp only [substitute] at found
        split at found
        · obtain ⟨_, rfl⟩ := Prod.mk.inj (Option.some.inj found)
          refine ⟨?_, by simp [Tag.keys]⟩
          exact List.forall_mem_append.mpr ⟨substituted _, provided _⟩
        · split at found
          · simp at found
          · obtain ⟨token, _, same⟩ := Option.map_eq_some_iff.mp found
            obtain ⟨_, rfl⟩ := Prod.mk.inj same
            refine ⟨?_, by simp [Tag.keys]⟩
            refine List.forall_mem_append.mpr ⟨?_, by simp [providerKeys]⟩
            exact List.forall_mem_append.mpr ⟨substituted _, provided _⟩
  · obtain ⟨name, _, same⟩ := Option.map_eq_some_iff.mp found
    obtain ⟨_, rfl⟩ := Prod.mk.inj same
    simp [providerKeys, Tag.keys]

theorem providerEdits_madeFor (draft : Draft) (declaration : Declaration) (part : Part)
    (details : Node) :
    All (MadeFor draft Wired declaration)
      (providerEdits draft declaration part details) := by
  refine .flatMap fun entry _ => ?_
  split
  · exact all_nil
  next found =>
    obtain ⟨keys, kind_mem⟩ := providerTarget?_tags (Option.filter_eq_some_iff.mp found).1
    exact wire_madeFor (.provider keys kind_mem) fun lacks => complain_madeFor (by simp) rfl lacks _

theorem referenceEdits_madeFor (draft : Draft) (declaration : Declaration) (part : Part)
    (details : Node) (origin role : String) :
    All (MadeFor draft Wired declaration)
      (referenceEdits draft declaration part details origin role) := by
  refine .flatMap fun entry _ => ?_
  split
  · exact all_nil
  · exact wire_madeFor .listed fun lacks => complain_madeFor (by simp) rfl lacks _

theorem wiringEdits_madeFor (draft : Draft) (declaration : Declaration) (part : Part)
    (details : Option Node) :
    All (MadeFor draft Wired declaration) (wiringEdits draft declaration part details) := by
  unfold wiringEdits
  refine .append (.append (.append (constructorEdits_madeFor ..) (injectEdits_madeFor ..)) ?_) ?_
  · split
    · exact inputOutputEdits_madeFor ..
    · exact all_nil
  · split
    · exact all_nil
    · refine .append ?_ ?_
      · split
        · exact providerEdits_madeFor ..
        · exact all_nil
      · split
        · exact .flatMap fun role _ => referenceEdits_madeFor ..
        · split
          · exact referenceEdits_madeFor ..
          · exact all_nil

/-! ## Templates -/

theorem mem_decorated {decorator : Node} :
    (declaration, decorator) ∈ draft.decorated
      ↔ declaration ∈ draft.declarations ∧ declaration.decorator = some decorator := by
  simp only [Draft.decorated, List.mem_filterMap, Option.map_eq_some_iff]
  constructor
  · rintro ⟨_, present, _, kept, same⟩
    obtain ⟨rfl, rfl⟩ := Prod.mk.inj same
    exact ⟨present, kept⟩
  · exact fun ⟨present, kept⟩ => ⟨declaration, present, decorator, kept, rfl⟩

/-- The forms of edits that the template of a component makes. -/
inductive Applied (draft : Draft) (index : TemplateIndex) (declaration : Declaration) :
    Edit → Prop
  /-- The template uses a class. -/
  | use {use : TemplateUse} {target : Classifier} {decorator : Node} {origin : Tag}
      (found : index.get? use = some target) (named : origin.key ≠ "") :
      Applied draft index declaration (.relate
        { kind := .templateUses
          sourceId := declaration.classifierId
          targetId := target.id
          name := some use.name
          tags :=
            [⟨"origin", "template"⟩, ⟨"role", "uses"⟩, ⟨"template.refKind", use.kind.label⟩,
              ⟨"template.refName", use.name⟩, origin]
          source := some (declaration.source.place decorator)
          discriminator := some (use.kind.label ++ ":" ++ use.name) })
  /-- There is no template. -/
  | find {finding : Finding} (owned : draft.Owns declaration finding)
      (remark : finding.kind = .note) : Applied draft index declaration (.find finding)

variable {index : TemplateIndex}

theorem templateEdits_applied {origin : Tag} (named : origin.key ≠ "") (draft : Draft)
    (declaration : Declaration) (decorator : Node) (template : String) :
    All (Applied draft index declaration)
      (templateEdits draft index declaration decorator template origin) := by
  rw [templateEdits]
  split
  · refine .flatMap fun use _ => ?_
    rw [useEdits]
    split
    · exact all_nil
    next target found => exact .single (.use found named)
  · exact all_nil

theorem componentEdits_applied (draft : Draft) (index : TemplateIndex)
    (declaration : Declaration) (decorator : Node) :
    All (Applied draft index declaration) (componentEdits draft index declaration decorator) := by
  rw [componentEdits]
  split
  · exact all_nil
  · exact templateEdits_applied (by simp) ..
  · simp only
    split
    · exact templateEdits_applied (by simp) ..
    · exact .single (.find rfl rfl)

end Angular

end CodeGraph
