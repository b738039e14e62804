import CodeGraph.Draft.Members
import CodeGraph.Proofs.Draft.Findings
import CodeGraph.Proofs.Draft.Parts
import CodeGraph.Proofs.Draft.WellFormed
import CodeGraph.Proofs.Model.Members

/-!
# What a declaration's syntax makes

Reading a declaration makes edits of a few forms only. They add to the classifier that is declared,
lead from it to what a name means, or tell a finding. A member has the id that belongs to its
owner and its name, a link is written where the declaration stands, and no classifier becomes its
own supertype. Whatever is to be shown of all these edits is shown form by form.

What is to be shown of lists of edits is shown piece by piece instead: all edits of a declaration
are those of written types, of code and of supertypes, with further edits between them that add no
link.
-/

namespace CodeGraph

open Syntax

namespace RelationKind

/-- A relation of this kind leads from a type to a supertype. -/
def isSubtyping : RelationKind → Bool
  | .inheritance | .implementation => true
  | _ => false

/-- A relation of this kind is only ever written as a type. -/
def isWritten : RelationKind → Bool
  | .inheritance | .implementation | .association => true
  | _ => false

theorem isSubtyping_of_not_isWritten {kind : RelationKind} (unwritten : kind.isWritten = false) :
    kind.isSubtyping = false := by
  cases kind <;> first | rfl | contradiction

end RelationKind

/-! ## Names -/

namespace Draft

/-- The finding names the declaration as its owner. -/
def Owns (draft : Draft) (owner : Declaration) (finding : Finding) : Prop :=
  finding.owner? = some (draft.nameOf owner.classifierId)

/-- Names mean the same in two drafts, and classifiers have the same names. -/
structure SameNames (before after : Draft) : Prop where
  symbols : after.symbols = before.symbols
  nameOf : ∀ id, after.nameOf id = before.nameOf id

namespace SameNames

variable {first second third : Draft}

theorem refl (draft : Draft) : draft.SameNames draft := ⟨rfl, fun _ => rfl⟩

theorem trans (early : first.SameNames second) (late : second.SameNames third) :
    first.SameNames third :=
  ⟨late.symbols.trans early.symbols, fun id => (late.nameOf id).trans (early.nameOf id)⟩

/-- Findings have the same owners. -/
theorem owns (same : first.SameNames second) {owner : Declaration} {finding : Finding}
    (owned : second.Owns owner finding) : first.Owns owner finding := by
  rwa [Owns, same.nameOf] at owned

end SameNames

end Draft

/-! ## Forms of edits -/

namespace Edit

/-- All edits of a list have a form. -/
structure All (form : Edit → Prop) (edits : List Edit) : Prop where
  /-- Each of them has it. -/
  of_mem : ∀ edit ∈ edits, form edit

section

variable {form other : Edit → Prop} {first second : List Edit}

@[simp]
theorem all_nil : All form [] := ⟨List.forall_mem_nil form⟩

@[simp]
theorem all_cons {edit : Edit} : All form (edit :: first) ↔ form edit ∧ All form first :=
  ⟨fun all => (List.forall_mem_cons.mp all.of_mem).imp_right .mk,
    fun ⟨here, further⟩ => ⟨List.forall_mem_cons.mpr ⟨here, further.of_mem⟩⟩⟩

theorem All.single {edit : Edit} (here : form edit) : All form [edit] :=
  ⟨List.forall_mem_singleton.mpr here⟩

theorem all_append : All form (first ++ second) ↔ All form first ∧ All form second :=
  ⟨fun all => (List.forall_mem_append.mp all.of_mem).imp .mk .mk,
    fun ⟨left, right⟩ => ⟨List.forall_mem_append.mpr ⟨left.of_mem, right.of_mem⟩⟩⟩

theorem All.append (left : All form first) (right : All form second) :
    All form (first ++ second) :=
  all_append.mpr ⟨left, right⟩

theorem All.flatMap {α : Type} {items : List α} {edits : α → List Edit}
    (each : ∀ item ∈ items, All form (edits item)) : All form (items.flatMap edits) :=
  ⟨List.forall_mem_flatMap.mpr fun item present => (each item present).of_mem⟩

theorem All.mono (all : All form first) (weaker : ∀ edit, form edit → other edit) :
    All other first :=
  ⟨fun edit present => weaker edit (all.of_mem edit present)⟩

/-- What each edit of a form keeps is kept by all edits of a list. -/
theorem All.keeps {good : Draft → Prop}
    (kept : ∀ draft edit, good draft → form edit → good (draft.apply edit)) {draft : Draft}
    (before : good draft) (all : All form first) : good (draft.applyAll first) := by
  induction first generalizing draft with
  | nil => exact before
  | cons edit edits ih =>
      obtain ⟨here, further⟩ := all_cons.mp all
      exact ih (kept draft edit before here) further

/-- The edits that follow from a name's meaning have a form if they have it whatever the search for
the name tells. -/
theorem All.ofMeaning {draft : Draft} {file name : String} {scope : List String}
    {edits : Option Symbol → List Edit}
    (each : ∀ symbol, draft.symbols.Tells file name scope symbol → All form (edits symbol))
    (giveUp : form .giveUp) : All form (draft.withMeaning file name scope edits) := by
  rw [Draft.withMeaning]
  split
  next symbol found => exact each (some symbol) found
  next asked absent => exact each none ⟨asked, absent⟩
  next => simpa using giveUp

/-- The edits that follow from a name's meaning have a form if they have it whatever declared
symbol the name means. -/
theorem All.withMeaning {draft : Draft} {file name : String} {scope : List String}
    {edits : Option Symbol → List Edit}
    (each : ∀ symbol, (∀ meant ∈ symbol, draft.symbols.Declares meant) → All form (edits symbol))
    (giveUp : form .giveUp) : All form (draft.withMeaning file name scope edits) := by
  refine .ofMeaning (fun symbol told => each symbol ?_) giveUp
  rintro meant ⟨⟩
  exact SymbolTable.declares_of_found told

end

end Edit

/-- The name of a role that what is declared can play, and a route. Files alone are source files. -/
structure Stereotype.IsRole (name : String) : Prop where
  ne_empty : name ≠ ""
  ne_file : name ≠ "SourceFile"

/-- The key of a tag that a classifier gets after it has been added. The whole path of a route is
told by a tag that the route is added with. -/
structure Tag.IsMark (key : String) : Prop where
  ne_empty : key ≠ ""
  ne_fullPath : key ∉ ["react.routeFullPath", "angular.routeFullPath"]

/-- What an operation that is written in a declaration is known by. -/
structure Operation.WrittenIn (declaration : Declaration) (operation : Operation) : Prop where
  /-- It has the id of its owner and its name. -/
  id_eq : operation.id = some (operationId declaration.classifierId operation.name)
  /-- It stands in the declaration's file. -/
  source_eq : ∃ node, operation.source = some (declaration.source.place node)
  /-- It plays no role. -/
  stereotypes_eq : operation.stereotypes = []
  /-- It has no tags. -/
  tags_eq : operation.tags = []

namespace Edit

/-- The forms of edits that are made for a declaration of a draft, given the kinds and tags that its
`links` may have. -/
inductive MadeFor (draft : Draft) (links : RelationKind → List Tag → Prop)
    (declaration : Declaration) : Edit → Prop
  /-- A link leads to what a name means. -/
  | link {kind : RelationKind} {symbol : Symbol} {tags : List Tag} {node : Node}
      (meant : draft.symbols.Declares symbol) (linked : links kind tags) (named : Tag.Named tags)
      (proper : kind.isSubtyping = true → declaration.classifierId ≠ symbol.classifierId) :
      MadeFor draft links declaration
        (Links.link declaration kind symbol tags (declaration.source.place node))
  /-- The classifier gets a role. -/
  | stereotype {name : String} (role : Stereotype.IsRole name) :
      MadeFor draft links declaration (.change declaration.classifierId (.stereotype name))
  /-- The classifier gets a tag. -/
  | tag {key value : String} (mark : Tag.IsMark key) :
      MadeFor draft links declaration (.change declaration.classifierId (.tag key value))
  /-- The classifier gets an attribute. -/
  | attribute {name : String} {type : TypeRef} {origin : Node} {traits : Members.AttributeTraits} :
      MadeFor draft links declaration (.change declaration.classifierId
        (.attribute (Members.attributeOf declaration name type origin traits)))
  /-- The classifier gets an operation. -/
  | operation {member : Operation} (written : member.WrittenIn declaration) :
      MadeFor draft links declaration (.change declaration.classifierId (.operation member))
  /-- An attribute gets the type and the mark of a role. -/
  | role {name : String} {type : TypeRef} {origin : Node} {mark : Tag} (named : mark.key ≠ "") :
      MadeFor draft links declaration (.change declaration.classifierId
        (.role (Members.attributeOf declaration name type origin {}) mark))
  /-- An attribute gets tags. -/
  | binding {name : String} {type : TypeRef} {origin : Node} {tags : List Tag}
      (named : Tag.Named tags) :
      MadeFor draft links declaration (.change declaration.classifierId
        (.binding (Members.attributeOf declaration name type origin {}) tags))
  /-- The declaration is the owner of a finding, and the name is looked up in its scope. -/
  | find {finding : Finding} (owned : draft.Owns declaration finding)
      (fair : finding.Fair draft.symbols declaration.file declaration.scope) :
      MadeFor draft links declaration (.find finding)
  | giveUp : MadeFor draft links declaration .giveUp

section

variable {draft : Draft} {links more : RelationKind → List Tag → Prop} {declaration : Declaration}

theorem MadeFor.mono {edit : Edit} (made : edit.MadeFor draft links declaration)
    (weaker : ∀ kind tags, links kind tags → more kind tags) :
    edit.MadeFor draft more declaration := by
  cases made with
  | link meant linked named proper => exact .link meant (weaker _ _ linked) named proper
  | stereotype role => exact .stereotype role
  | tag mark => exact .tag mark
  | «attribute» => exact .attribute
  | operation written => exact .operation written
  | role named => exact .role named
  | binding named => exact .binding named
  | find owned fair => exact .find owned fair
  | giveUp => exact .giveUp

/-- What is made for a declaration depends on a draft's names alone. -/
theorem MadeFor.of_sameNames {edit : Edit} {other : Draft} (same : draft.SameNames other)
    (made : edit.MadeFor other links declaration) : edit.MadeFor draft links declaration := by
  cases made with
  | link meant linked named proper => exact .link (same.symbols ▸ meant) linked named proper
  | stereotype role => exact .stereotype role
  | tag mark => exact .tag mark
  | «attribute» => exact .attribute
  | operation written => exact .operation written
  | role named => exact .role named
  | binding named => exact .binding named
  | find owned fair => exact .find (same.owns owned) (same.symbols ▸ fair)
  | giveUp => exact .giveUp

/-- No edit for a declaration changes what is declared, or what a classifier is called. -/
theorem MadeFor.sameNames_apply {edit : Edit} (made : edit.MadeFor draft links declaration)
    (later : Draft) : later.SameNames (later.apply edit) := by
  constructor
  · cases made <;> simp only [Draft.apply, Links.link, Draft.relate, Draft.changeClassifier] <;>
      split <;> rfl
  · refine Draft.nameOf_apply later ?_
    cases made <;> rfl

theorem All.sameNames_applyAll {edits : List Edit}
    (all : All (MadeFor draft links declaration) edits) (later : Draft) :
    later.SameNames (later.applyAll edits) :=
  all.keeps (fun _ _ same made => same.trans (made.sameNames_apply _)) (.refl later)

theorem All.ofMeaningAt {name : String} {edits : Option Symbol → List Edit}
    (each : ∀ symbol, draft.symbols.Tells declaration.file name declaration.scope symbol →
      All (MadeFor draft links declaration) (edits symbol)) :
    All (MadeFor draft links declaration) (draft.withMeaningAt declaration name edits) :=
  .ofMeaning each .giveUp

theorem All.withMeaningAt {name : String} {edits : Option Symbol → List Edit}
    (each : ∀ symbol, (∀ meant ∈ symbol, draft.symbols.Declares meant) →
      All (MadeFor draft links declaration) (edits symbol)) :
    All (MadeFor draft links declaration) (draft.withMeaningAt declaration name edits) :=
  .withMeaning each .giveUp

end

end Edit

open Edit

namespace Links

/-- No link at all. -/
def Absent (_ : RelationKind) (_ : List Tag) : Prop := False

/-- The links of written types and of code, by kind and tags. -/
inductive Written : RelationKind → List Tag → Prop
  /-- A member has a type. -/
  | member {name : String} : Written .association [⟨"member", name⟩]
  /-- Something is referred to. -/
  | reference {origin : String} : Written .dependency [⟨"origin", origin⟩]
  /-- There is a supertype. -/
  | supertype {kind : RelationKind} (subtyping : kind.isSubtyping = true) : Written kind []

theorem Written.named {kind : RelationKind} {tags : List Tag} (written : Written kind tags) :
    Tag.Named tags := by
  cases written <;> simp [Tag.Named]

end Links

/-! ## Pieces -/

/-- The words that tell where a written type stands. -/
def Links.typeOrigins : List String := ["typeRef", "signature"]

/-- Lists of edits have a form if they consist of the pieces that a declaration is read in: written
types, code, supertypes, and edits that add no link. -/
structure Edit.Composed (draft : Draft) (declaration : Declaration) (form : List Edit → Prop) :
    Prop where
  nil : form []
  append : ∀ {first second}, form first → form second → form (first ++ second)
  single : ∀ {edit}, edit.MadeFor draft Links.Absent declaration → form [edit]
  ofType : ∀ type member origin direct, origin ∈ Links.typeOrigins →
    form (Links.ofType draft declaration type member origin direct)
  ofUses : ∀ body, form (Links.ofUses draft declaration body)
  supertype : ∀ kind node, kind.isSubtyping = true →
    form (Members.supertypeEdits draft declaration kind node)

namespace Edit.Composed

open Members

variable {draft : Draft} {declaration : Declaration} {form : List Edit → Prop}
  (composed : Composed draft declaration form)
include composed

theorem flatMap {α : Type} {items : List α} {edits : α → List Edit}
    (each : ∀ item ∈ items, form (edits item)) : form (items.flatMap edits) := by
  induction items with
  | nil => exact composed.nil
  | cons item items ih =>
      obtain ⟨here, further⟩ := List.forall_mem_cons.mp each
      rw [List.flatMap_cons]
      exact composed.append here (ih further)

theorem operationEdits (name : String) (function origin : Node) (traits : OperationTraits) :
    form (operationEdits draft declaration name function origin traits) := by
  rw [Members.operationEdits]
  refine composed.append (composed.append (composed.append ?_ ?_) ?_) (composed.ofUses _)
  · exact composed.flatMap fun parameter _ => composed.ofType _ _ _ _ (by simp [Links.typeOrigins])
  · split
    · exact composed.nil
    · exact composed.ofType _ _ _ _ (by simp [Links.typeOrigins])
  · exact composed.single (.operation ⟨rfl, ⟨origin, rfl⟩, rfl, rfl⟩)

theorem attributeEdits (name : String) (type : Option Node) (origin : Node)
    (traits : AttributeTraits) :
    form (attributeEdits draft declaration name type origin traits) :=
  composed.append (composed.single .attribute)
    (composed.ofType _ _ _ _ (by simp [Links.typeOrigins]))

theorem classHeritage : form (classHeritage draft declaration) := by
  refine composed.flatMap fun heritage _ => composed.flatMap fun clause _ => ?_
  split
  · refine composed.append (composed.flatMap fun node _ => ?_) ?_
    · exact composed.supertype _ node rfl
    · exact composed.ofType _ _ _ _ (by simp [Links.typeOrigins])
  · split
    · exact composed.flatMap fun node _ => composed.supertype _ node rfl
    · exact composed.nil

theorem interfaceHeritage : form (interfaceHeritage draft declaration) :=
  composed.flatMap fun _ _ => composed.flatMap fun node _ => composed.supertype _ node rfl

theorem constructorAttributes (constructor : Node) :
    form (constructorAttributes draft declaration constructor) := by
  refine composed.flatMap fun parameter _ => ?_
  split
  · exact composed.attributeEdits ..
  · exact composed.nil

theorem classMember (member nameNode : Node) :
    form (classMember draft declaration member nameNode) := by
  simp only [Members.classMember]
  split
  · split
    · exact composed.operationEdits ..
    · exact composed.append (composed.attributeEdits ..) (composed.ofUses _)
  · split
    · refine composed.append (composed.operationEdits ..) ?_
      split
      · exact composed.constructorAttributes ..
      · exact composed.nil
    · split
      · exact composed.operationEdits ..
      · exact composed.nil

theorem interfaceMember (member nameNode : Node) :
    form (interfaceMember draft declaration member nameNode) := by
  rw [Members.interfaceMember]
  split
  · exact composed.attributeEdits ..
  · split
    · exact composed.operationEdits ..
    · exact composed.nil

theorem bodyMembers {edits : Node → Node → List Edit}
    (each : ∀ member nameNode, form (edits member nameNode)) :
    form (bodyMembers declaration edits) := by
  rw [Members.bodyMembers]
  split
  · exact composed.nil
  · refine composed.flatMap fun member _ => ?_
    split
    · exact each member _
    · exact composed.nil

theorem enumMembers : form (enumMembers declaration) := by
  rw [Members.enumMembers]
  split
  · exact composed.nil
  · refine composed.flatMap fun member _ => ?_
    rw [enumMember]
    split
    · exact composed.single .attribute
    · split
      · exact composed.single .attribute
      · exact composed.nil

theorem typeAlias : form (typeAlias draft declaration) := by
  rw [Members.typeAlias]
  split
  · exact composed.nil
  · refine composed.append (composed.single (.tag ⟨by simp, by simp⟩)) ?_
    exact composed.ofType _ _ _ _ (by simp [Links.typeOrigins])

/-- The edits of a declaration's members and supertypes have a form that its pieces have. -/
theorem declarationEdits : form (declarationEdits draft declaration) := by
  rw [Members.declarationEdits]
  split
  · exact composed.append composed.classHeritage (composed.bodyMembers composed.classMember)
  · split
    · exact composed.operationEdits ..
    · split
      · exact composed.append composed.interfaceHeritage
          (composed.bodyMembers composed.interfaceMember)
      · exact composed.enumMembers
      · exact composed.typeAlias
      · exact composed.nil

end Edit.Composed

/-! ## The links of a declaration -/

variable (draft : Draft) (declaration : Declaration)

namespace Links

theorem ofTypeName_madeFor (node : Node) (member origin : String) (name : String × Bool) :
    All (MadeFor draft Written declaration)
      (ofTypeName draft declaration (declaration.source.place node) member origin name) := by
  refine .withMeaningAt fun symbol meant => ?_
  cases symbol with
  | none => simp
  | some symbol =>
      refine .append ?_ ?_ <;> split
      · exact .single (.link (meant _ rfl) .member Written.member.named
          (by simp [RelationKind.isSubtyping]))
      · exact all_nil
      · exact .single (.link (meant _ rfl) .reference Written.reference.named
          (by simp [RelationKind.isSubtyping]))
      · exact all_nil

theorem ofType_madeFor (type : Option Node) (member origin : String) (direct : Bool) :
    All (MadeFor draft Written declaration)
      (ofType draft declaration type member origin direct) := by
  cases type with
  | none => simp [ofType]
  | some node => exact .flatMap fun name _ => ofTypeName_madeFor draft declaration node _ _ name

theorem ofUses_madeFor (body : Option Node) :
    All (MadeFor draft Written declaration) (ofUses draft declaration body) := by
  cases body with
  | none => simp [ofUses]
  | some body =>
      rw [ofUses]
      split
      · refine .flatMap fun node _ => ?_
        split
        · simp
        · refine .withMeaningAt fun symbol meant => ?_
          cases symbol with
          | none => exact all_nil
          | some symbol =>
              exact .single (.link (meant _ rfl) .reference Written.reference.named
                (by simp [RelationKind.isSubtyping]))
      · simp

end Links

namespace Members

theorem supertypeEdits_madeFor (kind : RelationKind) (node : Node)
    (subtyping : kind.isSubtyping = true) :
    All (MadeFor draft Links.Written declaration)
      (supertypeEdits draft declaration kind node) := by
  refine .withMeaningAt fun symbol meant => ?_
  cases symbol with
  | none => simp
  | some symbol =>
      simp only
      split
      · simp
      next apart =>
        rw [beq_iff_eq] at apart
        have written := Links.Written.supertype subtyping
        exact .single (.link (meant _ rfl) written written.named fun _ => Ne.symm apart)

end Members

theorem Edit.composed_madeFor :
    Composed draft declaration (All (MadeFor draft Links.Written declaration)) where
  nil := all_nil
  append := .append
  single made := .single (made.mono fun _ _ => False.elim)
  ofType type member origin direct _ :=
    Links.ofType_madeFor draft declaration type member origin direct
  ofUses := Links.ofUses_madeFor draft declaration
  supertype := Members.supertypeEdits_madeFor draft declaration

/-- The edits of a declaration's members and supertypes have these forms. -/
theorem Members.declarationEdits_madeFor :
    All (MadeFor draft Links.Written declaration) (declarationEdits draft declaration) :=
  (composed_madeFor draft declaration).declarationEdits

end CodeGraph
