import CodeGraph.Proofs.Syntax.Comments
import CodeGraph.Proofs.Types.Reading

/-!
# Comments inside of types

A comment changes no name that is listed. The reference of a type skips comments too, with one
exception: a comment among the arguments of a generic type counts as an argument of its own, which
is unknown. So a reference stays as it is without the comments exactly when no such comment is met
on the way through the type.
-/

namespace CodeGraph.TypeReading

open Syntax

variable {source : Source} {node : Node}

/-! ## Names -/

theorem typeArguments_withoutComments (bare : node.HasBareComments) :
    typeArguments node.withoutComments
      = ((typeArguments node).filter (·.kind != "comment")).map Node.withoutComments := by
  rw [typeArguments, Node.childIn?_withoutComments bare, typeArguments]
  cases node.childIn? "type_arguments" with
  | none => rfl
  | some arguments => exact arguments.namedChildren_withoutComments

/-- A comment has no names. -/
theorem names_of_comment (kind : node.kind = "comment") (empty : node.children = [])
    (direct : Bool) : names source direct node = [] := by
  simp [names_eq, kind, Node.isOneOf, Node.namedChildren, empty]

theorem flatMap_names_withoutComments (bare : node.HasBareComments) {nodes : List Node}
    {direct : Bool} (inside : ∀ other ∈ nodes, other ∈ node.descendants)
    (same : ∀ other ∈ nodes,
      names source direct other.withoutComments = names source direct other) :
    ((nodes.filter (·.kind != "comment")).map Node.withoutComments).flatMap (names source direct)
      = nodes.flatMap (names source direct) := by
  induction nodes with
  | nil => rfl
  | cons other nodes ih =>
      obtain ⟨here, further⟩ := List.forall_mem_cons.mp same
      obtain ⟨other_inside, inside⟩ := List.forall_mem_cons.mp inside
      have rest := ih inside further
      by_cases comment : other.kind = "comment"
      · have none : names source direct other = [] :=
          names_of_comment comment (bare other other_inside comment).2 direct
        simp [comment, none, rest]
      · simp [comment, here, rest]

/-- No comment changes the names that are listed. -/
theorem names_withoutComments (bare : node.HasBareComments) (direct : Bool) :
    names source direct node.withoutComments = names source direct node := by
  induction node using Node.inductionOnDescendants generalizing direct with
  | step node ih =>
      have below (direct : Bool) : ∀ other ∈ node.descendants,
          names source direct other.withoutComments = names source direct other :=
        fun other present => ih other present (bare.of_mem present) direct
      have ofArguments (direct : Bool) :
          (typeArguments node.withoutComments).flatMap (names source direct)
            = (typeArguments node).flatMap (names source direct) := by
        have inside := fun other => @mem_descendants_of_mem_typeArguments node other
        rw [typeArguments_withoutComments bare]
        exact flatMap_names_withoutComments bare inside
          fun other listed => below direct other (inside other listed)
      have ofChildren (direct : Bool) :
          node.withoutComments.namedChildren.flatMap (names source direct)
            = node.namedChildren.flatMap (names source direct) := by
        have inside : ∀ other ∈ node.namedChildren, other ∈ node.descendants :=
          fun other listed => Node.mem_descendants_of_mem_children
            (Node.mem_children_of_mem_namedChildren listed)
        rw [Node.namedChildren_withoutComments]
        exact flatMap_names_withoutComments bare inside
          fun other listed => below direct other (inside other listed)
      have ofName : (((node.childIn? "name").map Node.withoutComments).map
          (names source direct)).getD []
            = ((node.childIn? "name").map (names source direct)).getD [] := by
        cases found : node.childIn? "name" with
        | none => rfl
        | some name =>
            exact below direct name
              (Node.mem_descendants_of_mem_children (Node.mem_children_of_childIn? found))
      rw [names_eq, names_eq]
      simp only [Node.isOneOf_withoutComments, Node.kind_withoutComments,
        Source.text_withoutComments, ofName, ofArguments, ofChildren,
        Node.childIn?_withoutComments bare, Source.textOf_withoutComments]

/-! ## References -/

/-- Where a type is read as a reference, a comment stands among the arguments of a generic type. -/
inductive MeetsComment : Node → Prop
  /-- A comment stands among the arguments of the type itself. -/
  | argument {node comment : Node} (kind : node.kind = "generic_type")
      (listed : comment ∈ typeArguments node) (comment_kind : comment.kind = "comment") :
      MeetsComment node
  /-- One is met in an argument. -/
  | inArgument {node argument : Node} (kind : node.kind = "generic_type")
      (listed : argument ∈ typeArguments node) (meets : MeetsComment argument) : MeetsComment node
  /-- One is met in the type that brackets or a word stand around. -/
  | inFirst {node inner : Node} (kind : node.kind ∈ "array_type" :: wrapperKinds)
      (first : node.content.head? = some inner) (meets : MeetsComment inner) : MeetsComment node
  /-- One is met in a member of a union or an intersection. -/
  | inMember {node member : Node} (kind : node.kind ∈ ["union_type", "intersection_type"])
      (listed : member ∈ node.content) (meets : MeetsComment member) : MeetsComment node

theorem literalType_withoutComments :
    literalType source node.withoutComments = literalType source node := by
  rw [literalType, Node.content_withoutComments, List.head?_map, literalType]
  cases node.content.head? with
  | none => exact source.text_withoutComments node
  | some value =>
      simp only [Option.map_some, Node.isOneOf_withoutComments, Source.text_withoutComments]

/-- The types that a reference is made of: an element or the arguments. -/
def partsOf : TypeRef → List TypeRef
  | .mk _ _ arguments element => element.toList ++ arguments

theorem partsOf_genericReference (name : String) (arguments : List TypeRef) :
    partsOf (genericReference name arguments) = arguments := by
  match arguments with
  | [] | _ :: _ :: _ => rfl
  | [element] =>
      rw [genericReference]
      split <;> rfl

/-- Different arguments make different references. -/
theorem genericReference_inj {name : String} {first second : List TypeRef} :
    genericReference name first = genericReference name second ↔ first = second := by
  refine ⟨fun same => ?_, fun same => same ▸ rfl⟩
  have parts := congrArg partsOf same
  rwa [partsOf_genericReference, partsOf_genericReference] at parts

/-- The references that one node adds to the members of a union or an intersection. -/
def membersOf (source : Source) (whole : String) (member : Node) : List TypeRef :=
  if !member.named then []
  else if member.kind == whole then memberReferences source whole member.children
  else if member.kind == "comment" then []
  else [reference source member]

theorem memberReferences_eq (whole : String) (nodes : List Node) :
    memberReferences source whole nodes = nodes.flatMap (membersOf source whole) := by
  induction nodes with
  | nil => rfl
  | cons member nodes ih =>
      have member_eq := membersOf.eq_1 source whole member
      obtain ⟨field, kind, named, start, stop, children⟩ := member
      rw [memberReferences, List.flatMap_cons, ← ih, member_eq]
      cases named with
      | false => rfl
      | true =>
          simp only [Bool.not_true, Bool.false_eq_true, if_false]
          split
          · rfl
          · split <;> rfl

/-- The references that a node adds to the members without its comments; none if it is one. -/
def membersWithout (source : Source) (whole : String) (member : Node) : List TypeRef :=
  if member.kind == "comment" then [] else membersOf source whole member.withoutComments

theorem memberReferences_withoutComments (whole : String) (node : Node) :
    memberReferences source whole node.withoutComments.children
      = node.children.flatMap (membersWithout source whole) := by
  rw [memberReferences_eq, Node.children_withoutComments, List.flatMap_map]
  induction node.children with
  | nil => rfl
  | cons member nodes ih =>
      by_cases comment : member.kind = "comment" <;>
        simp [comment, membersWithout, ih]

section

variable {whole : String} (kind : whole ∈ ["union_type", "intersection_type"])
include kind

theorem membersOf_comment {member : Node} (comment : member.kind = "comment") :
    membersOf source whole member = [] := by
  have other : "comment" ≠ whole := by
    rintro rfl
    simp at kind
  simp [membersOf, comment, other]

/-- Comments inside of a member do not change how many members it counts for. -/
theorem length_membersWithout (member : Node) :
    (membersWithout source whole member).length = (membersOf source whole member).length := by
  induction member using Node.inductionOnChildren with
  | step member ih =>
      by_cases comment : member.kind = "comment"
      · simp [membersWithout, comment, membersOf_comment kind comment]
      · have inner : (memberReferences source whole member.withoutComments.children).length
            = (memberReferences source whole member.children).length := by
          rw [memberReferences_withoutComments, memberReferences_eq, List.length_flatMap,
            List.length_flatMap, List.map_congr_left ih]
        simp only [membersWithout, comment, membersOf, Node.named_withoutComments,
          Node.kind_withoutComments, beq_iff_eq, if_false]
        split
        · rfl
        · split
          · exact inner
          · rfl

/-- A node adds the same members without its comments exactly if it is read as the same type. -/
theorem membersWithout_eq_iff {member : Node} (named : member.named = true)
    (other : member.kind ≠ "comment") :
    membersWithout source whole member = membersOf source whole member
      ↔ reference source member.withoutComments = reference source member := by
  simp only [membersWithout, other, membersOf, Node.named_withoutComments,
    Node.kind_withoutComments, beq_iff_eq, if_false, named, Bool.not_true, Bool.false_eq_true]
  split
  next same =>
    have kinds : member.kind = "union_type" ∨ member.kind = "intersection_type" := by
      simpa [same] using kind
    rcases kinds with kind_eq | kind_eq
    · rw [reference_of_union kind_eq,
        reference_of_union (member.kind_withoutComments.trans kind_eq),
        Node.kind_withoutComments, same]
      simp [TypeRef.union]
    · rw [reference_of_intersection kind_eq,
        reference_of_intersection (member.kind_withoutComments.trans kind_eq),
        Node.kind_withoutComments, same]
      simp [TypeRef.intersection]
  next => simp

end

theorem flatMap_eq_flatMap_iff {α β : Type} {items : List α} {first second : α → List β}
    (same : ∀ item ∈ items, (first item).length = (second item).length) :
    items.flatMap first = items.flatMap second ↔ ∀ item ∈ items, first item = second item := by
  refine ⟨fun whole => ?_, List.flatMap_congr⟩
  induction items with
  | nil => exact List.forall_mem_nil _
  | cons item items ih =>
      obtain ⟨here, further⟩ := List.forall_mem_cons.mp same
      obtain ⟨item_eq, items_eq⟩ := List.append_inj whole here
      exact List.forall_mem_cons.mpr ⟨item_eq, ih further items_eq⟩

/-- The members of a union or an intersection stay the same exactly if each of them does. -/
theorem memberReferences_withoutComments_eq_iff {whole : String}
    (kind : whole ∈ ["union_type", "intersection_type"]) (node : Node) :
    memberReferences source whole node.withoutComments.children
        = memberReferences source whole node.children
      ↔ ∀ member ∈ node.content,
        reference source member.withoutComments = reference source member := by
  rw [memberReferences_withoutComments, memberReferences_eq,
    flatMap_eq_flatMap_iff fun member _ => length_membersWithout kind member]
  constructor
  · intro same member listed
    obtain ⟨named_child, other⟩ := List.mem_filter.mp listed
    obtain ⟨child, named⟩ := List.mem_filter.mp named_child
    exact (membersWithout_eq_iff kind named (by simpa using other)).mp (same member child)
  · intro same member child
    by_cases comment : member.kind = "comment"
    · simp [membersWithout, comment, membersOf_comment kind comment]
    · cases named : member.named with
      | false => simp [membersWithout, membersOf, comment, named]
      | true =>
          have listed : member ∈ node.content := by
            simp [Node.content, Node.namedChildren, child, named, comment]
          exact (membersWithout_eq_iff kind named comment).mpr (same member listed)

/-- The arguments of a generic type stay the same exactly if no comment stands among them and each
of them does. -/
theorem argumentReferences_withoutComments_eq_iff (bare : node.HasBareComments) :
    (typeArguments node.withoutComments).map (reference source)
        = (typeArguments node).map (reference source)
      ↔ ∀ argument ∈ typeArguments node, argument.kind ≠ "comment" ∧
        reference source argument.withoutComments = reference source argument := by
  rw [typeArguments_withoutComments bare, List.map_map]
  constructor
  · intro same
    have lengths := congrArg List.length same
    rw [List.length_map, List.length_map, List.length_filter_eq_length_iff] at lengths
    rw [List.filter_eq_self.mpr lengths] at same
    exact fun argument listed =>
      ⟨by simpa using lengths argument listed, List.map_inj_left.mp same argument listed⟩
  · intro same
    rw [List.filter_eq_self.mpr fun argument listed => by simpa using (same argument listed).1]
    exact List.map_inj_left.mpr fun argument listed => (same argument listed).2

theorem referenceOf_withoutComments_eq_iff (inner : Option Node) :
    referenceOf source (inner.map Node.withoutComments) = referenceOf source inner
      ↔ ∀ node ∈ inner, reference source node.withoutComments = reference source node := by
  cases inner with
  | none => simp [referenceOf]
  | some inner => simp [referenceOf]

theorem not_meetsComment_of_generic (kind : node.kind = "generic_type") :
    ¬ MeetsComment node
      ↔ ∀ argument ∈ typeArguments node, argument.kind ≠ "comment" ∧ ¬ MeetsComment argument := by
  refine ⟨fun clear argument listed => ⟨fun comment => clear (.argument kind listed comment),
    fun meets => clear (.inArgument kind listed meets)⟩, fun clear meets => ?_⟩
  cases meets with
  | argument _ listed comment => exact (clear _ listed).1 comment
  | inArgument _ listed meets => exact (clear _ listed).2 meets
  | inFirst other => simp [kind, wrapperKinds] at other
  | inMember other => simp [kind] at other

theorem not_meetsComment_of_first (kind : node.kind ∈ "array_type" :: wrapperKinds) :
    ¬ MeetsComment node ↔ ∀ inner ∈ node.content.head?, ¬ MeetsComment inner := by
  refine ⟨fun clear inner first meets => clear (.inFirst kind first meets), fun clear meets => ?_⟩
  cases meets with
  | argument other | inArgument other => simp [other, wrapperKinds] at kind
  | inFirst _ first meets => exact clear _ first meets
  | inMember other =>
      have others : node.kind = "union_type" ∨ node.kind = "intersection_type" := by
        simpa using other
      rcases others with other | other <;> simp [other, wrapperKinds] at kind

theorem not_meetsComment_of_member (kind : node.kind ∈ ["union_type", "intersection_type"]) :
    ¬ MeetsComment node ↔ ∀ member ∈ node.content, ¬ MeetsComment member := by
  refine ⟨fun clear member listed meets => clear (.inMember kind listed meets),
    fun clear meets => ?_⟩
  cases meets with
  | argument other | inArgument other => simp [other] at kind
  | inFirst other =>
      have kinds : node.kind = "union_type" ∨ node.kind = "intersection_type" := by simpa using kind
      rcases kinds with kind | kind <;> simp [kind, wrapperKinds] at other
  | inMember _ listed meets => exact clear _ listed meets

/-- A type of any other kind is read off its own text. -/
theorem reference_withoutComments_of_other (first : node.kind ∉ "array_type" :: wrapperKinds)
    (applied : node.kind ≠ "generic_type")
    (members : node.kind ∉ ["union_type", "intersection_type"]) :
    reference source node.withoutComments = reference source node := by
  simp only [List.mem_cons, List.not_mem_nil, or_false, not_or] at first members
  have wrapper : wrapperKinds.contains node.kind = false := by simpa using first.2
  rw [reference_eq, reference_eq]
  simp only [Node.kind_withoutComments, Node.isOneOf_withoutComments, Source.text_withoutComments,
    literalType_withoutComments, wrapper, applied, first.1, members, beq_iff_eq, if_false,
    Bool.false_eq_true]

theorem reference_of_array (kind : node.kind = "array_type") :
    reference source node = .array (referenceOf source node.content.head?) := by
  rw [reference_eq]
  simp only [kind, wrapperKinds, Node.isOneOf]
  rfl

theorem reference_of_wrapper (kind : node.kind ∈ wrapperKinds) :
    reference source node = referenceOf source node.content.head? := by
  have listed : wrapperKinds.contains node.kind = true := by simpa using kind
  rw [reference_eq, if_pos listed]

/-- A type with brackets or a word around it stays the same exactly if what it is around does. -/
theorem reference_withoutComments_of_first (first : node.kind ∈ "array_type" :: wrapperKinds) :
    reference source node.withoutComments = reference source node
      ↔ ∀ inner ∈ node.content.head?,
        reference source inner.withoutComments = reference source inner := by
  rw [← referenceOf_withoutComments_eq_iff, ← List.head?_map, ← Node.content_withoutComments]
  rcases List.mem_cons.mp first with array | wrapper
  · rw [reference_of_array array, reference_of_array (node.kind_withoutComments.trans array)]
    simp [TypeRef.array]
  · rw [reference_of_wrapper wrapper,
      reference_of_wrapper (node.kind_withoutComments.symm ▸ wrapper)]

/-- A union or an intersection stays the same exactly if each of its members does. -/
theorem reference_withoutComments_of_members
    (kind : node.kind ∈ ["union_type", "intersection_type"]) :
    reference source node.withoutComments = reference source node
      ↔ ∀ member ∈ node.content,
        reference source member.withoutComments = reference source member := by
  rw [← memberReferences_withoutComments_eq_iff kind]
  have kinds : node.kind = "union_type" ∨ node.kind = "intersection_type" := by simpa using kind
  rcases kinds with kind_eq | kind_eq
  · rw [reference_of_union kind_eq, reference_of_union (node.kind_withoutComments.trans kind_eq),
      Node.kind_withoutComments]
    simp [TypeRef.union]
  · rw [reference_of_intersection kind_eq,
      reference_of_intersection (node.kind_withoutComments.trans kind_eq),
      Node.kind_withoutComments]
    simp [TypeRef.intersection]

/-- A type is read as the same reference without its comments exactly if no comment is met among
the arguments of a generic type on the way through it. -/
theorem reference_withoutComments_eq_iff (bare : node.HasBareComments) :
    reference source node.withoutComments = reference source node ↔ ¬ MeetsComment node := by
  induction node using Node.inductionOnDescendants with
  | step node ih =>
      have inside : ∀ other ∈ node.descendants,
          (reference source other.withoutComments = reference source other
            ↔ ¬ MeetsComment other) :=
        fun other present => ih other present (bare.of_mem present)
      have ofContent : ∀ other ∈ node.content,
          (reference source other.withoutComments = reference source other
            ↔ ¬ MeetsComment other) :=
        fun other listed => inside other
          (Node.mem_descendants_of_mem_children (Node.mem_children_of_mem_content listed))
      by_cases first : node.kind ∈ "array_type" :: wrapperKinds
      · rw [reference_withoutComments_of_first first, not_meetsComment_of_first first]
        exact forall₂_congr fun other head => ofContent other (List.mem_of_head? head)
      · by_cases applied : node.kind = "generic_type"
        · rw [reference_of_generic applied,
            reference_of_generic (node.kind_withoutComments.trans applied),
            Node.childIn?_withoutComments bare, Source.textOf_withoutComments, genericReference_inj,
            argumentReferences_withoutComments_eq_iff bare, not_meetsComment_of_generic applied]
          exact forall₂_congr fun argument listed =>
            and_congr_right' (inside argument (mem_descendants_of_mem_typeArguments listed))
        · by_cases members : node.kind ∈ ["union_type", "intersection_type"]
          · rw [reference_withoutComments_of_members members, not_meetsComment_of_member members]
            exact forall₂_congr ofContent
          · refine iff_of_true (reference_withoutComments_of_other first applied members) ?_
            intro meets
            cases meets with
            | argument kind | inArgument kind => exact applied kind
            | inFirst kind => exact first kind
            | inMember kind => exact members kind

/-- Without its comments a type has the same names, and it is read as the same reference exactly if
no comment is met among the arguments of a generic type on the way through it. -/
theorem readings_withoutComments (bare : node.HasBareComments) :
    (∀ direct, names source direct node.withoutComments = names source direct node) ∧
      (reference source node.withoutComments = reference source node ↔ ¬ MeetsComment node) :=
  ⟨names_withoutComments bare, reference_withoutComments_eq_iff bare⟩

/-- The name `Item` in `Array</* all */ Item>`. -/
def notedName : Node := ⟨none, "type_identifier", true, 16, 20, []⟩

/-- The type `Array</* all */ Item>`. -/
def notedType : Node :=
  ⟨none, "generic_type", true, 0, 21,
    [⟨some "name", "type_identifier", true, 0, 5, []⟩,
      ⟨some "type_arguments", "type_arguments", true, 5, 21,
        [⟨none, "comment", true, 6, 15, []⟩, notedName]⟩]⟩

/-- The file that this type is written in. -/
def notedTypeFile : Source :=
  { path := "shelf.ts", bytes := "Array</* all */ Item>".toUTF8, root := notedType }

/-- The comment counts as an argument: with it the type is no array any more, although its names are
the same. -/
theorem readings_withoutComments_notedType :
    notedType.HasBareComments ∧
      reference notedTypeFile notedType = .generic "Array" [.unknown, .named "Item"] ∧
      reference notedTypeFile notedType.withoutComments = .array (.named "Item") ∧
      (∀ direct, names notedTypeFile direct notedType.withoutComments
        = names notedTypeFile direct notedType) ∧
      (reference notedTypeFile notedType.withoutComments = reference notedTypeFile notedType
        ↔ ¬ MeetsComment notedType) := by
  have applied : notedTypeFile.textOf (notedType.childIn? "name") = "Array" := by decide +kernel
  have item : reference notedTypeFile notedName = .named "Item" := by
    have text : notedTypeFile.text notedName = "Item" := by decide +kernel
    rw [reference_of_name (by decide), text]
    rfl
  refine ⟨by decide +kernel, ?_, ?_, readings_withoutComments (by decide +kernel)⟩
  · rw [reference_of_generic rfl, applied]
    change genericReference "Array" [_, reference notedTypeFile notedName] = _
    rw [item]
    rfl
  · rw [reference_of_generic rfl]
    change genericReference (notedTypeFile.textOf (notedType.childIn? "name"))
      [reference notedTypeFile notedName] = _
    rw [applied, item]
    rfl

end CodeGraph.TypeReading
