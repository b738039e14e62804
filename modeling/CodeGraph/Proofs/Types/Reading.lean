import CodeGraph.Proofs.Syntax.Nodes
import CodeGraph.Types.Reading

/-!
# The two readings of a written type agree

A written type is read as a reference that keeps its shape and as a list of names. The reference
takes unions apart and knows arrays by their name; the list carries along whether it is still
direct. On types that are built as the grammar builds them, the names that are listed as direct are
those that stand directly in the reference, in the same order.
-/

namespace CodeGraph

open Syntax

namespace TypeReading

/-! ## What is read of a node -/

variable (source : Source)

theorem firstReference_eq (nodes : List Node) :
    firstReference source nodes
      = referenceOf source ((nodes.filter (·.named)).filter (·.kind != "comment")).head? := by
  induction nodes with
  | nil => rfl
  | cons node nodes ih =>
      rw [firstReference, ih]
      cases named : node.named <;> cases other : node.kind != "comment" <;>
        simp [named, other, referenceOf]

theorem namedReferences_eq (nodes : List Node) :
    namedReferences source nodes = (nodes.filter (·.named)).map (reference source) := by
  induction nodes with
  | nil => rfl
  | cons node nodes ih =>
      rw [namedReferences, ih]
      cases named : node.named <;> simp [named]

/-- The nodes that a generic type is applied to. -/
def typeArguments (node : Node) : List Node :=
  ((node.childIn? "type_arguments").map (·.namedChildren)).getD []

theorem argumentReferences_eq (node : Node) :
    argumentReferences source node.children = (typeArguments node).map (reference source) := by
  rw [typeArguments, Node.childIn?]
  induction node.children with
  | nil => rfl
  | cons child nodes ih =>
      obtain ⟨field, kind, named, start, stop, children⟩ := child
      rw [argumentReferences, ih, namedReferences_eq]
      cases here : field == some "type_arguments" <;> simp [here, Node.namedChildren]

theorem reference_eq (node : Node) :
    reference source node =
      if wrapperKinds.contains node.kind then referenceOf source node.content.head?
      else if node.kind == "predefined_type" then .primitive (source.text node)
      else if node.kind == "literal_type" then .primitive (literalType source node)
      else if node.isOneOf ["type_identifier", "identifier", "nested_type_identifier"] then
        nameReference (source.text node)
      else if node.kind == "generic_type" then
        genericReference (source.textOf (node.childIn? "name"))
          ((typeArguments node).map (reference source))
      else if node.kind == "array_type" then .array (referenceOf source node.content.head?)
      else if node.kind == "union_type" then
        .union (memberReferences source node.kind node.children)
      else if node.kind == "intersection_type" then
        .intersection (memberReferences source node.kind node.children)
      else if node.kind == "this_type" then .unknown "this"
      else if node.kind == "function_type" then .unknown "function"
      else if node.kind == "object_type" then .unknown "object"
      else if node.kind == "tuple_type" then .unknown "tuple"
      else .unknown := by
  have arguments := argumentReferences_eq source node
  obtain ⟨field, kind, named, start, stop, children⟩ := node
  rw [reference]
  simp only [firstReference_eq, Node.content, Node.namedChildren, Node.childIn?] at arguments ⊢
  rw [arguments]

theorem namesOfAll_eq (direct : Bool) (nodes : List Node) :
    namesOfAll source direct nodes = (nodes.filter (·.named)).flatMap (names source direct) := by
  induction nodes with
  | nil => rfl
  | cons node nodes ih =>
      rw [namesOfAll, ih]
      cases named : node.named <;> simp [named]

theorem namesInField_eq (direct : Bool) (wanted : String) (nodes : List Node) :
    namesInField source direct wanted nodes
      = ((nodes.find? (·.field == some wanted)).map (names source direct)).getD [] := by
  induction nodes with
  | nil => rfl
  | cons node nodes ih =>
      rw [namesInField, ih]
      cases here : node.field == some wanted <;> simp [here]

theorem argumentNames_eq (direct : Bool) (node : Node) :
    argumentNames source direct node.children
      = (typeArguments node).flatMap (names source direct) := by
  rw [typeArguments, Node.childIn?]
  induction node.children with
  | nil => rfl
  | cons child nodes ih =>
      obtain ⟨field, kind, named, start, stop, children⟩ := child
      rw [argumentNames, ih, namesOfAll_eq]
      cases here : field == some "type_arguments" <;> simp [here, Node.namedChildren]

theorem names_eq (direct : Bool) (node : Node) :
    names source direct node =
      if node.isOneOf ["type_identifier", "nested_type_identifier"] then
        if primitiveTypes.contains (source.text node) then [] else [(source.text node, direct)]
      else if node.kind == "generic_type" then
        let isArray := arrayTypes.contains (source.textOf (node.childIn? "name"))
        (if isArray then [] else ((node.childIn? "name").map (names source direct)).getD [])
          ++ (typeArguments node).flatMap (names source (direct && isArray))
      else if node.isOneOf ["predefined_type", "literal_type"] then []
      else
        node.namedChildren.flatMap (names source (direct && !opaqueKinds.contains node.kind)) := by
  have arguments := fun direct => argumentNames_eq source direct node
  obtain ⟨field, kind, named, start, stop, children⟩ := node
  rw [names]
  simp only [namesOfAll_eq, namesInField_eq, Node.namedChildren, Node.childIn?] at arguments ⊢
  rw [arguments]
  rfl

/-! ## Names read indirectly -/

theorem mem_descendants_of_mem_typeArguments {node argument : Node}
    (present : argument ∈ typeArguments node) : argument ∈ node.descendants := by
  rw [typeArguments] at present
  cases found : node.childIn? "type_arguments" with
  | none => simp [found] at present
  | some arguments =>
      rw [found] at present
      have listed := Node.mem_children_of_mem_namedChildren present
      exact Node.preorder_subset_descendants (Node.mem_children_of_childIn? found)
        (Node.preorder_subset_of_mem_children listed argument.mem_preorder_self)

/-- Read indirectly, a type has the same names in the same order, and none is direct. -/
theorem names_false (direct : Bool) (node : Node) :
    names source false node = (names source direct node).map fun entry => (entry.1, false) := by
  induction node using Node.inductionOnDescendants generalizing direct with
  | step node ih =>
      have ofAll (nodes : List Node) (inside : ∀ other ∈ nodes, other ∈ node.descendants)
          (direct : Bool) : nodes.flatMap (names source false)
            = (nodes.flatMap (names source direct)).map fun entry => (entry.1, false) := by
        rw [List.map_flatMap]
        exact List.flatMap_congr fun other listed => ih other (inside other listed) direct
      rw [names_eq, names_eq]
      split
      · split <;> rfl
      · split
        · simp only [List.map_append, Bool.false_and]
          congr 1
          · split
            · rfl
            · cases found : node.childIn? "name" with
              | none => rfl
              | some name =>
                  exact ih name (Node.mem_descendants_of_mem_children
                    (Node.mem_children_of_childIn? found)) direct
          · exact ofAll _ (fun _ => mem_descendants_of_mem_typeArguments) _
        · split
          · rfl
          · exact ofAll _ (fun other listed => Node.mem_descendants_of_mem_children
              (Node.mem_children_of_mem_namedChildren listed)) _

end TypeReading

/-! ## Names in a reference -/

namespace TypeRef

mutual

/-- The names that stand directly in a reference: its own, unless the language has such a type,
those of its element, and those of the members of a union or an intersection. -/
def directNames : TypeRef → List String
  | .mk kind name arguments element =>
      match kind with
      | .named => name.toList
      | .generic => (name.filter (!TypeReading.primitiveTypes.contains ·)).toList
      | .array => directNamesOfElement element
      | .union | .intersection => directNamesOfAll arguments
      | .primitive | .unknown => []

/-- The names that stand directly in references, one after the other. -/
def directNamesOfAll : List TypeRef → List String
  | [] => []
  | reference :: references => directNames reference ++ directNamesOfAll references

/-- The names that stand directly in an element type. -/
def directNamesOfElement : Option TypeRef → List String
  | some reference => directNames reference
  | none => []

end

theorem directNamesOfAll_append (first second : List TypeRef) :
    directNamesOfAll (first ++ second) = directNamesOfAll first ++ directNamesOfAll second := by
  induction first with
  | nil => rfl
  | cons reference first ih => simp [directNamesOfAll, ih]

end TypeRef

/-! ## Agreement -/

namespace TypeReading

/-- Types as the grammar builds them, without comments. What stands inside of a type whose names are
indirect may be anything. -/
inductive IsType (source : Source) : Node → Prop
  /-- A name. -/
  | name {node : Node} (kind : node.kind ∈ ["type_identifier", "nested_type_identifier"]) :
      IsType source node
  /-- A type of the language or a literal. -/
  | plain {node : Node} (kind : node.kind ∈ ["predefined_type", "literal_type"]) :
      IsType source node
  /-- A name that is applied to types, an array type to one. -/
  | generic {node name : Node} (kind : node.kind = "generic_type")
      (applied : node.childIn? "name" = some name)
      (name_kind : name.kind ∈ ["type_identifier", "nested_type_identifier"])
      (types : ∀ argument ∈ typeArguments node, IsType source argument)
      (single : source.text name ∈ arrayTypes → (typeArguments node).length = 1) :
      IsType source node
  /-- A union or an intersection of types. -/
  | members {node : Node} (kind : node.kind ∈ ["union_type", "intersection_type"])
      (types : ∀ member ∈ node.namedChildren, IsType source member) : IsType source node
  /-- A type with brackets or a word around it. -/
  | around {node inner : Node}
      (kind : node.kind ∈ ["array_type", "parenthesized_type", "readonly_type"])
      (only : node.namedChildren = [inner]) (type : IsType source inner) : IsType source node
  /-- A type whose names are indirect. -/
  | indirect {node : Node} (kind : node.kind ∈ opaqueKinds) : IsType source node

variable {source : Source} {node : Node}

theorem IsType.kind_ne (type : IsType source node) : node.kind ≠ "comment" := by
  cases type with
  | name kind | plain kind | members kind | around kind | indirect kind =>
      intro comment
      simp [comment, opaqueKinds] at kind
  | generic kind => simp [kind]

/-- The names that are flagged as direct. -/
def flagged (entries : List (String × Bool)) : List String :=
  (entries.filter (·.2)).map (·.1)

@[simp]
theorem flagged_append (first second : List (String × Bool)) :
    flagged (first ++ second) = flagged first ++ flagged second := by
  simp [flagged]

theorem flagged_flatMap {α : Type} (items : List α) (entries : α → List (String × Bool)) :
    flagged (items.flatMap entries) = items.flatMap fun item => flagged (entries item) := by
  simp [flagged, List.filter_flatMap, List.map_flatMap]

/-- No name is direct when it is read indirectly. -/
theorem flagged_names_false (node : Node) : flagged (names source false node) = [] := by
  rw [names_false source true, flagged, List.map_eq_nil_iff, List.filter_eq_nil_iff]
  simp

/-- The names of a type that is no name itself are those of its named children. -/
theorem names_of_children (direct : Bool)
    (plain : node.kind ∉ ["type_identifier", "nested_type_identifier", "generic_type",
      "predefined_type", "literal_type"]) :
    names source direct node
      = node.namedChildren.flatMap (names source (direct && !opaqueKinds.contains node.kind)) := by
  simp only [List.mem_cons, List.not_mem_nil, or_false, not_or] at plain
  simp [names_eq, Node.isOneOf, plain]

theorem reference_of_name (kind : node.kind ∈ ["type_identifier", "nested_type_identifier"]) :
    reference source node = nameReference (source.text node) := by
  have kinds : node.kind = "type_identifier" ∨ node.kind = "nested_type_identifier" := by
    simpa using kind
  rw [reference_eq]
  rcases kinds with kind_eq | kind_eq <;>
    · simp only [kind_eq, wrapperKinds, Node.isOneOf]
      rfl

theorem flagged_names_of_name
    (kind : node.kind ∈ ["type_identifier", "nested_type_identifier"]) :
    flagged (names source true node) = (reference source node).directNames := by
  have listed : node.isOneOf ["type_identifier", "nested_type_identifier"] = true := by
    simpa [Node.isOneOf] using kind
  rw [names_eq, if_pos listed, reference_of_name kind, nameReference]
  split <;> rfl

theorem reference_of_union (kind : node.kind = "union_type") :
    reference source node = .union (memberReferences source node.kind node.children) := by
  rw [reference_eq]
  simp only [kind, wrapperKinds, Node.isOneOf]
  rfl

theorem reference_of_intersection (kind : node.kind = "intersection_type") :
    reference source node = .intersection (memberReferences source node.kind node.children) := by
  rw [reference_eq]
  simp only [kind, wrapperKinds, Node.isOneOf]
  rfl

theorem directNames_of_members (kind : node.kind ∈ ["union_type", "intersection_type"]) :
    (reference source node).directNames
      = TypeRef.directNamesOfAll (memberReferences source node.kind node.children) := by
  have kinds : node.kind = "union_type" ∨ node.kind = "intersection_type" := by simpa using kind
  rcases kinds with kind_eq | kind_eq
  · rw [reference_of_union kind_eq, TypeRef.union, TypeRef.directNames]
  · rw [reference_of_intersection kind_eq, TypeRef.intersection, TypeRef.directNames]

theorem directNames_of_comment (kind : node.kind = "comment") :
    (reference source node).directNames = [] := by
  rw [reference_eq]
  simp only [kind, wrapperKinds, Node.isOneOf]
  rfl

theorem directNames_of_opaque (kind : node.kind ∈ opaqueKinds) :
    (reference source node).directNames = [] := by
  simp only [opaqueKinds, List.mem_cons, List.not_mem_nil, or_false] at kind
  rw [reference_eq]
  rcases kind with kind | kind | kind | kind | kind | kind | kind | kind | kind | kind <;>
    · simp only [kind, wrapperKinds, Node.isOneOf]
      rfl

theorem directNames_of_around {inner : Node}
    (kind : node.kind ∈ ["array_type", "parenthesized_type", "readonly_type"])
    (first : node.content.head? = some inner) :
    (reference source node).directNames = (reference source inner).directNames := by
  have kinds : node.kind = "array_type" ∨ node.kind = "parenthesized_type" ∨
      node.kind = "readonly_type" := by simpa using kind
  rw [reference_eq source node, first]
  rcases kinds with kind_eq | kind_eq | kind_eq <;>
    · simp only [kind_eq, wrapperKinds, Node.isOneOf]
      rfl

/-- Taking members of the same kind apart does not change the names in them. -/
theorem directNamesOfAll_memberReferences {whole : String}
    (kind : whole ∈ ["union_type", "intersection_type"]) (nodes : List Node) :
    TypeRef.directNamesOfAll (memberReferences source whole nodes)
      = (nodes.filter (·.named)).flatMap fun member => (reference source member).directNames := by
  induction nodes with
  | nil => rfl
  | cons member nodes ih =>
      have members := @directNames_of_members source member
      have comment := @directNames_of_comment source member
      obtain ⟨field, member_kind, named, start, stop, children⟩ := member
      rw [memberReferences]
      cases named with
      | false => simpa using ih
      | true =>
          simp only [Bool.not_true, Bool.false_eq_true, if_false, beq_iff_eq,
            List.filter_cons_of_pos, List.flatMap_cons, ← ih]
          split
          next same =>
            subst same
            rw [members kind, TypeRef.directNamesOfAll_append]
          next =>
            split
            next is_comment => rw [comment is_comment, List.nil_append]
            next => rfl

theorem reference_of_generic (kind : node.kind = "generic_type") :
    reference source node = genericReference (source.textOf (node.childIn? "name"))
      ((typeArguments node).map (reference source)) := by
  rw [reference_eq]
  simp only [kind, wrapperKinds, Node.isOneOf]
  rfl

theorem genericReference_of_plain {name : String} (plain : arrayTypes.contains name = false)
    (arguments : List TypeRef) : genericReference name arguments = .generic name arguments := by
  match arguments with
  | [] | _ :: _ :: _ => rfl
  | [element] => rw [genericReference, if_neg (plain ▸ Bool.false_ne_true)]

theorem directNames_generic (name : String) (arguments : List TypeRef) :
    (TypeRef.generic name arguments).directNames = (nameReference name).directNames := by
  rw [TypeRef.generic, TypeRef.directNames, Option.filter_some, nameReference]
  cases primitiveTypes.contains name <;> rfl

/-- A generic type has its own name, unless it is an array; an array has those of its element. -/
theorem flagged_names_of_generic {name : Node} (kind : node.kind = "generic_type")
    (applied : node.childIn? "name" = some name)
    (name_kind : name.kind ∈ ["type_identifier", "nested_type_identifier"])
    (single : source.text name ∈ arrayTypes → (typeArguments node).length = 1)
    (agree : ∀ argument ∈ typeArguments node,
      flagged (names source true argument) = (reference source argument).directNames) :
    flagged (names source true node) = (reference source node).directNames := by
  have listed : names source true node
      = (if arrayTypes.contains (source.text name) then [] else names source true name)
        ++ (typeArguments node).flatMap
          (names source (arrayTypes.contains (source.text name))) := by
    rw [names_eq]
    simp only [kind, Node.isOneOf, applied, Source.textOf]
    rfl
  rw [reference_of_generic kind, applied, listed, flagged_append, flagged_flatMap, Source.textOf]
  cases isArray : arrayTypes.contains (source.text name) with
  | true =>
      obtain ⟨element, only⟩ := List.length_eq_one_iff.mp (single (by simpa using isArray))
      have here := agree element (by simp [only])
      simp only [only, genericReference, isArray, if_true, List.map_cons, List.map_nil,
        List.flatMap_cons, List.flatMap_nil, List.append_nil, here]
      rfl
  | false =>
      have own : (reference source name).directNames
          = (genericReference (source.text name)
            ((typeArguments node).map (reference source))).directNames := by
        rw [reference_of_name name_kind, genericReference_of_plain isArray, directNames_generic]
      have further : ((typeArguments node).flatMap fun argument =>
          flagged (names source false argument)) = [] :=
        List.flatMap_eq_nil_iff.mpr fun argument _ => flagged_names_false argument
      rw [further, List.append_nil, ← own]
      exact flagged_names_of_name name_kind

/-- On types, the names that are listed as direct are those that stand directly in the reference,
in order, and read indirectly the type has all its names in the same order, none of them direct. -/
theorem readings_agree (type : IsType source node) :
    flagged (names source true node) = (reference source node).directNames ∧
      names source false node = (names source true node).map fun entry => (entry.1, false) := by
  refine ⟨?_, names_false source true node⟩
  induction type with
  | name kind => exact flagged_names_of_name kind
  | @plain node kind =>
      have kinds : node.kind = "predefined_type" ∨ node.kind = "literal_type" := by simpa using kind
      rw [names_eq, reference_eq]
      rcases kinds with kind_eq | kind_eq <;>
        · simp only [kind_eq, wrapperKinds, Node.isOneOf]
          rfl
  | generic kind applied name_kind _ single ih =>
      exact flagged_names_of_generic kind applied name_kind single ih
  | @members node kind types ih =>
      have kinds : node.kind = "union_type" ∨ node.kind = "intersection_type" := by simpa using kind
      have listed : names source true node = node.namedChildren.flatMap (names source true) := by
        rw [names_of_children]
        · rcases kinds with kind_eq | kind_eq <;> simp [kind_eq, opaqueKinds]
        · rcases kinds with kind_eq | kind_eq <;> simp [kind_eq]
      rw [listed, flagged_flatMap, directNames_of_members kind,
        directNamesOfAll_memberReferences kind]
      exact List.flatMap_congr ih
  | @around node inner kind only type ih =>
      have kinds : node.kind = "array_type" ∨ node.kind = "parenthesized_type" ∨
          node.kind = "readonly_type" := by simpa using kind
      have first : node.content.head? = some inner := by
        simp [Node.content, only, type.kind_ne]
      have listed : names source true node = names source true inner := by
        rw [names_of_children, only]
        · rcases kinds with kind_eq | kind_eq | kind_eq <;> simp [kind_eq, opaqueKinds]
        · rcases kinds with kind_eq | kind_eq | kind_eq <;> simp [kind_eq]
      rw [listed, ih, directNames_of_around kind first]
  | @indirect node kind =>
      have listed : names source true node = node.namedChildren.flatMap (names source false) := by
        rw [names_of_children]
        · simp [kind]
        · intro plain
          simp only [opaqueKinds, List.mem_cons, List.not_mem_nil, or_false] at kind plain
          rcases plain with plain | plain | plain | plain | plain <;> simp [plain] at kind
      rw [listed, flagged_flatMap, directNames_of_opaque kind]
      simp [flagged_names_false]

/-- The type `Array<A | B[]> | Map<string, C>`. -/
def shelfType : Node :=
  ⟨none, "union_type", true, 0, 31,
    [⟨none, "generic_type", true, 0, 14,
        [⟨some "name", "type_identifier", true, 0, 5, []⟩,
          ⟨some "type_arguments", "type_arguments", true, 5, 14,
            [⟨none, "union_type", true, 6, 13,
                [⟨none, "type_identifier", true, 6, 7, []⟩,
                  ⟨none, "array_type", true, 10, 13,
                    [⟨none, "type_identifier", true, 10, 11, []⟩]⟩]⟩]⟩]⟩,
      ⟨none, "generic_type", true, 17, 31,
        [⟨some "name", "type_identifier", true, 17, 20, []⟩,
          ⟨some "type_arguments", "type_arguments", true, 20, 31,
            [⟨none, "predefined_type", true, 21, 27, []⟩,
              ⟨none, "type_identifier", true, 29, 30, []⟩]⟩]⟩]⟩

/-- The file that this type is written in. -/
def shelfTypeFile : Source :=
  { path := "shelf.ts", bytes := "Array<A | B[]> | Map<string, C>".toUTF8, root := shelfType }

/-- The elements of the array and the applied type are direct, what it is applied to is not. -/
theorem readings_agree_shelfType :
    IsType shelfTypeFile shelfType ∧
      names shelfTypeFile true shelfType = [("A", true), ("B", true), ("Map", true), ("C", false)] ∧
      flagged (names shelfTypeFile true shelfType)
        = (reference shelfTypeFile shelfType).directNames ∧
      names shelfTypeFile false shelfType
        = (names shelfTypeFile true shelfType).map fun entry => (entry.1, false) := by
  have type : IsType shelfTypeFile shelfType := by
    have array : IsType shelfTypeFile (shelfType.children[0]) := by
      refine .generic rfl rfl (by decide) ?_ fun _ => rfl
      refine List.forall_mem_singleton.mpr (.members (by decide) ?_)
      refine List.forall_mem_cons.mpr ⟨.name (by decide), List.forall_mem_singleton.mpr ?_⟩
      exact .around (by decide) rfl (.name (by decide))
    have map : IsType shelfTypeFile (shelfType.children[1]) := by
      refine .generic rfl rfl (by decide) ?_ fun listed => absurd listed (by decide +kernel)
      exact List.forall_mem_cons.mpr ⟨.plain (by decide),
        List.forall_mem_singleton.mpr (.name (by decide))⟩
    exact .members (by decide) (List.forall_mem_cons.mpr ⟨array, List.forall_mem_singleton.mpr map⟩)
  exact ⟨type, by decide +kernel, readings_agree type⟩

end TypeReading

end CodeGraph
