import CodeGraph.Proofs.Syntax.Nodes
import CodeGraph.Syntax.Source
import Mathlib.Data.List.Find

/-!
# Syntax without comments

A comment may stand anywhere among the children of a node. It is a token: it stands in no field and
nothing stands below it. Without its comments a node keeps its text, what stands in its fields, its
content and the expression inside of its parentheses.
-/

namespace CodeGraph.Syntax

namespace Node

mutual

/-- The node without the comments below it, at all depths. -/
def withoutComments : Node → Node
  | ⟨field, kind, named, start, stop, children⟩ =>
      ⟨field, kind, named, start, stop, withoutCommentsAll children⟩

/-- The nodes that are no comments, each without the comments below it. -/
def withoutCommentsAll : List Node → List Node
  | [] => []
  | node :: nodes =>
      if node.kind == "comment" then withoutCommentsAll nodes
      else withoutComments node :: withoutCommentsAll nodes

end

/-- The comments below the node are tokens. -/
def HasBareComments (node : Node) : Prop :=
  ∀ other ∈ node.descendants, other.kind = "comment" → other.field = none ∧ other.children = []

instance (node : Node) : Decidable node.HasBareComments :=
  inferInstanceAs (Decidable (∀ other ∈ node.descendants, _))

theorem withoutCommentsAll_eq (nodes : List Node) :
    withoutCommentsAll nodes = (nodes.filter (·.kind != "comment")).map withoutComments := by
  induction nodes with
  | nil => rfl
  | cons node nodes ih =>
      rw [withoutCommentsAll, ih]
      cases comment : node.kind == "comment" <;> simp [bne, comment]

variable (node : Node)

theorem withoutComments_eq :
    node.withoutComments
      = { node with
          children := (node.children.filter (·.kind != "comment")).map withoutComments } := by
  obtain ⟨field, kind, named, start, stop, children⟩ := node
  rw [withoutComments, withoutCommentsAll_eq]

@[simp]
theorem field_withoutComments : node.withoutComments.field = node.field := by
  rw [withoutComments_eq]

@[simp]
theorem kind_withoutComments : node.withoutComments.kind = node.kind := by
  rw [withoutComments_eq]

@[simp]
theorem named_withoutComments : node.withoutComments.named = node.named := by
  rw [withoutComments_eq]

theorem children_withoutComments :
    node.withoutComments.children
      = (node.children.filter (·.kind != "comment")).map withoutComments := by
  rw [withoutComments_eq]

@[simp]
theorem isOneOf_withoutComments (kinds : List String) :
    node.withoutComments.isOneOf kinds = node.isOneOf kinds := by
  rw [isOneOf, kind_withoutComments, isOneOf]

theorem namedChildren_withoutComments :
    node.withoutComments.namedChildren = node.content.map withoutComments := by
  simp [namedChildren, content, children_withoutComments, List.filter_map, Function.comp_def,
    List.filter_comm (p := fun child : Node => child.named)]

@[simp]
theorem content_withoutComments :
    node.withoutComments.content = node.content.map withoutComments := by
  simp [content, namedChildren_withoutComments, List.filter_map, Function.comp_def]

/-- The first named child stays, if it is no comment itself. -/
theorem firstNamed?_withoutComments (other : node.firstNamed?.any (·.kind == "comment") = false) :
    node.withoutComments.firstNamed? = node.firstNamed?.map withoutComments := by
  rw [firstNamed?] at other
  rw [firstNamed?, namedChildren_withoutComments, List.head?_map, content, firstNamed?]
  cases listed : node.namedChildren with
  | nil => rfl
  | cons child children =>
      have kept : (child.kind != "comment") = true := by simpa [listed] using other
      simp only [List.filter_cons, kept, if_true, List.head?_cons]

theorem namedOf?_withoutComments {kind : String} (other : kind ≠ "comment") :
    node.withoutComments.namedOf? kind = (node.namedOf? kind).map withoutComments := by
  rw [namedOf?, namedChildren_withoutComments, List.find?_map, content, List.find?_filter, namedOf?]
  refine congrArg _ (List.find?_congr fun child _ => ?_)
  by_cases same : child.kind = kind <;> simp [same, other]

theorem unwrap?_withoutComments :
    node.withoutComments.unwrap? = node.unwrap?.map withoutComments := by
  induction node using inductionOnChildren with
  | step node ih =>
      rw [unwrap?_eq, unwrap?_eq, kind_withoutComments, content_withoutComments, List.head?_map]
      split
      · cases first : node.content.head? with
        | none => rfl
        | some inner =>
            exact ih inner (mem_children_of_mem_content (List.mem_of_head? first))
      · rfl

variable {node}

theorem HasBareComments.of_mem (bare : node.HasBareComments) {other : Node}
    (present : other ∈ node.descendants) : other.HasBareComments :=
  fun comment inside => bare comment (descendants_subset present inside)

theorem HasBareComments.of_mem_preorder (bare : node.HasBareComments) {other : Node}
    (present : other ∈ node.preorder) : other.HasBareComments := by
  rw [preorder_eq] at present
  rcases List.mem_cons.mp present with rfl | inside
  · exact bare
  · exact bare.of_mem inside

theorem HasBareComments.of_childIn? (bare : node.HasBareComments) {other : Node} {field : String}
    (found : node.childIn? field = some other) : other.HasBareComments :=
  bare.of_mem (mem_descendants_of_mem_children (mem_children_of_childIn? found))

/-- No comment stands in a field, so what stands there stays. -/
theorem childIn?_withoutComments (bare : node.HasBareComments) (field : String) :
    node.withoutComments.childIn? field = (node.childIn? field).map withoutComments := by
  rw [childIn?, children_withoutComments, List.find?_map, List.find?_filter, childIn?]
  refine congrArg _ (List.find?_congr fun child listed => ?_)
  by_cases comment : child.kind = "comment"
  · simp [comment, (bare child (mem_descendants_of_mem_children listed) comment).1]
  · simp [comment, Bool.beq_eq_decide_eq]

end Node

namespace Source

@[simp]
theorem text_withoutComments (source : Source) (node : Node) :
    source.text node.withoutComments = source.text node := by
  rw [Node.withoutComments_eq, text, text]

@[simp]
theorem textOf_withoutComments (source : Source) (node : Option Node) :
    source.textOf (node.map Node.withoutComments) = source.textOf node := by
  cases node with
  | none => rfl
  | some node => exact source.text_withoutComments node

theorem stringValue?_withoutComments (source : Source) (node : Option Node) :
    source.stringValue? (node.map Node.withoutComments) = source.stringValue? node := by
  cases node with
  | none => rfl
  | some node =>
      simp only [stringValue?, Option.map_some, Node.isOneOf_withoutComments, unquoted,
        text_withoutComments]

end Source

end CodeGraph.Syntax
