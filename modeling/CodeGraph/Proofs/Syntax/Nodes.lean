import CodeGraph.Syntax.Node
import Mathlib.Data.List.Basic

/-!
# Nodes and what stands below them

A function that reads a node may look at any node below it: at a child, at what stands inside of
the child in a field, at an expression inside of parentheses. So a statement about all nodes is
shown for a node when it is known for everything below.
-/

namespace CodeGraph.Syntax.Node

/-! ## Nodes below a node -/

theorem mem_preorder_self (node : Node) : node ∈ node.preorder := by
  obtain ⟨field, kind, named, start, stop, children⟩ := node
  exact List.mem_cons_self

theorem preorder_subset_preorderAll {node : Node} {nodes : List Node} (present : node ∈ nodes) :
    node.preorder ⊆ preorderAll nodes := by
  induction nodes with
  | nil => exact absurd present List.not_mem_nil
  | cons first nodes ih =>
      rcases List.mem_cons.mp present with rfl | later
      · exact List.subset_append_left ..
      · exact List.Subset.trans (ih later) (List.subset_append_right ..)

/-- What is below a child is below the node. -/
theorem preorder_subset_of_mem_children {node child : Node} (present : child ∈ node.children) :
    child.preorder ⊆ node.preorder := by
  obtain ⟨field, kind, named, start, stop, children⟩ := node
  exact List.Subset.trans (preorder_subset_preorderAll present) (List.subset_cons_self ..)

theorem mem_children_of_mem_namedChildren {node child : Node}
    (present : child ∈ node.namedChildren) : child ∈ node.children :=
  (List.mem_filter.mp present).1

theorem mem_children_of_mem_content {node child : Node} (present : child ∈ node.content) :
    child ∈ node.children :=
  mem_children_of_mem_namedChildren (List.mem_filter.mp present).1

theorem mem_children_of_childIn? {node child : Node} {field : String}
    (found : node.childIn? field = some child) : child ∈ node.children :=
  List.mem_of_find?_eq_some found

/-! ## Induction -/

/-- What holds of a node whenever it holds of its children holds of every node. -/
@[elab_as_elim]
theorem inductionOnChildren {motive : Node → Prop}
    (step : ∀ node : Node, (∀ child ∈ node.children, motive child) → motive node) :
    ∀ node, motive node
  | ⟨field, kind, named, start, stop, children⟩ =>
      step ⟨field, kind, named, start, stop, children⟩ fun child (_ : child ∈ children) =>
        inductionOnChildren step child
termination_by node => sizeOf node
decreasing_by
  have smaller := List.sizeOf_lt_of_mem ‹child ∈ children›
  simp_wf
  omega

/-- The nodes below a node, each before its children. -/
def descendants (node : Node) : List Node :=
  preorderAll node.children

theorem preorder_eq (node : Node) : node.preorder = node :: node.descendants := by
  obtain ⟨field, kind, named, start, stop, children⟩ := node
  rfl

theorem exists_of_mem_preorderAll {nodes : List Node} {node : Node}
    (present : node ∈ preorderAll nodes) : ∃ top ∈ nodes, node ∈ top.preorder := by
  induction nodes with
  | nil => exact absurd present List.not_mem_nil
  | cons first nodes ih =>
      rcases List.mem_append.mp present with here | later
      · exact ⟨first, List.mem_cons_self, here⟩
      · obtain ⟨top, listed, inside⟩ := ih later
        exact ⟨top, List.mem_cons_of_mem first listed, inside⟩

/-- A child and everything below it stand below the node. -/
theorem preorder_subset_descendants {node child : Node} (present : child ∈ node.children) :
    child.preorder ⊆ node.descendants :=
  preorder_subset_preorderAll present

theorem mem_descendants_of_mem_children {node child : Node} (present : child ∈ node.children) :
    child ∈ node.descendants :=
  preorder_subset_descendants present child.mem_preorder_self

/-- What is below a node that is itself at or below a node is at or below that one. -/
theorem preorder_subset_of_mem_preorder {node other : Node} (present : other ∈ node.preorder) :
    other.preorder ⊆ node.preorder := by
  induction node using inductionOnChildren with
  | step node ih =>
      rw [preorder_eq] at present
      rcases List.mem_cons.mp present with rfl | further
      · exact List.Subset.refl _
      · obtain ⟨child, listed, inside⟩ := exists_of_mem_preorderAll further
        exact List.Subset.trans (ih child listed inside) (preorder_subset_of_mem_children listed)

theorem descendants_subset {node other : Node} (present : other ∈ node.descendants) :
    other.descendants ⊆ node.descendants := by
  obtain ⟨child, listed, inside⟩ := exists_of_mem_preorderAll present
  have within := List.Subset.trans (preorder_subset_of_mem_preorder inside)
    (preorder_subset_descendants listed)
  rw [preorder_eq] at within
  exact List.Subset.trans (List.subset_cons_self ..) within

/-- What holds of a node whenever it holds of everything below it holds of every node. -/
@[elab_as_elim]
theorem inductionOnDescendants {motive : Node → Prop}
    (step : ∀ node : Node, (∀ other ∈ node.descendants, motive other) → motive node) (node : Node) :
    motive node := by
  have everywhere : ∀ other ∈ node.preorder, motive other := by
    induction node using inductionOnChildren with
    | step node ih =>
        have further : ∀ other ∈ node.descendants, motive other := fun other present => by
          obtain ⟨child, listed, inside⟩ := exists_of_mem_preorderAll present
          exact ih child listed other inside
        rw [preorder_eq]
        exact List.forall_mem_cons.mpr ⟨step node further, further⟩
  exact everywhere node node.mem_preorder_self

/-! ## Parentheses -/

theorem unwrapFirst?_eq (nodes : List Node) :
    unwrapFirst? nodes
      = ((nodes.filter (·.named)).filter (·.kind != "comment")).head?.bind unwrap? := by
  induction nodes with
  | nil => rfl
  | cons node nodes ih =>
      rw [unwrapFirst?, ih]
      cases named : node.named <;> cases other : node.kind != "comment" <;> simp [named, other]

theorem unwrap?_eq (node : Node) :
    node.unwrap? = if node.kind == "parenthesized_expression" then node.content.head?.bind unwrap?
      else some node := by
  obtain ⟨field, kind, named, start, stop, children⟩ := node
  rw [unwrap?, unwrapFirst?_eq]
  rfl

theorem mem_preorder_of_unwrap? {node inner : Node} (found : node.unwrap? = some inner) :
    inner ∈ node.preorder := by
  induction node using inductionOnChildren with
  | step node ih =>
      rw [unwrap?_eq] at found
      split at found
      · obtain ⟨child, first, found⟩ := Option.bind_eq_some_iff.mp found
        have listed := mem_children_of_mem_content (List.mem_of_head? first)
        exact preorder_subset_of_mem_children listed (ih child listed found)
      · obtain rfl : node = inner := by simpa using found
        exact node.mem_preorder_self

theorem mem_preorder_of_childIn? {node child : Node} {field : String}
    (found : node.childIn? field = some child) : child ∈ node.preorder :=
  preorder_subset_of_mem_children (mem_children_of_childIn? found) child.mem_preorder_self

theorem mem_preorder_of_mem_namedChildren {node child : Node}
    (present : child ∈ node.namedChildren) : child ∈ node.preorder :=
  preorder_subset_of_mem_children (mem_children_of_mem_namedChildren present)
    child.mem_preorder_self

/-! ## Levels -/

theorem depth_le_depthAll {node : Node} {nodes : List Node} (present : node ∈ nodes) :
    node.depth ≤ depthAll nodes := by
  induction nodes with
  | nil => exact absurd present List.not_mem_nil
  | cons first nodes ih =>
      rcases List.mem_cons.mp present with rfl | later
      · exact Nat.le_max_left ..
      · exact Nat.le_trans (ih later) (Nat.le_max_right ..)

/-- A child has fewer levels. -/
theorem depth_lt_of_mem_children {node child : Node} (present : child ∈ node.children) :
    child.depth < node.depth := by
  obtain ⟨field, kind, named, start, stop, children⟩ := node
  exact Nat.lt_succ_of_le (depth_le_depthAll present)

/-- Nothing below a node has more levels. -/
theorem depth_le_of_mem_preorder {node other : Node} (present : other ∈ node.preorder) :
    other.depth ≤ node.depth := by
  induction node using inductionOnChildren with
  | step node ih =>
      rw [preorder_eq] at present
      rcases List.mem_cons.mp present with rfl | inside
      · exact Nat.le_refl _
      · obtain ⟨child, listed, inside⟩ := exists_of_mem_preorderAll inside
        exact Nat.le_trans (ih child listed inside)
          (Nat.le_of_lt (depth_lt_of_mem_children listed))

end CodeGraph.Syntax.Node
