import CodeGraph.Proofs.Routes.Chains
import CodeGraph.Proofs.Syntax.Nodes
import CodeGraph.React.Route

/-!
# Nested routes

Routes are nested in the syntax in two ways: elements stand inside of elements, at any depth and
with anything in between, and objects stand in arrays that other objects have as their children.
What is read off a file of React routes is exactly this nesting, at every depth.
-/

namespace CodeGraph

open Syntax

/-! ## Nested elements -/

/-- The nodes stand below each other, each right below the one before it. -/
inductive Syntax.Node.Lineage : Node → List Node → Prop
  /-- The node alone. -/
  | self {node : Node} : Lineage node [node]
  /-- The node and what stands below one of its children. -/
  | child {node child : Node} {line : List Node} (listed : child ∈ node.children)
      (lineage : Lineage child line) : Lineage node (node :: line)

theorem Syntax.Node.Lineage.ne_nil {node : Node} {line : List Node} (lineage : node.Lineage line) :
    line ≠ [] := by
  cases lineage <;> simp

namespace React

variable {source : Source} {node : Node}

/-- The node is a `Route` element. -/
def isRouteElement (source : Source) (node : Node) : Bool :=
  node.isOneOf jsxElements && tagName? source node == some "Route"

/-- The route elements on a line. -/
def elementRoutes (source : Source) (line : List Node) : List WrittenRoute :=
  (line.filter (isRouteElement source)).map (jsxRoute source)

theorem jsxRoutesOfAll_eq (nodes : List Node) :
    jsxRoutesOfAll source nodes = nodes.flatMap (jsxRoutes source) := by
  induction nodes with
  | nil => rfl
  | cons node nodes ih => rw [jsxRoutesOfAll, ih, List.flatMap_cons]

theorem jsxRoutes_eq (node : Node) :
    jsxRoutes source node =
      if isRouteElement source node then
        [.node (jsxRoute source node) (node.children.flatMap (jsxRoutes source))]
      else node.children.flatMap (jsxRoutes source) := by
  obtain ⟨field, kind, named, start, stop, children⟩ := node
  rw [jsxRoutes, jsxRoutesOfAll_eq]
  rfl

/-- The line ends in a route element. -/
def EndsInRoute (source : Source) (line : List Node) : Prop :=
  ∃ element ∈ line.getLast?, isRouteElement source element = true

/-- A line from a node ends at the node itself or further down. -/
theorem exists_lineage_iff {chain : List WrittenRoute} :
    (∃ line, node.Lineage line ∧ EndsInRoute source line ∧ chain = elementRoutes source line)
      ↔ (isRouteElement source node = true ∧ chain = [jsxRoute source node]) ∨
        ∃ child ∈ node.children, ∃ line, child.Lineage line ∧ EndsInRoute source line ∧
          chain = elementRoutes source (node :: line) := by
  constructor
  · rintro ⟨line, lineage, ends, rfl⟩
    cases lineage with
    | self =>
        obtain ⟨element, last, isRoute⟩ := ends
        obtain rfl : node = element := by simpa using last
        exact .inl ⟨isRoute, by simp [elementRoutes, isRoute]⟩
    | child listed lineage =>
        refine .inr ⟨_, listed, _, lineage, ?_, rfl⟩
        rwa [EndsInRoute, List.getLast?_cons_of_ne_nil lineage.ne_nil] at ends
  · rintro (⟨isRoute, rfl⟩ | ⟨child, listed, line, lineage, ends, rfl⟩)
    · exact ⟨[node], .self, ⟨node, rfl, isRoute⟩, by simp [elementRoutes, isRoute]⟩
    · refine ⟨node :: line, .child listed lineage, ?_, rfl⟩
      rwa [EndsInRoute, List.getLast?_cons_of_ne_nil lineage.ne_nil]

/-- The ways down to the routes at and below a node are the lines that end in a route element, with
the route elements on them. -/
theorem mem_chainsOfAll_jsxRoutes {chain : List WrittenRoute} :
    chain ∈ RouteTree.chainsOfAll (jsxRoutes source node)
      ↔ ∃ line,
        node.Lineage line ∧ EndsInRoute source line ∧ chain = elementRoutes source line := by
  induction node using Node.inductionOnChildren generalizing chain with
  | step node ih =>
      have further : ∀ rest, rest ∈ RouteTree.chainsOfAll (node.children.flatMap (jsxRoutes source))
          ↔ ∃ child ∈ node.children, ∃ line, child.Lineage line ∧ EndsInRoute source line ∧
            rest = elementRoutes source line := by
        intro rest
        rw [RouteTree.chainsOfAll_flatMap, List.mem_flatMap]
        exact exists_congr fun child => and_congr_right fun listed => ih child listed
      rw [exists_lineage_iff, jsxRoutes_eq]
      cases isRoute : isRouteElement source node with
      | false => simpa [elementRoutes, isRoute] using further chain
      | true =>
          rw [if_pos rfl, RouteTree.chainsOfAll, RouteTree.chainsOfAll, List.append_nil,
            RouteTree.mem_chains_node]
          simp only [further, true_and, elementRoutes, List.filter_cons_of_pos isRoute,
            List.map_cons]
          refine or_congr_right ⟨?_, ?_⟩
          · rintro ⟨_, ⟨child, listed, line, lineage, ends, rfl⟩, rfl⟩
            exact ⟨child, listed, line, lineage, ends, rfl⟩
          · rintro ⟨child, listed, line, lineage, ends, rfl⟩
            exact ⟨_, ⟨child, listed, line, lineage, ends, rfl⟩, rfl⟩

end React

/-! ## Nested objects -/

namespace Routes

variable {source : Source} {array object inner : Node}

/-- The objects in an array. -/
def objectsIn (array : Node) : List Node :=
  array.arrayEntries.filter (·.kind == "object")

/-- What an object has as its children. -/
def children? (source : Source) (object : Node) : Option Node :=
  (source.property? object "children").bind (·.unwrap?)

/-- The objects stand in arrays inside of each other: the first one in this array, and each other
one in the array that the one before it has as its children. -/
inductive ObjectChain (source : Source) : Node → List Node → Prop
  /-- An object of the array. -/
  | here {array object : Node} (listed : object ∈ objectsIn array) :
      ObjectChain source array [object]
  /-- An object of the array, and objects in what it has as its children. -/
  | inside {array object inner : Node} {objects : List Node} (listed : object ∈ objectsIn array)
      (children : children? source object = some inner) (chain : ObjectChain source inner objects) :
      ObjectChain source array (object :: objects)

theorem depth_lt_of_mem_objectsIn (listed : object ∈ objectsIn array) :
    object.depth < array.depth := by
  have entry := (List.mem_filter.mp listed).1
  rw [Node.arrayEntries] at entry
  split at entry
  · exact Node.depth_lt_of_mem_children
      (Node.mem_children_of_mem_namedChildren (List.mem_filter.mp entry).1)
  · exact absurd entry List.not_mem_nil

theorem mem_descendants_of_property? {key : String} {value : Node}
    (found : source.property? object key = some value) : value ∈ object.descendants := by
  simp only [Source.property?] at found
  split at found
  next entry first =>
    have listed := Node.mem_children_of_mem_namedChildren (List.mem_of_find?_eq_some first)
    split at found
    · exact Node.preorder_subset_descendants listed (Node.mem_preorder_of_childIn? found)
    · obtain rfl := Option.some.inj found
      exact Node.mem_descendants_of_mem_children listed
  next => exact nomatch found

theorem mem_descendants_of_children? (found : children? source object = some inner) :
    inner ∈ object.descendants := by
  obtain ⟨value, property, found⟩ := Option.bind_eq_some_iff.mp found
  obtain ⟨child, listed, below⟩ :=
    Node.exists_of_mem_preorderAll (mem_descendants_of_property? property)
  exact Node.preorder_subset_descendants listed
    (Node.preorder_subset_of_mem_preorder below (Node.mem_preorder_of_unwrap? found))

theorem depth_children?_lt (found : children? source object = some inner) :
    inner.depth < object.depth := by
  obtain ⟨child, listed, below⟩ :=
    Node.exists_of_mem_preorderAll (mem_descendants_of_children? found)
  exact Nat.lt_of_le_of_lt (Node.depth_le_of_mem_preorder below)
    (Node.depth_lt_of_mem_children listed)

/-- What a chain of objects in an array starts with and goes on with. -/
theorem objectChain_cons {objects : List Node} :
    ObjectChain source array (object :: objects) ↔ object ∈ objectsIn array ∧
      (objects = [] ∨ ∃ inner ∈ children? source object, ObjectChain source inner objects) := by
  constructor
  · intro chain
    cases chain with
    | here listed => exact ⟨listed, .inl rfl⟩
    | inside listed children chain => exact ⟨listed, .inr ⟨_, children, chain⟩⟩
  · rintro ⟨listed, rfl | ⟨inner, children, chain⟩⟩
    · exact .here listed
    · exact .inside listed children chain

/-- A chain goes on with an object in what its last one has as its children. -/
theorem ObjectChain.concat {front : List Node}
    (chain : ObjectChain source array (front ++ [object]))
    (children : children? source object = some inner) {last : Node}
    (listed : last ∈ objectsIn inner) :
    ObjectChain source array (front ++ [object] ++ [last]) := by
  induction front generalizing array with
  | nil => exact .inside (objectChain_cons.mp chain).1 children (.here listed)
  | cons first front ih =>
      obtain ⟨first_listed, empty | ⟨next, found, chain⟩⟩ := objectChain_cons.mp chain
      · simp at empty
      · exact .inside first_listed found (ih chain)

/-- The chains of objects in an array. The first argument bounds the number of arrays inside of each
other. -/
def objectChains (source : Source) : (fuel : Nat) → Node → List (List Node)
  | 0, _ => []
  | fuel + 1, array =>
      (objectsIn array).flatMap fun object =>
        [object] :: (match children? source object with
          | some inner => (objectChains source fuel inner).map (object :: ·)
          | none => [])

theorem mem_objectChains {fuel : Nat} {array : Node} (enough : array.depth ≤ fuel)
    {objects : List Node} :
    objects ∈ objectChains source fuel array ↔ ObjectChain source array objects := by
  induction fuel generalizing array objects with
  | zero =>
      obtain ⟨field, kind, named, start, stop, children⟩ := array
      exact absurd enough (by simp [Node.depth])
  | succ fuel ih =>
      have within {object inner : Node} (listed : object ∈ objectsIn array)
          (found : children? source object = some inner) : inner.depth ≤ fuel := by
        have lower := depth_children?_lt found
        have higher := depth_lt_of_mem_objectsIn listed
        omega
      rw [objectChains, List.mem_flatMap]
      constructor
      · rintro ⟨object, listed, chain⟩
        rcases List.mem_cons.mp chain with rfl | further
        · exact .here listed
        · split at further
          next found =>
            obtain ⟨rest, inside, rfl⟩ := List.mem_map.mp further
            exact .inside listed found ((ih (within listed found)).mp inside)
          next => exact absurd further List.not_mem_nil
      · rintro (⟨listed⟩ | ⟨listed, found, chain⟩)
        · exact ⟨_, listed, List.mem_cons_self⟩
        · refine ⟨_, listed, List.mem_cons_of_mem _ ?_⟩
          rw [found]
          exact List.mem_map_of_mem ((ih (within listed found)).mpr chain)

end Routes

/-! ## React routes -/

namespace React

open Routes

variable {source : Source}

/-- The ways down to the routes in an array of objects are the chains of objects. -/
theorem chainsOfAll_dataRoutesWithin (source : Source) (fuel : Nat) (array : Node) :
    RouteTree.chainsOfAll (dataRoutesWithin source fuel array)
      = (objectChains source fuel array).map (·.map (dataRoute source)) := by
  induction fuel generalizing array with
  | zero => rfl
  | succ fuel ih =>
      rw [dataRoutesWithin, RouteTree.chainsOfAll_map, objectChains, List.map_flatMap]
      refine congrArg (objectsIn array).flatMap (funext fun object => ?_)
      change RouteTree.chains (.node _ (match children? source object with
        | some inner => dataRoutesWithin source fuel inner
        | none => [])) = _
      cases children? source object with
      | none => rfl
      | some inner => simp [RouteTree.chains, ih, Function.comp_def]

/-- The call passes an array of routes to a router. -/
def isDataRouter (source : Source) (call : Node) : Bool :=
  call.kind == "call_expression"
    && dataRouters.contains (Text.lastPiece '.' (source.textOf (call.childIn? "function")))

/-- The routes are nested in a file, each the nearest around the next one. -/
inductive Nested (source : Source) : List WrittenRoute → Prop
  /-- Elements inside of elements. -/
  | elements {line : List Node} (lineage : source.root.Lineage line)
      (ends : EndsInRoute source line) : Nested source (elementRoutes source line)
  /-- Objects in an array that is passed to a router, and in the arrays of their children. -/
  | objects {call array : Node} {objects : List Node} (present : call ∈ source.root.preorder)
      (router : isDataRouter source call = true) (passed : argumentArray? source call = some array)
      (chain : ObjectChain source array objects) : Nested source (objects.map (dataRoute source))

theorem mem_chainsOfAll_dataRoutes {chain : List WrittenRoute} :
    chain ∈ RouteTree.chainsOfAll (dataRoutes source)
      ↔ ∃ call ∈ source.root.preorder, isDataRouter source call = true ∧
        ∃ array ∈ argumentArray? source call, ∃ objects, ObjectChain source array objects ∧
          chain = objects.map (dataRoute source) := by
  rw [dataRoutes, RouteTree.chainsOfAll_flatMap, List.mem_flatMap]
  refine exists_congr fun call => and_congr_right fun _ => ?_
  change chain ∈ RouteTree.chainsOfAll (if isDataRouter source call then _ else []) ↔ _
  cases isDataRouter source call with
  | false => simp [RouteTree.chainsOfAll]
  | true =>
      cases passed : argumentArray? source call with
      | none => simp [RouteTree.chainsOfAll]
      | some array => simp [chainsOfAll_dataRoutesWithin, mem_objectChains, eq_comm]

/-- The ways down to the routes of a file. -/
def nestings (source : Source) : List (List WrittenRoute) :=
  RouteTree.chainsOfAll (jsxRoutes source source.root ++ dataRoutes source)

/-- The ways down to the routes of a file are the routes that are nested in it. -/
theorem mem_nestings {chain : List WrittenRoute} :
    chain ∈ nestings source ↔ Nested source chain := by
  rw [nestings, RouteTree.chainsOfAll_append, List.mem_append, mem_chainsOfAll_jsxRoutes,
    mem_chainsOfAll_dataRoutes]
  constructor
  · rintro (⟨_, lineage, ends, rfl⟩ | ⟨_, present, router, _, passed, _, chain, rfl⟩)
    · exact .elements lineage ends
    · exact .objects present router passed chain
  · rintro (⟨lineage, ends⟩ | ⟨present, router, passed, chain⟩)
    · exact .inl ⟨_, lineage, ends, rfl⟩
    · exact .inr ⟨_, present, router, _, passed, _, chain, rfl⟩

end React

end CodeGraph
