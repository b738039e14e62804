import CodeGraph.Proofs.Routes.RoutePath

/-!
# Ways down to routes

A route stands at the end of a way down a tree of routes, and the edits of trees are those that each
route makes inside of the routes on the way to it. What is made of the routes on a way has the whole
path of the way.
-/

namespace CodeGraph.RouteTree

variable {α β : Type}

/-! ## Ways -/

mutual

/-- The ways down a tree, each from its root to one of its routes. -/
def chains : RouteTree α → List (List α)
  | .node route children => [route] :: (chainsOfAll children).map (route :: ·)

/-- The ways down trees. -/
def chainsOfAll : List (RouteTree α) → List (List α)
  | [] => []
  | tree :: trees => chains tree ++ chainsOfAll trees

end

theorem chainsOfAll_append (first second : List (RouteTree α)) :
    chainsOfAll (first ++ second) = chainsOfAll first ++ chainsOfAll second := by
  induction first with
  | nil => rfl
  | cons tree first ih => rw [List.cons_append, chainsOfAll, ih, chainsOfAll, List.append_assoc]

theorem chainsOfAll_flatMap (items : List β) (trees : β → List (RouteTree α)) :
    chainsOfAll (items.flatMap trees) = items.flatMap fun item => chainsOfAll (trees item) := by
  induction items with
  | nil => rfl
  | cons item items ih => rw [List.flatMap_cons, chainsOfAll_append, ih, List.flatMap_cons]

theorem chainsOfAll_map (items : List β) (tree : β → RouteTree α) :
    chainsOfAll (items.map tree) = items.flatMap fun item => chains (tree item) := by
  induction items with
  | nil => rfl
  | cons item items ih => rw [List.map_cons, chainsOfAll, ih, List.flatMap_cons]

/-- A way ends at a route of the trees. -/
def Ends (trees : List (RouteTree α)) (route : α) : Prop :=
  ∃ front, front ++ [route] ∈ chainsOfAll trees

theorem mem_chains_node {route : α} {children : List (RouteTree α)} {chain : List α} :
    chain ∈ chains (.node route children)
      ↔ chain = [route] ∨ ∃ rest ∈ chainsOfAll children, chain = route :: rest := by
  simp [chains, eq_comm]

theorem mem_chainsOfAll {trees : List (RouteTree α)} {chain : List α} :
    chain ∈ chainsOfAll trees ↔ ∃ tree ∈ trees, chain ∈ chains tree := by
  induction trees with
  | nil => simp [chainsOfAll]
  | cons tree trees ih => simp [chainsOfAll, ih]

theorem ne_nil_of_mem_chainsOfAll {trees : List (RouteTree α)} {chain : List α}
    (listed : chain ∈ chainsOfAll trees) : chain ≠ [] := by
  obtain ⟨⟨route, children⟩, _, way⟩ := mem_chainsOfAll.mp listed
  rcases mem_chains_node.mp way with rfl | ⟨rest, _, rfl⟩ <;> simp

/-- Every way ends somewhere. -/
theorem exists_concat_of_mem_chainsOfAll {trees : List (RouteTree α)} {chain : List α}
    (listed : chain ∈ chainsOfAll trees) : ∃ front route, chain = front ++ [route] :=
  ⟨chain.dropLast, chain.getLast (ne_nil_of_mem_chainsOfAll listed),
    (List.dropLast_append_getLast _).symm⟩

theorem ends_append {first second : List (RouteTree α)} {route : α} :
    Ends (first ++ second) route ↔ Ends first route ∨ Ends second route := by
  simp only [Ends, chainsOfAll_append, List.mem_append, exists_or]

/-- A way ends at the route of a tree, or it goes on below it. -/
theorem ends_cons {tree route : α} {children trees : List (RouteTree α)} :
    Ends (.node tree children :: trees) route
      ↔ route = tree ∨ Ends children route ∨ Ends trees route := by
  rw [← List.singleton_append, ends_append, ← or_assoc]
  refine or_congr_left ⟨?_, ?_⟩
  · rintro ⟨front, way⟩
    rw [chainsOfAll, chainsOfAll, List.append_nil] at way
    rcases mem_chains_node.mp way with only | ⟨rest, listed, same⟩
    · rw [← List.nil_append [tree], List.append_singleton_inj] at only
      exact .inl only.2
    · obtain ⟨front', last, rfl⟩ := exists_concat_of_mem_chainsOfAll listed
      rw [← List.cons_append, List.append_singleton_inj] at same
      exact .inr ⟨front', same.2 ▸ listed⟩
  · rintro (rfl | ⟨front, listed⟩)
    · exact ⟨[], by simp [chainsOfAll, mem_chains_node]⟩
    · exact ⟨tree :: front, by simp [chainsOfAll, mem_chains_node, listed]⟩

/-! ## Edits -/

variable (make : Option MadeRoute → α → MadeRoute × List Edit)

/-- What is made of the last route on a way. -/
def made (parent : Option MadeRoute) (chain : List α) : Option MadeRoute :=
  chain.foldl (fun parent route => some (make parent route).1) parent

/-- The edit is one of those that the last route of one of the ways makes. -/
def MakesOn (parent : Option MadeRoute) (ways : List (List α)) (edit : Edit) : Prop :=
  ∃ front route, front ++ [route] ∈ ways ∧ edit ∈ (make (made make parent front) route).2

theorem makesOn_append {parent : Option MadeRoute} {first second : List (List α)} {edit : Edit} :
    MakesOn make parent (first ++ second) edit
      ↔ MakesOn make parent first edit ∨ MakesOn make parent second edit := by
  simp only [MakesOn, List.mem_append, or_and_right, exists_or]

/-- On the ways down a tree, its route makes edits, and the routes below do inside of it. -/
theorem makesOn_node {parent : Option MadeRoute} {route : α} {children : List (RouteTree α)}
    {edit : Edit} :
    MakesOn make parent (chains (.node route children)) edit
      ↔ edit ∈ (make parent route).2 ∨
        MakesOn make (some (make parent route).1) (chainsOfAll children) edit := by
  constructor
  · rintro ⟨front, last, way, one⟩
    rcases mem_chains_node.mp way with only | ⟨rest, listed, same⟩
    · rw [← List.nil_append [route], List.append_singleton_inj] at only
      obtain ⟨rfl, rfl⟩ := only
      exact .inl one
    · obtain ⟨front', last', rfl⟩ := exists_concat_of_mem_chainsOfAll listed
      rw [← List.cons_append, List.append_singleton_inj] at same
      obtain ⟨rfl, rfl⟩ := same
      exact .inr ⟨front', last, listed, one⟩
  · rintro (own | ⟨front, last, listed, one⟩)
    · exact ⟨[], route, mem_chains_node.mpr (.inl rfl), own⟩
    · exact ⟨route :: front, last, mem_chains_node.mpr (.inr ⟨_, listed, rfl⟩), one⟩

mutual

theorem mem_edits {edit : Edit} (parent : Option MadeRoute) (tree : RouteTree α) :
    edit ∈ edits make parent tree ↔ MakesOn make parent (chains tree) edit :=
  match tree with
  | .node route children => by
      rw [makesOn_node, ← mem_editsOfAll (some (make parent route).1) children]
      exact List.mem_append

/-- The edits of trees are those that the routes make inside of those on the way to them. -/
theorem mem_editsOfAll {edit : Edit} (parent : Option MadeRoute) (trees : List (RouteTree α)) :
    edit ∈ editsOfAll make parent trees ↔ MakesOn make parent (chainsOfAll trees) edit :=
  match trees with
  | [] => by simp [editsOfAll, chainsOfAll, MakesOn]
  | tree :: trees => by
      rw [chainsOfAll, makesOn_append, ← mem_edits parent tree, ← mem_editsOfAll parent trees]
      exact List.mem_append

end

/-! ## Whole paths -/

variable {make} {ids paths : α → String}

/-- Each route has its own id, whatever is around it, and the whole path that goes on from there. -/
def MakesPaths (make : Option MadeRoute → α → MadeRoute × List Edit) (ids paths : α → String) :
    Prop :=
  ∀ parent route, (make parent route).1
    = { id := ids route, fullPath := Routes.fullPath parent (paths route) }

theorem made_concat (parent : Option MadeRoute) (front : List α) (route : α) :
    made make parent (front ++ [route]) = some (make (made make parent front) route).1 := by
  rw [made, List.foldl_concat]
  rfl

/-- The route that is made at the end of a way has the whole path of the way. -/
theorem MakesPaths.made_concat (makes : MakesPaths make ids paths) (front : List α) (route : α) :
    made make none (front ++ [route])
      = some { id := ids route, fullPath := RoutePath.whole ((front ++ [route]).map paths) } := by
  induction front using List.reverseRecOn generalizing route with
  | nil => simp [made, makes none route, Routes.fullPath_none]
  | append_singleton front last ih =>
      rw [RouteTree.made_concat, ih last, makes, Routes.fullPath_some rfl, ← List.map_singleton,
        ← List.map_append]

theorem MakesPaths.fullPath_eq (makes : MakesPaths make ids paths) (front : List α) (route : α) :
    Routes.fullPath (made make none front) (paths route)
      = RoutePath.whole ((front ++ [route]).map paths) := by
  have last := makes.made_concat front route
  rw [RouteTree.made_concat, makes, Option.some.injEq] at last
  exact congrArg MadeRoute.fullPath last

end CodeGraph.RouteTree
