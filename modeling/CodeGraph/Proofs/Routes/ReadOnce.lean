import CodeGraph.Angular.Route
import CodeGraph.Proofs.Routes.Nesting
import Mathlib.Data.List.Nodup

/-!
# Arrays that are read once

An array of Angular routes is read where it is met first and passed over later, and arrays are known
by where they begin. As long as different arrays begin at different places, no route is missed: what
is met later has been read before, and with it everything inside.
-/

namespace CodeGraph.Angular

open Syntax Routes

variable {source : Source}

/-! ## Nested routes -/

/-- The routes are nested in a file, each the nearest around the next one. -/
inductive Nested (source : Source) : List WrittenRoute → Prop
  /-- Objects in an array that the file names as routes, and in the arrays of their children. -/
  | objects {node array : Node} {objects : List Node} (present : node ∈ source.root.preorder)
      (named : array ∈ routeArrays source node) (chain : ObjectChain source array objects) :
      Nested source (objects.map (writtenRoute source))

/-- The routes that are nested in a file. -/
def nestings (source : Source) : List (List WrittenRoute) :=
  (source.root.preorder.flatMap (routeArrays source)).flatMap fun array =>
    (objectChains source array.depth array).map (·.map (writtenRoute source))

theorem mem_nestings {chain : List WrittenRoute} :
    chain ∈ nestings source ↔ Nested source chain := by
  simp only [nestings, List.mem_flatMap, List.mem_map]
  constructor
  · rintro ⟨array, ⟨node, present, named⟩, objects, listed, rfl⟩
    exact .objects present named ((mem_objectChains (Nat.le_refl _)).mp listed)
  · rintro ⟨present, named, chain⟩
    exact ⟨_, ⟨_, present, named⟩, _, (mem_objectChains (Nat.le_refl _)).mpr chain, rfl⟩

/-- The value is read as an array of routes. -/
inductive ReadAsRoutes (source : Source) : Node → Prop
  /-- The file names it as routes. -/
  | named {node array : Node} (present : node ∈ source.root.preorder)
      (named : array ∈ routeArrays source node) : ReadAsRoutes source array
  /-- A route has it as its children. -/
  | children {array object inner : Node} (outer : ReadAsRoutes source array)
      (listed : object ∈ objectsIn array) (children : children? source object = some inner) :
      ReadAsRoutes source inner

/-- Different values that are read as arrays of routes begin at different places, as they do in a
file: behind a bracket, a colon or an equals sign of their own. -/
def ArraysApart (source : Source) : Prop :=
  ∀ first second, ReadAsRoutes source first → ReadAsRoutes source second →
    first.start = second.start → first = second

/-- The values that are read as arrays of routes. -/
def arraysRead (source : Source) : List Node :=
  (source.root.preorder.flatMap (routeArrays source)).flatMap fun array =>
    array :: (objectChains source array.depth array).filterMap
      (·.getLast?.bind (children? source))

theorem mem_arraysRead {array : Node} (reads : ReadAsRoutes source array) :
    array ∈ arraysRead source := by
  -- By induction on how the array is met, it is named or is what the last object of a chain has.
  have met : ∃ first ∈ source.root.preorder.flatMap (routeArrays source), array = first ∨
      ∃ front object, ObjectChain source first (front ++ [object]) ∧
        children? source object = some array := by
    induction reads with
    | named present named => exact ⟨_, List.mem_flatMap_of_mem present named, .inl rfl⟩
    | @children _ object _ _ listed children ih =>
        obtain ⟨first, first_mem, rfl | ⟨front, last, chain, found⟩⟩ := ih
        · exact ⟨_, first_mem, .inr ⟨[], object, .here listed, children⟩⟩
        · exact ⟨first, first_mem,
            .inr ⟨front ++ [last], object, chain.concat found listed, children⟩⟩
  obtain ⟨first, first_mem, further⟩ := met
  refine List.mem_flatMap_of_mem first_mem (List.mem_cons.mpr (further.imp_right ?_))
  rintro ⟨front, object, chain, children⟩
  exact List.mem_filterMap.mpr
    ⟨_, (mem_objectChains (Nat.le_refl _)).mpr chain, by simp [children]⟩

theorem arraysApart_of_nodup (nodup : ((arraysRead source).map (·.start)).Nodup) :
    ArraysApart source :=
  fun _ _ first second same =>
    List.inj_on_of_nodup_map nodup (mem_arraysRead first) (mem_arraysRead second) same

/-! ## Whatever is read is nested -/

theorem routesWithin_none (fuel : Nat) (read : List Nat) :
    routesWithin source fuel read none = ([], read) := by
  cases fuel <;> rw [routesWithin]

/-- A way down the routes of objects starts with one of them and goes on in what it has as its
children. -/
theorem exists_of_mem_routesOfEntries
    {within : List Nat → Option Node → List (RouteTree WrittenRoute) × List Nat} {read : List Nat}
    {objects : List Node} {chain : List WrittenRoute}
    (way : chain ∈ RouteTree.chainsOfAll (routesOfEntries source within read objects).1) :
    ∃ object ∈ objects, chain = [writtenRoute source object] ∨
      ∃ before, ∃ rest ∈ RouteTree.chainsOfAll (within before (children? source object)).1,
        chain = writtenRoute source object :: rest := by
  induction objects generalizing read with
  | nil => simp [routesOfEntries, RouteTree.chainsOfAll] at way
  | cons object objects ih =>
      rcases List.mem_append.mp way with here | later
      · exact ⟨object, List.mem_cons_self,
          (RouteTree.mem_chains_node.mp here).imp_right (⟨read, ·⟩)⟩
      · obtain ⟨other, listed, further⟩ := ih later
        exact ⟨other, List.mem_cons_of_mem _ listed, further⟩

theorem objectChain_of_mem_routesWithin {fuel : Nat} {read : List Nat} {array : Node}
    {chain : List WrittenRoute}
    (way : chain ∈ RouteTree.chainsOfAll (routesWithin source fuel read (some array)).1) :
    ∃ objects, ObjectChain source array objects ∧ chain = objects.map (writtenRoute source) := by
  induction fuel generalizing read array chain with
  | zero => simp [routesWithin, RouteTree.chainsOfAll] at way
  | succ fuel ih =>
      rw [routesWithin] at way
      split at way
      · simp [RouteTree.chainsOfAll] at way
      · obtain ⟨object, listed, rfl | ⟨before, rest, inside, rfl⟩⟩ :=
          exists_of_mem_routesOfEntries way
        · exact ⟨[object], .here listed, rfl⟩
        · cases found : children? source object with
          | none => simp [found, routesWithin_none, RouteTree.chainsOfAll] at inside
          | some inner =>
              obtain ⟨objects, chain, rfl⟩ := ih (found ▸ inside)
              exact ⟨object :: objects, .inside listed found chain, rfl⟩

/-- The routes in arrays that are read one after the other, and the arrays read afterwards. -/
def routesInTurn (source : Source) (read : List Nat) :
    List Node → List (RouteTree WrittenRoute) × List Nat
  | [] => ([], read)
  | array :: arrays =>
      let (here, read) := routesWithin source (array.depth + 1) read (some array)
      let (later, read) := routesInTurn source read arrays
      (here ++ later, read)

/-- The routes of a file, and the arrays that have been read in the end. -/
def reading (source : Source) : List (RouteTree WrittenRoute) × List Nat :=
  routesInTurn source [] (source.root.preorder.flatMap (routeArrays source))

theorem routes_eq (source : Source) : routes source = (reading source).1 := by
  have onward (arrays : List Node) : ∀ found read, arrays.foldl
      (fun (found, read) array =>
        let (more, read) := routesWithin source (array.depth + 1) read (some array)
        (found ++ more, read)) (found, read)
      = (found ++ (routesInTurn source read arrays).1, (routesInTurn source read arrays).2) := by
    induction arrays with
    | nil => simp [routesInTurn]
    | cons array arrays ih => simp [routesInTurn, ih]
  rw [routes, onward]
  rfl

theorem exists_of_mem_routesInTurn {read : List Nat} {arrays : List Node}
    {chain : List WrittenRoute}
    (way : chain ∈ RouteTree.chainsOfAll (routesInTurn source read arrays).1) :
    ∃ array ∈ arrays, ∃ objects, ObjectChain source array objects ∧
      chain = objects.map (writtenRoute source) := by
  induction arrays generalizing read with
  | nil => simp [routesInTurn, RouteTree.chainsOfAll] at way
  | cons array arrays ih =>
      rw [routesInTurn, RouteTree.chainsOfAll_append] at way
      rcases List.mem_append.mp way with here | later
      · exact ⟨array, List.mem_cons_self, objectChain_of_mem_routesWithin here⟩
      · obtain ⟨other, listed, further⟩ := ih later
        exact ⟨other, List.mem_cons_of_mem _ listed, further⟩

/-- The ways down to the routes that are read are nested routes. -/
theorem nested_of_mem_chainsOfAll {chain : List WrittenRoute}
    (way : chain ∈ RouteTree.chainsOfAll (routes source)) : Nested source chain := by
  rw [routes_eq] at way
  obtain ⟨array, listed, objects, chain, rfl⟩ := exists_of_mem_routesInTurn way
  obtain ⟨node, present, named⟩ := List.mem_flatMap.mp listed
  exact .objects present named chain

/-! ## Whatever is nested is read -/

/-- The routes in an array are among those of trees, and so what they have as their children is
among the arrays read. -/
def ReadInFull (source : Source) (trees : List (RouteTree WrittenRoute)) (read : List Nat)
    (array : Node) : Prop :=
  ∀ object ∈ objectsIn array, RouteTree.Ends trees (writtenRoute source object) ∧
    ∀ inner ∈ children? source object, inner.start ∈ read

theorem ReadInFull.mono {trees more : List (RouteTree WrittenRoute)} {read after : List Nat}
    {array : Node} (full : ReadInFull source trees read array)
    (kept : ∀ route, RouteTree.Ends trees route → RouteTree.Ends more route)
    (subset : read ⊆ after) : ReadInFull source more after array :=
  fun object listed => ⟨kept _ (full object listed).1,
    fun inner children => subset ((full object listed).2 inner children)⟩

/-- No array that has been read before is forgotten, and every array that has been read since then
has been read in full. -/
structure Covers (source : Source) (before : List Nat)
    (result : List (RouteTree WrittenRoute) × List Nat) : Prop where
  subset : before ⊆ result.2
  covered : ∀ start ∈ result.2, start ∉ before → ∃ array, ReadAsRoutes source array ∧
    array.start = start ∧ ReadInFull source result.1 result.2 array

theorem covers_nil (read : List Nat) : Covers source read ([], read) :=
  ⟨List.Subset.refl _, fun _ present absent => absurd present absent⟩

/-- What is read by one reading and a second one after it is covered by both together. -/
theorem Covers.trans {before : List Nat} {first second : List (RouteTree WrittenRoute) × List Nat}
    {trees : List (RouteTree WrittenRoute)} (early : Covers source before first)
    (late : Covers source first.2 second)
    (kept : ∀ route, RouteTree.Ends first.1 route ∨ RouteTree.Ends second.1 route →
      RouteTree.Ends trees route) : Covers source before (trees, second.2) := by
  refine ⟨List.Subset.trans early.subset late.subset, fun start present absent => ?_⟩
  by_cases here : start ∈ first.2
  · obtain ⟨array, read, start_eq, full⟩ := early.covered start here absent
    exact ⟨array, read, start_eq, full.mono (fun route ends => kept route (.inl ends)) late.subset⟩
  · obtain ⟨array, read, start_eq, full⟩ := late.covered start present here
    exact ⟨array, read, start_eq,
      full.mono (fun route ends => kept route (.inr ends)) (List.Subset.refl _)⟩

/-- The objects in an array are read in full if whatever they have as their children is. -/
theorem routesOfEntries_covers
    {within : List Nat → Option Node → List (RouteTree WrittenRoute) × List Nat}
    {objects : List Node}
    (covers : ∀ object ∈ objects, ∀ read,
      Covers source read (within read (children? source object)) ∧
        ∀ inner ∈ children? source object,
          inner.start ∈ (within read (children? source object)).2) (read : List Nat) :
    Covers source read (routesOfEntries source within read objects) ∧
      ∀ object ∈ objects, RouteTree.Ends (routesOfEntries source within read objects).1
          (writtenRoute source object) ∧
        ∀ inner ∈ children? source object,
          inner.start ∈ (routesOfEntries source within read objects).2 := by
  induction objects generalizing read with
  | nil => exact ⟨covers_nil read, by simp⟩
  | cons object objects ih =>
      obtain ⟨here, further⟩ := List.forall_mem_cons.mp covers
      obtain ⟨first, begun⟩ := here read
      obtain ⟨rest, full⟩ := ih further (within read (children? source object)).2
      refine ⟨first.trans rest fun route => ?_, List.forall_mem_cons.mpr ⟨⟨?_, ?_⟩, ?_⟩⟩
      · exact fun ends => RouteTree.ends_cons.mpr (.inr ends)
      · exact RouteTree.ends_cons.mpr (.inl rfl)
      · exact fun inner children => rest.subset (begun inner children)
      · intro other listed
        exact ⟨RouteTree.ends_cons.mpr (.inr (.inr (full other listed).1)), (full other listed).2⟩

theorem routesWithin_covers {fuel : Nat} {array : Node} (reads : ReadAsRoutes source array)
    (enough : array.depth ≤ fuel) (read : List Nat) :
    Covers source read (routesWithin source fuel read (some array)) ∧
      array.start ∈ (routesWithin source fuel read (some array)).2 := by
  induction fuel generalizing array read with
  | zero =>
      obtain ⟨field, kind, named, start, stop, children⟩ := array
      exact absurd enough (by simp [Node.depth])
  | succ fuel ih =>
      rw [routesWithin]
      split
      next known => exact ⟨covers_nil read, by simpa using known⟩
      next =>
        have within : ∀ object ∈ objectsIn array, ∀ read,
            Covers source read (routesWithin source fuel read (children? source object)) ∧
              ∀ inner ∈ children? source object,
                inner.start ∈ (routesWithin source fuel read (children? source object)).2 := by
          intro object listed read
          cases found : children? source object with
          | none =>
              rw [routesWithin_none]
              exact ⟨covers_nil read, by simp⟩
          | some inner =>
              have lower := depth_children?_lt found
              have higher := depth_lt_of_mem_objectsIn listed
              simpa using ih (.children reads listed found) (by omega) read
        obtain ⟨covers, full⟩ := routesOfEntries_covers within (array.start :: read)
        have first : array.start ∈ _ := covers.subset List.mem_cons_self
        refine ⟨⟨List.Subset.trans (List.subset_cons_self ..) covers.subset, ?_⟩, first⟩
        intro start present absent
        by_cases same : start = array.start
        · exact ⟨array, reads, same.symm, full⟩
        · exact covers.covered start present (by simp [same, absent])

theorem routesInTurn_covers {arrays : List Node}
    (reads : ∀ array ∈ arrays, ReadAsRoutes source array) (read : List Nat) :
    Covers source read (routesInTurn source read arrays) ∧
      ∀ array ∈ arrays, array.start ∈ (routesInTurn source read arrays).2 := by
  induction arrays generalizing read with
  | nil => exact ⟨covers_nil read, by simp⟩
  | cons array arrays ih =>
      obtain ⟨here, further⟩ := List.forall_mem_cons.mp reads
      obtain ⟨first, begun⟩ :=
        routesWithin_covers here (Nat.le_succ _) read
      obtain ⟨rest, all⟩ := ih further (routesWithin source (array.depth + 1) read (some array)).2
      refine ⟨first.trans rest fun route => ?_, List.forall_mem_cons.mpr ⟨rest.subset begun, all⟩⟩
      exact fun ends => RouteTree.ends_append.mpr ends

/-- Whatever is read as an array of routes in a file has been read in full. -/
theorem ArraysApart.readInFull (apart : ArraysApart source) {array : Node}
    (reads : ReadAsRoutes source array) :
    ReadInFull source (routes source) (reading source).2 array := by
  have named : ∀ array ∈ source.root.preorder.flatMap (routeArrays source),
      ReadAsRoutes source array := by
    intro array listed
    obtain ⟨node, present, named⟩ := List.mem_flatMap.mp listed
    exact .named present named
  obtain ⟨covers, all⟩ : Covers source [] (reading source) ∧ _ := routesInTurn_covers named []
  have full : ∀ array, ReadAsRoutes source array → array.start ∈ (reading source).2 →
      ReadInFull source (routes source) (reading source).2 array := by
    intro array reads begun
    obtain ⟨other, other_reads, same, full⟩ := covers.covered array.start begun List.not_mem_nil
    exact apart other array other_reads reads same ▸ routes_eq source ▸ full
  -- By induction on how the array is met, the arrays around it have been read in full before.
  refine full array reads ?_
  induction reads with
  | named present named => exact all _ (List.mem_flatMap_of_mem present named)
  | children outer listed children ih => exact (full _ outer ih _ listed).2 _ children

/-- The last of the objects in a chain stands in a value that is read as an array of routes. -/
theorem exists_of_objectChain {array : Node} {front : List Node} {object : Node}
    (reads : ReadAsRoutes source array) (chain : ObjectChain source array (front ++ [object])) :
    ∃ inner, ReadAsRoutes source inner ∧ object ∈ objectsIn inner := by
  induction front generalizing array with
  | nil => exact ⟨array, reads, (objectChain_cons.mp chain).1⟩
  | cons first front ih =>
      obtain ⟨listed, empty | ⟨inner, children, chain⟩⟩ := objectChain_cons.mp chain
      · simp at empty
      · exact ih (.children reads listed children) chain

/-- Every nested route stands at the end of a way down the routes that are read. -/
theorem ArraysApart.ends_of_nested (apart : ArraysApart source) {front : List WrittenRoute}
    {route : WrittenRoute} (nested : Nested source (front ++ [route])) :
    RouteTree.Ends (routes source) route := by
  generalize whole : front ++ [route] = chain at nested
  obtain ⟨present, named, chain⟩ := nested
  obtain ⟨nodes, last, rfl, rfl, last_eq⟩ := List.append_eq_map_iff.mp whole
  obtain ⟨object, rfl, rfl⟩ := List.map_eq_singleton_iff.mp last_eq
  obtain ⟨inner, reads, listed⟩ := exists_of_objectChain (.named present named) chain
  exact (apart.readInFull reads object listed).1

end CodeGraph.Angular
