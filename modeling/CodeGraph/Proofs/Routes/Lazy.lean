import CodeGraph.Proofs.Syntax.Comments
import CodeGraph.Routes.Lazy

/-!
# Comments inside of lazy targets

On the way to what a lazy target loads, comments are skipped in parentheses, in blocks and in return
statements. They are not skipped in front of the arguments of a call: a comment there is read as the
argument itself, and what the call would have told is lost.
-/

namespace CodeGraph.LazyTarget

open Syntax

variable {source : Source} {node call : Node}

/-! ## The calls that are read -/

/-- The call that a lazy target returns. -/
def returnedCall? (node : Node) : Option Node :=
  ((node.unwrap?.filter (·.isOneOf functionKinds)).bind returned?).filter
    (·.kind == "call_expression")

/-- What is called, if it is the `then` of a promise. -/
def chained? (source : Source) (call : Node) : Option Node :=
  (call.childIn? "function").filter fun function =>
    function.kind == "member_expression" && source.textOf (function.childIn? "property") == "then"

/-- The call that imports the module. -/
def importCall? (source : Source) (call : Node) : Option Node :=
  match chained? source call with
  | none => some call
  | some function => function.childIn? "object"

/-- The first of the arguments of a call. -/
def leading? (call : Node) : Option Node :=
  (call.childIn? "arguments").bind (·.firstNamed?)

/-- A comment stands in front of the arguments of a call. -/
def startsWithComment (call : Node) : Bool :=
  (leading? call).any (·.kind == "comment")

/-- A lazy target takes its module from the import call and its name from the callback. -/
theorem read_eq (node : Node) :
    read source (some node) =
      { specifier := ((returnedCall? node).bind (importCall? source)).bind (importedModule? source)
        name := (returnedCall? node).bind fun call => (chained? source call).bind fun _ =>
          ((leading? call).bind (·.unwrap?)).bind (pickedName? source) } := by
  change (match returnedCall? node with
    | none => ({} : LazyTarget)
    | some call =>
        match chained? source call with
        | none => { specifier := importedModule? source call }
        | some function =>
            { specifier := (function.childIn? "object").bind (importedModule? source)
              name := ((leading? call).bind (·.unwrap?)).bind (pickedName? source) }) = _
  cases returnedCall? node with
  | none => rfl
  | some call =>
      cases chained : chained? source call with
      | none => simp [importCall?, chained]
      | some function => simp [importCall?, chained]

/-! ## Where they stand -/

theorem mem_preorder_of_returned? {function expression : Node}
    (found : returned? function = some expression) : expression ∈ function.preorder := by
  rw [returned?] at found
  split at found
  · exact absurd found nofun
  next body field =>
    refine Node.preorder_subset_of_mem_preorder (Node.mem_preorder_of_childIn? field) ?_
    split at found
    · obtain ⟨statement, listed, found⟩ := Option.bind_eq_some_iff.mp found
      obtain ⟨value, first, found⟩ := Option.bind_eq_some_iff.mp found
      have inStatement : expression ∈ statement.preorder :=
        Node.preorder_subset_of_mem_children (Node.mem_children_of_mem_content
          (List.mem_of_head? first)) (Node.mem_preorder_of_unwrap? found)
      exact Node.preorder_subset_of_mem_preorder
        (Node.mem_preorder_of_mem_namedChildren (List.mem_of_find?_eq_some listed)) inStatement
    · exact Node.mem_preorder_of_unwrap? found

theorem mem_preorder_of_returnedCall? (found : returnedCall? node = some call) :
    call ∈ node.preorder := by
  obtain ⟨found, -⟩ := Option.filter_eq_some_iff.mp found
  obtain ⟨function, inner, found⟩ := Option.bind_eq_some_iff.mp found
  obtain ⟨inner, -⟩ := Option.filter_eq_some_iff.mp inner
  exact Node.preorder_subset_of_mem_preorder (Node.mem_preorder_of_unwrap? inner)
    (mem_preorder_of_returned? found)

theorem mem_preorder_of_leading? {first : Node} (found : leading? call = some first) :
    first ∈ call.preorder := by
  obtain ⟨arguments, field, found⟩ := Option.bind_eq_some_iff.mp found
  exact Node.preorder_subset_of_mem_preorder (Node.mem_preorder_of_childIn? field)
    (Node.mem_preorder_of_mem_namedChildren (List.mem_of_head? found))

theorem mem_preorder_of_importCall? {loading : Node}
    (found : importCall? source call = some loading) : loading ∈ call.preorder := by
  rw [importCall?] at found
  split at found
  · obtain rfl : call = loading := by simpa using found
    exact call.mem_preorder_self
  next function chained =>
    have field := (Option.filter_eq_some_iff.mp chained).1
    exact Node.preorder_subset_of_mem_preorder (Node.mem_preorder_of_childIn? field)
      (Node.mem_preorder_of_childIn? found)

/-! ## What is read without the comments -/

theorem returned?_withoutComments (bare : node.HasBareComments) :
    returned? node.withoutComments = (returned? node).map Node.withoutComments := by
  rw [returned?, Node.childIn?_withoutComments bare, returned?]
  cases node.childIn? "body" with
  | none => rfl
  | some body =>
      simp only [Option.map_some, Node.kind_withoutComments]
      split
      · rw [body.namedOf?_withoutComments (by decide), Option.bind_map, Option.map_bind]
        refine Option.bind_congr fun statement _ => ?_
        have first : statement.withoutComments.content.head?
            = statement.content.head?.map Node.withoutComments := by simp
        rw [Function.comp_apply, Function.comp_apply, first, Option.bind_map, Option.map_bind]
        exact Option.bind_congr fun inner _ => inner.unwrap?_withoutComments
      · exact body.unwrap?_withoutComments

theorem filter_withoutComments (keeps : Node → Bool)
    (same : ∀ node : Node, keeps node.withoutComments = keeps node) (node : Option Node) :
    (node.map Node.withoutComments).filter keeps =
      (node.filter keeps).map Node.withoutComments := by
  cases node with
  | none => rfl
  | some node => cases kept : keeps node <;> simp [Option.filter, same, kept]

theorem returnedCall?_withoutComments (bare : node.HasBareComments) :
    returnedCall? node.withoutComments = (returnedCall? node).map Node.withoutComments := by
  have functions := filter_withoutComments (·.isOneOf functionKinds) (by simp) node.unwrap?
  have calls := filter_withoutComments (·.kind == "call_expression") (by simp)
    ((node.unwrap?.filter (·.isOneOf functionKinds)).bind returned?)
  rw [returnedCall?, node.unwrap?_withoutComments, functions, returnedCall?, ← calls,
    Option.bind_map, Option.map_bind]
  congr 1
  refine Option.bind_congr fun function found => returned?_withoutComments ?_
  exact bare.of_mem_preorder (Node.mem_preorder_of_unwrap? (Option.filter_eq_some_iff.mp found).1)

section

variable (bare : call.HasBareComments)
include bare

theorem chained?_withoutComments :
    chained? source call.withoutComments = (chained? source call).map Node.withoutComments := by
  rw [chained?, Node.childIn?_withoutComments bare, chained?]
  cases found : call.childIn? "function" with
  | none => rfl
  | some function =>
      have inner := Node.childIn?_withoutComments (bare.of_childIn? found)
      simp [Option.filter, inner, apply_ite]

theorem importCall?_withoutComments :
    importCall? source call.withoutComments =
      (importCall? source call).map Node.withoutComments := by
  rw [importCall?, chained?_withoutComments bare, importCall?]
  cases found : chained? source call with
  | none => rfl
  | some function =>
      have field := (Option.filter_eq_some_iff.mp found).1
      exact Node.childIn?_withoutComments (bare.of_childIn? field) "object"

theorem leading?_withoutComments (clear : startsWithComment call = false) :
    leading? call.withoutComments = (leading? call).map Node.withoutComments := by
  rw [leading?, Node.childIn?_withoutComments bare, leading?]
  rw [startsWithComment, leading?] at clear
  cases found : call.childIn? "arguments" with
  | none => rfl
  | some arguments => exact arguments.firstNamed?_withoutComments (by simpa [found] using clear)

/-- An import call names the same module, if no comment stands in front of its argument. -/
theorem importedModule?_withoutComments (clear : startsWithComment call = false) :
    importedModule? source call.withoutComments = importedModule? source call := by
  have arguments := leading?_withoutComments bare clear
  rw [leading?] at arguments
  rw [importedModule?, importedModule?, arguments, Source.stringValue?_withoutComments, leading?,
    Node.childIn?_withoutComments bare, Node.kind_withoutComments, Option.any_map]
  simp

end

/-- No module is named by a comment. -/
theorem importedModule?_of_startsWithComment (noted : startsWithComment call = true) :
    importedModule? source call = none := by
  rw [startsWithComment, leading?, Option.any_eq_true] at noted
  obtain ⟨comment, first, kind⟩ := noted
  have kind : comment.kind = "comment" := by simpa using kind
  simp [importedModule?, first, Source.stringValue?, Node.isOneOf, kind]

/-- A callback picks the same name. -/
theorem pickedName?_withoutComments (bare : node.HasBareComments) :
    pickedName? source node.withoutComments = pickedName? source node := by
  rw [pickedName?, Node.isOneOf_withoutComments, returned?_withoutComments bare, pickedName?]
  cases node.isOneOf functionKinds with
  | false => rfl
  | true =>
      cases found : returned? node with
      | none => rfl
      | some picked =>
          have inner := bare.of_mem_preorder (mem_preorder_of_returned? found)
          simp [Node.childIn?_withoutComments inner]

/-- A call picks the same name from its module, if no comment stands in front of the callback. -/
theorem callback_withoutComments (bare : call.HasBareComments)
    (clear : startsWithComment call = false) :
    ((leading? call.withoutComments).bind (·.unwrap?)).bind (pickedName? source)
      = ((leading? call).bind (·.unwrap?)).bind (pickedName? source) := by
  rw [leading?_withoutComments bare clear, Option.bind_map, Option.bind_assoc, Option.bind_assoc]
  refine Option.bind_congr fun first listed => ?_
  have inFirst := bare.of_mem_preorder (mem_preorder_of_leading? listed)
  rw [Function.comp_apply, first.unwrap?_withoutComments, Option.bind_map]
  exact Option.bind_congr fun callback found =>
    pickedName?_withoutComments (inFirst.of_mem_preorder (Node.mem_preorder_of_unwrap? found))

/-- A comment picks no name. -/
theorem callback_of_startsWithComment (noted : startsWithComment call = true) :
    ((leading? call).bind (·.unwrap?)).bind (pickedName? source) = none := by
  rw [startsWithComment, Option.any_eq_true] at noted
  obtain ⟨comment, first, kind⟩ := noted
  have kind : comment.kind = "comment" := by simpa using kind
  have alone : comment.unwrap? = some comment := by
    rw [Node.unwrap?_eq, kind]
    rfl
  simp [first, alone, kind, pickedName?, Node.isOneOf, functionKinds]

/-- Without its comments a lazy target is read as the same, up to the module of an import call and
the name of a callback that a comment stands in front of: with that comment neither is read. -/
theorem read_withoutComments (bare : node.HasBareComments) :
    read source (some node) =
      let plain := read source (some node.withoutComments)
      let call := returnedCall? node
      { specifier := if (call.bind (importCall? source)).any startsWithComment then none
          else plain.specifier
        name := if call.any startsWithComment then none else plain.name } := by
  rw [read_eq, read_eq, returnedCall?_withoutComments bare]
  cases found : returnedCall? node with
  | none => rfl
  | some call =>
      have inCall := bare.of_mem_preorder (mem_preorder_of_returnedCall? found)
      simp only [Option.map_some, Option.bind_some, Option.any_some, mk.injEq]
      constructor
      · rw [importCall?_withoutComments inCall]
        cases loading : importCall? source call with
        | none => rfl
        | some load =>
            have inLoad := inCall.of_mem_preorder (mem_preorder_of_importCall? loading)
            simp only [Option.map_some, Option.bind_some, Option.any_some]
            cases clear : startsWithComment load with
            | true => exact importedModule?_of_startsWithComment clear
            | false => exact (importedModule?_withoutComments inLoad clear).symm
      · rw [chained?_withoutComments inCall]
        cases chained? source call with
        | none => exact (ite_self _).symm
        | some function =>
            simp only [Option.map_some, Option.bind_some]
            cases clear : startsWithComment call with
            | true => exact callback_of_startsWithComment clear
            | false => exact (callback_withoutComments inCall clear).symm

/-- The function `() => import(/* shop */ './shop').then(shop => shop.Page)`. -/
def notedTarget : Node :=
  ⟨none, "arrow_function", true, 0, 57,
    [⟨some "parameters", "formal_parameters", true, 0, 2, []⟩,
      ⟨some "body", "call_expression", true, 6, 57,
        [⟨some "function", "member_expression", true, 6, 38,
            [⟨some "object", "call_expression", true, 6, 33,
                [⟨some "function", "import", true, 6, 12, []⟩,
                  ⟨some "arguments", "arguments", true, 12, 33,
                    [⟨none, "comment", true, 13, 23, []⟩, ⟨none, "string", true, 24, 32, []⟩]⟩]⟩,
              ⟨some "property", "property_identifier", true, 34, 38, []⟩]⟩,
          ⟨some "arguments", "arguments", true, 38, 57,
            [⟨none, "arrow_function", true, 39, 56,
                [⟨some "parameter", "identifier", true, 39, 43, []⟩,
                  ⟨some "body", "member_expression", true, 47, 56,
                    [⟨some "object", "identifier", true, 47, 51, []⟩,
                      ⟨some "property", "property_identifier", true, 52, 56, []⟩]⟩]⟩]⟩]⟩]⟩

/-- The file that this function is written in. -/
def notedTargetFile : Source :=
  { path := "routes.ts"
    bytes := "() => import(/* shop */ './shop').then(shop => shop.Page)".toUTF8
    root := notedTarget }

/-- The module is lost to the comment in front of it. -/
theorem read_withoutComments_notedTarget :
    notedTarget.HasBareComments ∧
      read notedTargetFile (some notedTarget) = { specifier := none, name := some "Page" } ∧
      read notedTargetFile (some notedTarget.withoutComments)
        = { specifier := some "./shop", name := some "Page" } ∧
      read notedTargetFile (some notedTarget) =
        let plain := read notedTargetFile (some notedTarget.withoutComments)
        let call := returnedCall? notedTarget
        { specifier := if (call.bind (importCall? notedTargetFile)).any startsWithComment then none
            else plain.specifier
          name := if call.any startsWithComment then none else plain.name } :=
  ⟨by decide +kernel, by decide +kernel, by decide +kernel,
    read_withoutComments (by decide +kernel)⟩

end CodeGraph.LazyTarget
