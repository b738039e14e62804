import CodeGraph.Files.FileTree
import CodeGraph.Proofs.Files.Leaves
import CodeGraph.Proofs.Outcomes

/-!
# The steps of a walk

A walk through a file tree takes one segment at a time and comes to a halt at its goal or at a link;
a lookup walks on from each link that it meets. A walk that succeeds and a lookup that succeeds are
told here as relations, one constructor for each way to go on.
-/

namespace CodeGraph

namespace FileTree

variable {top : Entry} {creating : Bool} {done rest segments goal : List String} {name : String}
  {entries : List (String × Entry)} {links : Nat} {halt : Halt}

/-! ## One segment -/

theorem advance_dot (stands : top.at? done = some (.directory entries)) :
    advance top creating done ("." :: rest) = advance top creating done rest := by
  rw [advance, stands]
  rfl

theorem advance_dots (stands : top.at? done = some (.directory entries)) :
    advance top creating done (".." :: rest) = advance top creating done.dropLast rest := by
  rw [advance, stands]
  rfl

/-- What a segment that is a name does is decided by what stands under it. -/
theorem advance_name (stands : top.at? done = some (.directory entries))
    (plain : name ≠ "." ∧ name ≠ "..") (short : isTooLong name = false) :
    advance top creating done (name :: rest) = match top.at? (done ++ [name]) with
      | some (.link target) => .ok (.link done target rest)
      | some _ => advance top creating (done ++ [name]) rest
      | none =>
          if creating && rest.isEmpty then .ok (.arrived (done ++ [name]))
          else .error .missing := by
  rw [advance, stands, Entry.at?_concat stands]
  dsimp only
  rw [if_neg (by simpa using plain.1), if_neg (by simpa using plain.2)]
  exact if_neg (by simp [short])

/-! ## Walks -/

/-- A walk along segments comes to a halt. -/
inductive Advances (top : Entry) (creating : Bool) : List String → List String → Halt → Prop
  /-- No segment is left. -/
  | arrived (done : List String) : Advances top creating done [] (.arrived done)
  /-- A dot stays in the directory. -/
  | dot {done rest : List String} {halt : Halt} {entries : List (String × Entry)}
      (stands : top.at? done = some (.directory entries))
      (later : Advances top creating done rest halt) : Advances top creating done ("." :: rest) halt
  /-- A pair of dots leaves the directory. -/
  | up {done rest : List String} {halt : Halt} {entries : List (String × Entry)}
      (stands : top.at? done = some (.directory entries))
      (later : Advances top creating done.dropLast rest halt) :
      Advances top creating done (".." :: rest) halt
  /-- The name of a link ends the walk there. -/
  | link {done : List String} {name target : String} {entries : List (String × Entry)}
      (stands : top.at? done = some (.directory entries)) (plain : name ≠ "." ∧ name ≠ "..")
      (short : isTooLong name = false)
      (found : top.at? (done ++ [name]) = some (.link target)) (rest : List String) :
      Advances top creating done (name :: rest) (.link done target rest)
  /-- The name of another entry leads to it. -/
  | down {done rest : List String} {halt : Halt} {name : String} {entry : Entry}
      {entries : List (String × Entry)} (stands : top.at? done = some (.directory entries))
      (plain : name ≠ "." ∧ name ≠ "..") (short : isTooLong name = false)
      (found : top.at? (done ++ [name]) = some entry) (no_link : ∀ target, entry ≠ .link target)
      (later : Advances top creating (done ++ [name]) rest halt) :
      Advances top creating done (name :: rest) halt
  /-- A name that is not taken is a goal for what is to be made. -/
  | fresh {done : List String} {name : String} {entries : List (String × Entry)}
      (stands : top.at? done = some (.directory entries)) (plain : name ≠ "." ∧ name ≠ "..")
      (short : isTooLong name = false) (absent : top.at? (done ++ [name]) = none)
      (creates : creating = true) :
      Advances top creating done [name] (.arrived (done ++ [name]))

theorem advance_eq_ok_iff :
    advance top creating done segments = .ok halt ↔ Advances top creating done segments halt := by
  constructor
  · intro advanced
    induction segments generalizing done with
    | nil =>
        obtain rfl := Except.ok.inj advanced
        exact .arrived done
    | cons name rest ih =>
        cases stands : top.at? done with
        | none =>
            rw [advance, stands] at advanced
            cases advanced
        | some entry =>
            cases entry with
            | file | link =>
                rw [advance, stands] at advanced
                cases advanced
            | directory entries =>
                by_cases is_dot : name = "."
                · subst is_dot
                  rw [advance_dot stands] at advanced
                  exact .dot stands (ih advanced)
                by_cases is_dots : name = ".."
                · subst is_dots
                  rw [advance_dots stands] at advanced
                  exact .up stands (ih advanced)
                cases short : isTooLong name with
                | true =>
                    rw [advance, stands] at advanced
                    dsimp only at advanced
                    rw [if_neg (by simpa using is_dot), if_neg (by simpa using is_dots),
                      if_pos short] at advanced
                    cases advanced
                | false =>
                    rw [advance_name stands ⟨is_dot, is_dots⟩ short] at advanced
                    split at advanced
                    next target found =>
                      obtain rfl := Except.ok.inj advanced
                      exact .link stands ⟨is_dot, is_dots⟩ short found rest
                    next entry no_link found =>
                      exact .down stands ⟨is_dot, is_dots⟩ short found no_link (ih advanced)
                    next absent =>
                      split at advanced
                      next ends =>
                        obtain ⟨creates, rfl⟩ : creating = true ∧ rest = [] := by simpa using ends
                        obtain rfl := Except.ok.inj advanced
                        exact .fresh stands ⟨is_dot, is_dots⟩ short absent creates
                      next => cases advanced
  · intro advances
    induction advances with
    | arrived => rfl
    | dot stands later ih => rwa [advance_dot stands]
    | up stands later ih => rwa [advance_dots stands]
    | link stands plain short found rest => rw [advance_name stands plain short, found]
    | down stands plain short found no_link later ih =>
        rw [advance_name stands plain short, found]
        split
        next same => exact absurd (Option.some.inj same) (no_link _)
        next => exact ih
        next absent => cases absent
    | fresh stands plain short absent creates =>
        rw [advance_name stands plain short, absent, creates]
        rfl

/-! ## Lookups -/

/-- Where the way to the target of a link in a directory starts. -/
def targetStart (directory : List String) (target : String) : List String :=
  if (Path.ofText target).isAbsolute then [] else directory

/-- A lookup that may meet so many links comes to its goal. -/
inductive Follows (top : Entry) (creating : Bool) :
    Nat → List String → List String → List String → Prop
  /-- No link is met. -/
  | arrives {links : Nat} {done segments goal : List String}
      (advances : Advances top creating done segments (.arrived goal)) :
      Follows top creating links done segments goal
  /-- A link is met, and the lookup goes on along its target. -/
  | onward {links : Nat} {done segments directory rest goal : List String} {target : String}
      (advances : Advances top creating done segments (.link directory target rest))
      (later : Follows top creating links (targetStart directory target)
        (targetSegments target ++ rest) goal) :
      Follows top creating (links + 1) done segments goal

theorem follow_eq_ok_iff :
    follow top creating links done segments = .ok goal ↔
      Follows top creating links done segments goal := by
  constructor
  · intro followed
    induction links generalizing done segments with
    | zero =>
        unfold follow at followed
        split at followed
        next => exact nomatch followed
        next goal advanced =>
          obtain rfl := Except.ok.inj followed
          exact .arrives (advance_eq_ok_iff.mp advanced)
        next => exact nomatch followed
    | succ links ih =>
        unfold follow at followed
        split at followed
        next => exact nomatch followed
        next goal advanced =>
          obtain rfl := Except.ok.inj followed
          exact .arrives (advance_eq_ok_iff.mp advanced)
        next directory target rest advanced =>
          exact .onward (advance_eq_ok_iff.mp advanced) (ih followed)
  · intro follows
    induction follows with
    | arrives advances =>
        unfold follow
        rw [advance_eq_ok_iff.mpr advances]
    | onward advances later ih =>
        rw [follow, advance_eq_ok_iff.mpr advances]
        exact ih

variable {tree : FileTree} {path : Path}

theorem locate_eq_ok_iff :
    tree.locate path = .ok goal ↔
      accept path = .ok () ∧
        Follows tree.top false maxLinks (tree.startOf path) path.segments goal := by
  rw [locate, check_bind_eq_ok_iff, follow_eq_ok_iff]

theorem find_eq_ok_iff {entry : Entry} :
    tree.find path = .ok entry ↔
      ∃ reached, tree.locate path = .ok reached ∧ tree.top.at? reached = some entry := by
  simp only [find, bind_eq_ok_iff]
  refine exists_congr fun reached => and_congr_right fun _ => ?_
  split
  next entry' stands =>
    rw [stands]
    exact ⟨fun same => congrArg some (Except.ok.inj same),
      fun same => congrArg Except.ok (Option.some.inj same)⟩
  next absent => exact ⟨nofun, fun stands => nomatch absent.symm.trans stands⟩

end FileTree

end CodeGraph
