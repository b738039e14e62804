import CodeGraph.Files.FileTree

/-!
# Resolved paths

Resolving a path names the place that it leads to, whether or not something stands there: links
are replaced by what they lead to, and a pair of dots takes the last segment away. Unlike a
lookup, a resolution follows any number of links, and each link once. On a link that it is
following already it stops: what it has got and the rest of the way, each pair of dots cancelling
the segment before it, is then the answer, unless that leads into the circle again.
-/

namespace CodeGraph

/-- How far a resolution has got. -/
structure Resolving where
  /-- The place reached. -/
  place : List String
  /-- The links met, each with the place it leads to once that is known. -/
  links : List (List String × Option (List String)) := []
deriving DecidableEq, Repr

/-- Why a resolution ends early. -/
inductive Interruption where
  /-- A segment is unusable. -/
  | unusable (fault : FileFault)
  /-- A link is being followed already; the way to it with the segments behind it. -/
  | circle (way : List String)
deriving DecidableEq, Repr

namespace Resolving

/-- Goes along segments. A link that has not been met before is left to `followLink`, which takes
the state in front of its target. -/
def walk (top : Entry) (followLink : Resolving → String → Except Interruption Resolving) :
    List String → Resolving → Except Interruption Resolving
  | [], state => .ok state
  | name :: rest, state =>
      let place := state.place ++ [name]
      if name == ".." then
        walk top followLink rest { state with place := state.place.dropLast }
      else
        match Path.nameFault? name, top.at? place with
        | some fault, _ => .error (.unusable fault)
        | none, some (.link target) =>
            match state.links.lookup place with
            | some (some known) => walk top followLink rest { state with place := known }
            | some none => .error (.circle (place ++ rest))
            | none =>
                match followLink { state with links := (place, none) :: state.links } target with
                | .ok inner =>
                    walk top followLink rest
                      { inner with links := (place, some inner.place) :: inner.links }
                | .error (.circle way) => .error (.circle (way ++ rest))
                | .error (.unusable fault) => .error (.unusable fault)
        | none, _ => walk top followLink rest { state with place }

/-- Follows a link to its target, with at most `depth` links inside of each other. As many as
there are links is enough, since no link is followed inside of itself. -/
def followLink (top : Entry) : (depth : Nat) → Resolving → String → Except Interruption Resolving
  | 0, state, _ => .ok state
  | depth + 1, state, target =>
      let path := Path.ofText target
      walk top (followLink top depth) path.segments
        { state with place := if path.isAbsolute then [] else state.place }

end Resolving

namespace FileTree

/-- The absolute path that is left when each pair of dots cancels the segment before it, links or
not. -/
def lexical (tree : FileTree) (path : Path) : Path :=
  Path.absolute (PathText.cancelDots (tree.startOf path ++ path.segments))

/-- The absolute path without links and pairs of dots that a path leads to. -/
def resolve (tree : FileTree) (path : Path) : Except FileFault Path :=
  match Resolving.walk tree.top (Resolving.followLink tree.top (Entry.leafCount tree.top))
      path.segments { place := tree.startOf path } with
  | .ok state => .ok (Path.absolute state.place)
  | .error (.unusable fault) => .error fault
  | .error (.circle way) =>
      let path := Path.absolute (PathText.cancelDots way)
      match path.fault?, tree.find path with
      | some fault, _ => .error fault
      | none, .error .tooManyLinks => .error .circular
      | none, _ => .ok path

end FileTree

end CodeGraph
