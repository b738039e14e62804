import CodeGraph.Files.FileFault
import CodeGraph.Files.PathText
import CodeGraph.Text.Surrogate

/-!
# File paths

A file path is an anchor and a list of segments. Empty segments and dots never become segments;
pairs of dots do, since where they lead depends on the links of the file tree.
-/

namespace CodeGraph

/-- A path in a file tree. -/
structure Path where
  /-- The slashes in front: none for a relative path. -/
  anchor : String
  /-- The segments, none of them empty or a single dot. -/
  segments : List String
deriving DecidableEq, Repr

namespace Path

/-- Reads a written path. -/
def ofText (text : String) : Path :=
  { anchor := PathText.anchor text
    segments := (PathText.segments text).filter fun segment => segment != "" && segment != "." }

/-- The path starts at the top of the tree. -/
def isAbsolute (path : Path) : Bool :=
  path.anchor != ""

/-- An absolute path of these segments. -/
def absolute (segments : List String) : Path :=
  ⟨"/", segments⟩

/-- The path as text; the empty relative path is a dot. -/
def text (path : Path) : String :=
  let text := path.anchor ++ PathText.ofSegments path.segments
  if text.isEmpty then "." else text

/-- The path `path` as seen from `base`. -/
def join (base path : Path) : Path :=
  if path.isAbsolute then path else { base with segments := base.segments ++ path.segments }

/-- A written path as seen from `base`. -/
def below (base : Path) (text : String) : Path :=
  base.join (ofText text)

/-- The last segment; nothing for a path without segments. -/
def name (path : Path) : String :=
  path.segments.getLastD ""

/-- The path without its last segment. -/
def parent (path : Path) : Path :=
  { path with segments := path.segments.dropLast }

/-- The path of the first `count` segments. -/
def front (path : Path) (count : Nat) : Path :=
  { path with segments := path.segments.take count }

/-- What makes a name unusable, wherever it stands. -/
def nameFault? (name : String) : Option FileFault :=
  if name.toList.any Text.isUnencodable then some .unencodable
  else if name.toList.contains '\x00' then some .nul
  else none

/-- What makes the path unusable. -/
def fault? (path : Path) : Option FileFault :=
  nameFault? (PathText.ofSegments path.segments)

/-- The path with another last segment. -/
def withName (path : Path) (name : String) : Path :=
  { path with segments := path.segments.dropLast ++ [name] }

/-- All directories above a path, the nearest first. -/
def ancestors (path : Path) : List Path :=
  (List.range path.segments.length).map fun index =>
    { path with segments := path.segments.take (path.segments.length - 1 - index) }

/-- Cuts a file name in front of its last dot; a dot in front or at the end does not count. -/
def splitName (name : String) : String × String :=
  let stem := Text.beforeLast '.' name
  let extension := Text.lastPiece '.' name
  if stem.isEmpty || extension.isEmpty then (name, "") else (stem, "." ++ extension)

/-- The extension of the last segment, with its dot. -/
def suffix (path : Path) : String :=
  (splitName path.name).2

/-- The last segment without its extension. -/
def stem (path : Path) : String :=
  (splitName path.name).1

/-- Drops what two lists have in common in front. -/
def dropCommon : List String → List String → List String × List String
  | left :: lefts, right :: rights =>
      if left == right then dropCommon lefts rights else (left :: lefts, right :: rights)
  | lefts, rights => (lefts, rights)

/-- The segments that lead from the directory `base` to `path`, both without pairs of dots. -/
def relativeSegments (base path : Path) : List String :=
  let (up, down) := dropCommon base.segments path.segments
  up.map (fun _ => "..") ++ down

/-- The way from the directory `base` to `path` as text; a dot when they are the same. -/
def relativeText (base path : Path) : String :=
  (Path.mk "" (relativeSegments base path)).text

end Path

end CodeGraph
