import CodeGraph.Text.Pieces

/-!
# Paths as text

Module paths are worked on as texts with slashes. Normalising drops empty segments and dots and
lets each pair of dots cancel the segment before it; pairs of dots in front of a relative path
stay.
-/

namespace CodeGraph.PathText

/-- The segments of a path between slashes, empty ones included. -/
def segments (path : String) : List String :=
  Text.split '/' path

/-- Joins segments with slashes. -/
def ofSegments (segments : List String) : String :=
  String.intercalate "/" segments

/-- What a normalised path keeps of its slashes in front: none, one, or exactly two. -/
def anchor (path : String) : String :=
  if Text.startsWith path "///" then "/"
  else if Text.startsWith path "//" then "//"
  else if Text.startsWith path "/" then "/"
  else ""

/-- Takes one more segment onto the normalised segments before it, which stand in reverse order. -/
def pushSegment (anchored : Bool) (before : List String) (segment : String) : List String :=
  if segment == "" || segment == "." then
    before
  else if segment != ".." then
    segment :: before
  else
    match before with
    | [] => if anchored then [] else [".."]
    | last :: rest => if last == ".." then ".." :: before else rest

/-- The segments of the normalised path. -/
def normalSegments (path : String) : List String :=
  ((segments path).foldl (pushSegment (anchor path != "")) []).reverse

/-- What is left of the segments of an absolute path when each pair of dots cancels the segment
before it. -/
def cancelDots (segments : List String) : List String :=
  (segments.foldl (pushSegment true) []).reverse

/-- The normalised path; nothing left is written as a dot. -/
def normalize (path : String) : String :=
  let text := anchor path ++ ofSegments (normalSegments path)
  if text.isEmpty then "." else text

/-- The path `path` as seen from `base`; an absolute path stays. -/
def join (base path : String) : String :=
  if Text.startsWith path "/" then path
  else if base.isEmpty || Text.endsWith base "/" then base ++ path
  else base ++ "/" ++ path

/-- The path without its last segment. -/
def parent (path : String) : String :=
  let front := (segments path).dropLast
  let text := ofSegments front
  let trimmed := (text.toList.reverse.dropWhile (· == '/')).reverse
  if front.isEmpty then ""
  else if trimmed.isEmpty then text ++ "/"
  else String.ofList trimmed

/-- The last segment of a path. -/
def fileName (path : String) : String :=
  Text.lastPiece '/' path

/-- Cuts a path in front of the last dot of its last segment, unless only dots stand before it. -/
def splitExtension (path : String) : String × String :=
  let name := fileName path
  let stem := Text.beforeLast '.' name
  if stem.toList.any (· != '.') then
    let extension := "." ++ Text.lastPiece '.' name
    (String.ofList (path.toList.take (path.length - extension.length)), extension)
  else
    (path, "")

/-- The path leads out of the directory it starts from. -/
def leavesRoot (path : String) : Bool :=
  path == ".." || Text.startsWith path "../"

/-- Backslashes become slashes. -/
def withSlashes (path : String) : String :=
  Text.replace "\\" "/" path

end CodeGraph.PathText
