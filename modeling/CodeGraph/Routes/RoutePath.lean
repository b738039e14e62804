import CodeGraph.Text.Pieces

/-!
# Route paths

The path of a route is relative to the route around it, unless it begins with a slash.
-/

namespace CodeGraph.RoutePath

/-- A segment without the slashes at its ends. -/
def trimSlashes (segment : String) : String :=
  Text.trimAll ['/'] segment

/-- Joins segments with single slashes; empty segments disappear. -/
def joinSegments (segments : List String) : String :=
  String.intercalate "/" ((segments.map trimSlashes).filter (!·.isEmpty))

/-- The whole path of a route inside of a route with the whole path `parent`. -/
def full (parent path : String) : String :=
  if Text.startsWith path "/" then "/" ++ joinSegments [path]
  else "/" ++ joinSegments [parent, path]

end CodeGraph.RoutePath
