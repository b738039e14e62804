import CodeGraph.Files.Entry
import CodeGraph.Files.FileFault
import CodeGraph.Files.Path

/-!
# File trees

A file tree is a top directory, a working directory from which relative paths start, and the home
directories of users. Looking a path up walks along its segments and follows links; each segment
has to be found in a directory, so a pair of dots behind a file leads nowhere. One lookup follows
a bounded number of links, so links in a circle lead nowhere either.
-/

namespace CodeGraph

/-- Where a walk along segments comes to a halt. -/
inductive Halt where
  /-- All segments are used up at this place. -/
  | arrived (place : List String)
  /-- A link stands in the way; its directory, its target and the segments behind it. -/
  | link (directory : List String) (target : String) (rest : List String)
deriving DecidableEq, Repr

/-- A file tree, with the directory from which relative paths start. -/
structure FileTree where
  /-- The top directory. -/
  top : Entry
  /-- The working directory. -/
  workingDirectory : List String := []
  /-- The home directories of users by name; the empty name is that of the user at work. -/
  homes : List (String × Path) := []

namespace FileTree

/-- The most bytes that a name has. -/
def maxNameBytes : Nat := 255

/-- Every path has fewer bytes than these. -/
def maxPathBytes : Nat := 4096

/-- The number of links that one lookup follows. -/
def maxLinks : Nat := 40

/-- The name has too many bytes. -/
def isTooLong (name : String) : Bool :=
  maxNameBytes < name.utf8ByteSize

/-- The segments of a link's target. A slash at the end asks for a directory, and the dot that
stands for it does the same. -/
def targetSegments (target : String) : List String :=
  let segments := (PathText.segments target).filter (· != "")
  if Text.endsWith target "/" then segments ++ ["."] else segments

/-- Walks along segments until they are used up or a link stands in the way. A walk that may end
where nothing stands yet does so in a directory that exists. -/
def advance (top : Entry) (creating : Bool) : List String → List String → Except FileFault Halt
  | done, [] => .ok (.arrived done)
  | done, name :: rest =>
      match top.at? done with
      | none => .error .missing
      | some (.directory entries) =>
          if name == "." then
            advance top creating done rest
          else if name == ".." then
            advance top creating done.dropLast rest
          else if isTooLong name then
            .error .tooLong
          else
            match entries.lookup name with
            | some (.link target) => .ok (.link done target rest)
            | some _ => advance top creating (done ++ [name]) rest
            | none =>
                if creating && rest.isEmpty then .ok (.arrived (done ++ [name]))
                else .error .missing
      | some _ => .error .notDirectory

/-- Walks along segments and follows at most `links` links. -/
def follow (top : Entry) (creating : Bool) : (links : Nat) → List String → List String →
    Except FileFault (List String)
  | links, done, rest =>
      match advance top creating done rest with
      | .error fault => .error fault
      | .ok (.arrived place) => .ok place
      | .ok (.link directory target rest) =>
          match links with
          | 0 => .error .tooManyLinks
          | links + 1 =>
              follow top creating links (if (Path.ofText target).isAbsolute then [] else directory)
                (targetSegments target ++ rest)

/-- The place where a path starts. -/
def startOf (tree : FileTree) (path : Path) : List String :=
  if path.isAbsolute then [] else tree.workingDirectory

/-- Refuses a path that no operation takes. -/
def accept (path : Path) : Except FileFault Unit :=
  match path.fault? with
  | some fault => .error fault
  | none => if maxPathBytes ≤ path.text.utf8ByteSize then .error .tooLong else .ok ()

/-- The place that a path leads to, links followed. -/
def locate (tree : FileTree) (path : Path) : Except FileFault (List String) := do
  accept path
  follow tree.top false maxLinks (tree.startOf path) path.segments

/-- What stands at a path, links followed. -/
def find (tree : FileTree) (path : Path) : Except FileFault Entry := do
  match tree.top.at? (← tree.locate path) with
  | some entry => return entry
  | none => throw .missing

/-- What stands at a path, if something does. A way that leads nowhere is no fault; a name that
is too long to be looked up is one. -/
def find? (tree : FileTree) (path : Path) : Except FileFault (Option Entry) :=
  match tree.find path with
  | .ok entry => .ok (some entry)
  | .error .tooLong => .error .tooLong
  | .error _ => .ok none

/-- A directory stands at the path. -/
def isDirectory (tree : FileTree) (path : Path) : Except FileFault Bool := do
  return (← tree.find? path).any (·.isDirectory)

/-- A file stands at the path. -/
def isFile (tree : FileTree) (path : Path) : Except FileFault Bool := do
  return (← tree.find? path).any (·.isFile)

/-- The file at a path, if it can be read. -/
def file? (tree : FileTree) (path : Path) : Option Content :=
  match tree.find path with
  | .ok (.file content) => some content
  | _ => none

/-- The path with the home directory that a tilde in front of it means. -/
def expandHome (tree : FileTree) (path : Path) : Except FileFault Path :=
  match path.segments with
  | [] => .ok path
  | first :: rest =>
      if path.isAbsolute || !Text.startsWith first "~" then
        .ok path
      else
        match tree.homes.lookup (String.ofList (first.toList.drop 1)) with
        | some home => .ok { home with segments := home.segments ++ rest }
        | none => .error ((Path.nameFault? first).getD .unknownHome)

/-- Puts an entry at a place without links. -/
def put (tree : FileTree) (place : List String) (entry : Entry) : FileTree :=
  { tree with top := Entry.put entry place tree.top }

end FileTree

end CodeGraph
