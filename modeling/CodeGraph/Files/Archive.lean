import CodeGraph.Files.Writing

/-!
# Archives

An archive is a list of named files and directories. Unpacking puts them below a destination, one
after the other; a name that leads out of the destination ends it, and so does a place that is
taken. What was made before stays.
-/

namespace CodeGraph

/-- A file or a directory in an archive; the name of a directory ends in a slash. -/
structure ArchiveMember where
  /-- The written name. -/
  name : String
  /-- What the file holds. -/
  content : Content

/-- What has been received as an archive. -/
inductive Archive where
  /-- The members in order. -/
  | listing (members : List ArchiveMember)
  /-- Something that is no archive. -/
  | malformed

/-- Why unpacking ends. -/
inductive ArchiveError where
  /-- What was received is no archive. -/
  | notArchive
  /-- The name leads out of the destination. -/
  | leaves (name : String)
  /-- A file or a directory cannot be made. -/
  | file (fault : FileFault)
deriving DecidableEq, Repr

namespace ArchiveError

/-- The failure in words. -/
def message : ArchiveError → String
  | .notArchive => "inputZip is not a valid zip archive: File is not a zip file"
  | .leaves name => "Unsafe zip entry path: " ++ name
  | .file fault => fault.message

/-- How the failure is treated. -/
def sort : ArchiveError → FailureSort
  | .file fault => fault.sort
  | _ => .refusal

end ArchiveError

namespace ArchiveMember

/-- The name as far as it counts: up to the first NUL character. -/
def effectiveName (member : ArchiveMember) : String :=
  String.ofList (member.name.toList.takeWhile (· != '\x00'))

/-- The member is a directory. -/
def isDirectory (member : ArchiveMember) : Bool :=
  Text.endsWith member.effectiveName "/"

end ArchiveMember

namespace Archive

/-- The path lies in the directory, or is the directory itself. -/
def isWithin (directory path : Path) : Bool :=
  directory.anchor == path.anchor && directory.segments.isPrefixOf path.segments

/-- Makes what a member stands for at its target. -/
def make (tree : FileTree) (target : Path) (member : ArchiveMember) :
    FileTree × Option FileFault :=
  if member.isDirectory then
    tree.makeDirectories target
  else
    FileTree.onward (tree.makeDirectories target.parent) fun tree =>
      match tree.writeFile target member.content with
      | .ok tree => (tree, none)
      | .error fault => (tree, some fault)

/-- Unpacks one member below a directory without links. -/
def unpackMember (tree : FileTree) (root : Path) (member : ArchiveMember) :
    FileTree × Option ArchiveError :=
  match tree.resolve (root.below member.effectiveName) with
  | .error fault => (tree, some (.file fault))
  | .ok target =>
      if isWithin root target then
        let (tree, fault) := make tree target member
        (tree, fault.map .file)
      else
        (tree, some (.leaves member.effectiveName))

/-- Unpacks members in order until one fails. -/
def unpackAll (root : Path) : List ArchiveMember → FileTree → FileTree × Option ArchiveError
  | [], tree => (tree, none)
  | member :: members, tree =>
      FileTree.onward (unpackMember tree root member) (unpackAll root members)

/-- Makes the directory into which an archive is unpacked, and resolves its path. -/
def openDestination (tree : FileTree) (destination : Path) : FileTree × Except FileFault Path :=
  match tree.makeDirectories destination with
  | (tree, none) => (tree, tree.resolve destination)
  | (tree, some fault) => (tree, .error fault)

/-- Unpacks an archive into a directory, which is made if it is not there. -/
def unpack (archive : Archive) (tree : FileTree) (destination : Path) :
    FileTree × Option ArchiveError :=
  match openDestination tree destination with
  | (tree, .error fault) => (tree, some (.file fault))
  | (tree, .ok root) =>
      match archive with
      | .malformed => (tree, some .notArchive)
      | .listing members => unpackAll root members tree

end Archive

end CodeGraph
