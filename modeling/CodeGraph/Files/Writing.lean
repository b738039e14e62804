import CodeGraph.Files.Resolution

/-!
# Changing a file tree

Directories are made together with those above them. A file is opened, which follows links, or
replaced as a whole, which does not: a scratch file is made beside it and takes its place.
-/

namespace CodeGraph.FileTree

/-- Goes on from the tree that an operation leaves, unless it has failed. -/
def onward {ε : Type} (outcome : FileTree × Option ε) (next : FileTree → FileTree × Option ε) :
    FileTree × Option ε :=
  match outcome with
  | (tree, none) => next tree
  | (tree, some error) => (tree, some error)

@[simp]
theorem onward_none {ε : Type} (tree : FileTree) (next : FileTree → FileTree × Option ε) :
    onward (tree, none) next = next tree :=
  rfl

@[simp]
theorem onward_some {ε : Type} (tree : FileTree) (error : ε)
    (next : FileTree → FileTree × Option ε) :
    onward (tree, some error) next = (tree, some error) :=
  rfl

/-- The place of the directory that a path leads to. -/
def locateDirectory (tree : FileTree) (path : Path) : Except FileFault (List String) := do
  let place ← tree.locate path
  match tree.top.at? place with
  | some (.directory _) => return place
  | some _ => throw .notDirectory
  | none => throw .missing

/-- Makes a directory in one that exists. -/
def makeOneDirectory (tree : FileTree) (path : Path) : Except FileFault FileTree := do
  accept path
  match path.segments with
  | [] => throw .taken
  | _ :: _ =>
      let directory ← tree.locateDirectory path.parent
      if path.name == ".." then
        throw .taken
      else if isTooLong path.name then
        throw .tooLong
      else
        match tree.top.at? (directory ++ [path.name]) with
        | some _ => throw .taken
        | none => return tree.put (directory ++ [path.name]) (.directory [])

/-- What is left of a fault when a directory at the path will do. -/
def faultUnlessPresent (tree : FileTree) (path : Path) (fault : FileFault) : Option FileFault :=
  match tree.isDirectory path with
  | .ok true => none
  | .ok false => some fault
  | .error other => some other

/-- Makes a directory in one that exists, unless it stands there already. -/
def ensureDirectory (tree : FileTree) (path : Path) : FileTree × Option FileFault :=
  match tree.makeOneDirectory path with
  | .ok tree => (tree, none)
  | .error fault => (tree, tree.faultUnlessPresent path fault)

/-- Makes the directory that the first segments of a path lead to, and those above it. A directory
that stands there already will do. What has been made stays when a later step fails. -/
def makeDirectoriesAt (tree : FileTree) (path : Path) :
    (count : Nat) → FileTree × Option FileFault
  | 0 => tree.ensureDirectory (path.front 0)
  | count + 1 =>
      let front := path.front (count + 1)
      match tree.makeOneDirectory front with
      | .error .missing => onward (makeDirectoriesAt tree path count) (ensureDirectory · front)
      | _ => tree.ensureDirectory front

/-- Makes a directory and those above it, as far as that is possible. -/
def makeDirectories (tree : FileTree) (path : Path) : FileTree × Option FileFault :=
  tree.makeDirectoriesAt path path.segments.length

/-- The tree with a directory and those above it, if all of them can be made. -/
def makeDirectory (tree : FileTree) (path : Path) : Except FileFault FileTree :=
  match tree.makeDirectories path with
  | (tree, none) => .ok tree
  | (_, some fault) => .error fault

/-- The place of the file that is written when a path is opened: the one that links lead to, also
where nothing stands yet. -/
def locateWritable (tree : FileTree) (path : Path) : Except FileFault (List String) := do
  accept path
  let place ← follow tree.top true maxLinks (tree.startOf path) path.segments
  match tree.top.at? place with
  | some (.directory _) => throw .isDirectory
  | _ => return place

/-- Writes the file at a path, whose directory exists. -/
def writeFile (tree : FileTree) (path : Path) (content : Content) :
    Except FileFault FileTree := do
  return tree.put (← tree.locateWritable path) (.file content)

/-- The bytes that the name of a scratch file has more than the name of the file. -/
def scratchBytes : Nat := 14

/-- Refuses a path beside which no scratch file can be made. Its directory is looked for with the
pairs of dots cancelled. -/
def acceptScratch (tree : FileTree) (path : Path) : Except FileFault Unit := do
  if let some fault := path.fault? then
    throw fault
  let directory := tree.lexical path.parent
  discard (tree.locateDirectory directory)
  if maxNameBytes < path.name.utf8ByteSize + scratchBytes
      || maxPathBytes ≤ (directory.below path.name).text.utf8ByteSize + scratchBytes then
    throw .tooLong

/-- Puts a file in the place of the one at a path, or of the link there. -/
def replaceFile (tree : FileTree) (path : Path) (content : Content) :
    Except FileFault FileTree := do
  accept path
  if path.segments.isEmpty || path.name == ".." then
    throw .busy
  let directory ← tree.locateDirectory path.parent
  match tree.top.at? (directory ++ [path.name]) with
  | some (.directory _) => throw .isDirectory
  | _ => return tree.put (directory ++ [path.name]) (.file content)

end CodeGraph.FileTree
