import CodeGraph.Files.Resolution
import CodeGraph.Inventory.ExcludeRule
import CodeGraph.Notice
import CodeGraph.Text.Lower
import CodeGraph.Text.Order

/-!
# The inventory of a project

The inventory lists the source files of a project by their paths from its root, in order. A walk
descends into directories, but neither through links nor into excluded ones.
-/

namespace CodeGraph

/-- The source files of a project. -/
structure Inventory where
  /-- The project's root. -/
  root : Path
  /-- The paths of the files kept, in order. -/
  files : List String
  /-- How many files there are before the list is cut. -/
  filesFound : Nat
deriving DecidableEq, Repr

/-- Why a project cannot be listed. -/
inductive ScanError where
  /-- Nothing stands at the path. -/
  | notFound (path : String)
  /-- What stands at the path is no directory. -/
  | notDirectory (path : String)
  /-- The path cannot be followed. -/
  | file (fault : FileFault)
deriving DecidableEq, Repr

namespace ScanError

/-- The failure in words. -/
def message : ScanError → String
  | .notFound path => "Project path not found: " ++ path
  | .notDirectory path => "Project path is not a directory: " ++ path
  | .file fault => fault.message

/-- How the failure is treated. -/
def sort : ScanError → FailureSort
  | .file fault => fault.sort
  | _ => .refusal

end ScanError

namespace Inventory

/-- The name of the inventory's format. -/
def schema : String := "file-inventory-v1"

/-- The endings of source files. -/
def sourceSuffixes : List String :=
  [".ts", ".tsx", ".js", ".jsx", ".mjs", ".cjs", ".mts", ".cts"]

/-- The name is that of a source file. -/
def isSourceName (name : String) : Bool :=
  sourceSuffixes.any fun ending => Text.endsWith (Text.lower name) ending

/-- Some rule excludes the path. -/
def isExcluded (rules : List ExcludeRule) (path : String) (isDirectory : Bool) : Bool :=
  rules.any fun rule => rule.excludes path isDirectory

/-- The path of a name in a directory. -/
def pathIn (directory name : String) : String :=
  if directory.isEmpty then name else directory ++ "/" ++ name

/-- A file with this name is listed. -/
def lists (rules : List ExcludeRule) (directory name : String) : Bool :=
  isSourceName name && !isExcluded rules (pathIn directory name) false

mutual

/-- The source files at and below an entry; `linksToDirectory` tells whether the link at a path
leads to a directory. -/
def walk (rules : List ExcludeRule) (linksToDirectory : String → Bool) (directory name : String) :
    Entry → List String
  | .file _ => if lists rules directory name then [pathIn directory name] else []
  | .link _ =>
      if !linksToDirectory (pathIn directory name) && lists rules directory name then
        [pathIn directory name]
      else
        []
  | .directory entries =>
      if isExcluded rules (pathIn directory name) true then []
      else walkAll rules linksToDirectory (pathIn directory name) entries

/-- The source files at and below the entries of a directory. -/
def walkAll (rules : List ExcludeRule) (linksToDirectory : String → Bool) (directory : String) :
    List (String × Entry) → List String
  | [] => []
  | (name, entry) :: entries =>
      walk rules linksToDirectory directory name entry
        ++ walkAll rules linksToDirectory directory entries

end

/-- The limit that a number of files sets; zero and less set none. -/
def limit (maxFiles : Option Int) : Option Nat :=
  match maxFiles with
  | some count => if 0 < count then some count.toNat else none
  | none => none

/-- Sorts the files found and cuts the list to the limit. -/
def ofFound (root : Path) (found : List String) (maxFiles : Option Int) : Inventory :=
  let sorted := sortOn textLe id found
  { root
    files :=
      match limit maxFiles with
      | some count => sorted.take count
      | none => sorted
    filesFound := sorted.length }

/-- The list has been cut. -/
def isTruncated (inventory : Inventory) : Bool :=
  inventory.files.length < inventory.filesFound

/-- The root that a written path leads to, and what stands there. -/
def locate (tree : FileTree) (written : String) : Except FileFault (Path × Option Entry) := do
  let root ← tree.resolve (← tree.expandHome (Path.ofText written))
  return (root, ← tree.find? root)

/-- The path leads to a directory. -/
def leadsToDirectory (tree : FileTree) (path : Path) : Bool :=
  match tree.find path with
  | .ok entry => entry.isDirectory
  | .error _ => false

/-- Lists the source files below the directory at a written path. -/
def scan (tree : FileTree) (written : String) (rules : List ExcludeRule)
    (maxFiles : Option Int) : Except ScanError Inventory := do
  match ← (locate tree written).mapError ScanError.file with
  | (_, none) => throw (.notFound written)
  | (root, some (.directory entries)) =>
      let linksToDirectory (path : String) : Bool := leadsToDirectory tree (root.below path)
      return ofFound root (walkAll rules linksToDirectory "" entries) maxFiles
  | (_, some _) => throw (.notDirectory written)

/-- The notices that a finished listing gives. -/
def notices (inventory : Inventory) : List Notice :=
  (if inventory.isTruncated then
    [{ level := .info
       message := "Truncating " ++ toString inventory.filesFound
         ++ " source files to the first " ++ toString inventory.files.length }]
  else
    [])
  ++ [{ level := .debug
        message := "Scanned " ++ toString inventory.files.length ++ " source files under "
          ++ inventory.root.text }]

/-- The inventory as JSON. -/
def toJson (inventory : Inventory) : Json :=
  .object [("schema", .text schema), ("sourceRoot", .text inventory.root.text),
    ("files", .list (inventory.files.map .text))]

end Inventory

end CodeGraph
