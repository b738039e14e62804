import CodeGraph.Compiler.Options
import CodeGraph.Syntax.Source
import CodeGraph.Text.Order

/-!
# Programs

A program is the source files of a project with the options that join them into modules.
-/

namespace CodeGraph

open Syntax

/-- The source files of a project. -/
structure Program where
  /-- The tree that the project stands in. -/
  tree : FileTree
  /-- The project's root, without links. -/
  root : Path
  /-- The options that decide how modules are found. -/
  options : CompilerOptions := {}
  /-- The source files, sorted by path. -/
  files : List Source := []

/-- Why a program cannot be read. -/
inductive ProgramError where
  /-- A source file cannot be read. -/
  | unreadable (file : String)
deriving DecidableEq, Repr

namespace ProgramError

/-- The failure in words. -/
def message : ProgramError → String
  | .unreadable file =>
      "Unable to read source file " ++ file ++ ": [Errno 2] No such file or directory"

end ProgramError

namespace Program

/-- The paths of all files. -/
def paths (program : Program) : List String :=
  program.files.map (·.path)

/-- The files that hold more than type declarations. -/
def sources (program : Program) : List Source :=
  program.files.filter (!·.isDeclaration)

/-- The syntax tree of an empty file. -/
def emptyTree : Node :=
  { field := none, kind := "program", named := true, start := 0, stop := 0, children := [] }

/-- Reads the file at a path from the root. -/
def readSource (tree : FileTree) (root : Path) (path : String) : Except ProgramError Source :=
  match tree.file? (root.below path) with
  | some content =>
      .ok { path, bytes := content.bytes, root := content.tree.getD emptyTree }
  | none => .error (.unreadable path)

/-- Reads the files at these paths. -/
def read (tree : FileTree) (root : Path) (paths : List String) (options : CompilerOptions) :
    Except ProgramError Program := do
  let files ← (sortOn textLe id paths).mapM (readSource tree root)
  return { tree, root, options, files }

/-- The program with only the files at these paths. -/
def select (program : Program) (paths : List String) : Program :=
  { program with files := program.files.filter fun source => paths.contains source.path }

end Program

end CodeGraph
