import CodeGraph.Draft.Program
import CodeGraph.Json.Parser
import CodeGraph.Modules.ImportGraph

/-!
# Which frameworks a project uses

A project uses React when it depends on it, when its compiler options compile JSX for it, or when
JSX stands in one of its JSX files. It uses Angular when it depends on it or imports it.
-/

namespace CodeGraph

open Syntax

namespace Frameworks

/-- The sections of a package manifest that name dependencies. -/
def dependencySections : List String :=
  ["dependencies", "devDependencies", "peerDependencies"]

/-- The dependencies that a package manifest names. -/
def namedDependencies (manifest : Json) : List String :=
  dependencySections.flatMap fun name =>
    (((manifest.member? name).map (·.members)).getD []).map (·.1)

/-- What a package manifest tells. -/
inductive Manifest where
  /-- There is none. -/
  | absent
  /-- It cannot be read. -/
  | broken
  /-- It names these dependencies. -/
  | dependencies (names : List String)
deriving DecidableEq, Repr

namespace Manifest

/-- The dependencies of the project. -/
def names : Manifest → List String
  | .dependencies names => names
  | _ => []

end Manifest

/-- Reads the package manifest at a project's root. A manifest whose values stand too deeply inside
of each other is not just broken. -/
def readManifest (tree : FileTree) (root : Path) : Except Json.ReadFault Manifest :=
  match tree.file? (root.below "package.json") with
  | none => .ok .absent
  | some content =>
      match content.text?.map (Json.parse .standard) with
      | some (.ok manifest) => .ok (.dependencies (namedDependencies manifest))
      | some (.error .tooDeep) => .error .tooDeep
      | _ => .ok .broken

/-- The node is an element of JSX. -/
def isJsxElement (node : Node) : Bool :=
  node.isOneOf ["jsx_element", "jsx_self_closing_element"]

/-- The project uses React. -/
def usesReact (program : Program) (dependencies : List String) : Bool :=
  dependencies.contains "react"
    || Text.startsWith (Text.lower (program.options.jsx.getD "")) "react"
    || program.sources.any fun source => source.isJsx && source.root.preorder.any isJsxElement

/-- The module that every Angular application imports. -/
def angularCore : String := "@angular/core"

/-- The project uses Angular. -/
def usesAngular (program : Program) (dependencies : List String) : Bool :=
  dependencies.contains angularCore
    || program.sources.any fun source =>
        (Modules.references source).any (·.specifier == angularCore)

end Frameworks

end CodeGraph
