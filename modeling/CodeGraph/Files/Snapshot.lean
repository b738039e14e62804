import CodeGraph.Files.Resolution
import CodeGraph.Syntax.Encoding
import CodeGraph.Text.Base64

/-!
# Snapshots

A snapshot is a JSON object that maps paths to files. A file is its text, or an object with its
text or its bytes and what parsers made of it. A link is an object with its target, and a path
that ends in a slash is a directory.
-/

namespace CodeGraph.Snapshot

/-- The bytes of a file. -/
def bytesOf (file : Json) : ByteArray :=
  match file with
  | .text text => text.toUTF8
  | _ =>
      match (file.member? "b64").bind Json.text? with
      | some letters => Text.bytesOfLetters letters
      | none => (((file.member? "text").bind Json.text?).getD "").toUTF8

/-- The document that comes with a settings file. -/
def documentOf? (file : Json) : Option Document :=
  if ((file.member? "yaml_error").map (·.isTruthy)).getD false then some .malformed
  else (file.member? "yaml").map Document.value

/-- What a file holds. -/
def contentOf (file : Json) : Content :=
  { bytes := bytesOf file
    tree := (file.member? "tree").bind Syntax.Node.ofJson?
    document := documentOf? file }

/-- What stands at a path. -/
def entryOf (path : String) (file : Json) : Entry :=
  if Text.endsWith path "/" then .directory []
  else
    match (file.member? "link").bind Json.text? with
    | some target => .link target
    | none => .file (contentOf file)

/-- Puts the files of a snapshot below a directory of a tree. -/
def mount (tree : FileTree) (root : Path) (files : Json) : FileTree :=
  files.members.foldl
    (fun tree (path, file) => tree.put (root.below path).segments (entryOf path file))
    (tree.put root.segments (.directory []))

/-- A tree that holds a snapshot in its working directory and nothing else. -/
def treeAt (root : Path) (files : Json) : FileTree :=
  mount { top := .directory [], workingDirectory := root.segments } root files

end CodeGraph.Snapshot
