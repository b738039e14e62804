import CodeGraph.Json.Value
import CodeGraph.Syntax.Node
import CodeGraph.Text.Pieces
import CodeGraph.Text.Utf8

/-!
# Entries of a file tree

A directory holds files, symbolic links and further directories. A file carries its bytes and,
next to them, what parsers outside of this library made of it: the syntax tree of a source file,
the document of a settings file.
-/

namespace CodeGraph

/-- What a document parser made of a settings file. -/
inductive Document where
  /-- The file's document. -/
  | value (document : Json)
  /-- The file is no document. -/
  | malformed
deriving Inhabited

/-- What a file holds. -/
structure Content where
  /-- The file's bytes. -/
  bytes : ByteArray
  /-- The root of the syntax tree, for a source file. -/
  tree : Option Syntax.Node := none
  /-- The document, for a settings file. -/
  document : Option Document := none

/-- Something that stands in a directory. -/
inductive Entry where
  /-- A file. -/
  | file (content : Content)
  /-- A symbolic link. -/
  | link (target : String)
  /-- A directory. -/
  | directory (entries : List (String × Entry))

namespace Content

/-- A file that holds a text. -/
def ofText (text : String) : Content :=
  { bytes := text.toUTF8 }

/-- The file's text, if its bytes are UTF-8; lines end in a line feed. -/
def text? (content : Content) : Option String :=
  (Text.decodeStrictFrom 0 content.bytes.toList).map fun chars =>
    String.ofList (Text.unifyLineEnds chars)

/-- The file's text, ill-formed bytes replaced; lines end in a line feed. -/
def lenientText (content : Content) : String :=
  String.ofList (Text.unifyLineEnds (Text.decodeFrom 0 content.bytes.toList))

end Content

namespace Entry

/-- The entries of a directory; none for anything else. -/
def entries : Entry → List (String × Entry)
  | .directory entries => entries
  | _ => []

/-- The entry is a directory. -/
def isDirectory : Entry → Bool
  | .directory _ => true
  | _ => false

/-- The entry is a file. -/
def isFile : Entry → Bool
  | .file _ => true
  | _ => false

/-- What stands at a place below an entry; links are not followed. -/
def at? : List String → Entry → Option Entry
  | [], entry => some entry
  | name :: rest, entry => (entry.entries.lookup name).bind (at? rest)

/-- Puts an entry at a place, making the directories on the way. -/
def put (entry : Entry) : List String → Entry → Entry
  | [], _ => entry
  | name :: rest, place =>
      let inner := (place.entries.lookup name).getD (.directory [])
      .directory (Ordered.set place.entries name (put entry rest inner))

mutual

/-- The files at and below an entry, each with its place; links are not followed. -/
def files (place : List String) : Entry → List (List String × Content)
  | .file content => [(place, content)]
  | .link _ => []
  | .directory entries => filesOfAll place entries

/-- The files at and below the entries of a directory. -/
def filesOfAll (place : List String) : List (String × Entry) → List (List String × Content)
  | [] => []
  | (name, entry) :: entries => files (place ++ [name]) entry ++ filesOfAll place entries

end

mutual

/-- How many files and links stand at and below an entry. -/
def leafCount : Entry → Nat
  | .file _ => 1
  | .link _ => 1
  | .directory entries => leafCountAll entries

/-- How many files and links stand at and below the entries of a directory. -/
def leafCountAll : List (String × Entry) → Nat
  | [] => 0
  | (_, entry) :: entries => leafCount entry + leafCountAll entries

end

end Entry

end CodeGraph
