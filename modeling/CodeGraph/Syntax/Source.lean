import CodeGraph.Files.Path
import CodeGraph.Syntax.Node
import CodeGraph.Text.Lower
import CodeGraph.Text.Utf8

/-!
# Source files

A source file is its path in the project, its bytes and its syntax tree. Nodes are read through
the file: their text is a stretch of its bytes, and positions count lines and bytes from one.
-/

namespace CodeGraph.Syntax

/-- A source file of a project. -/
structure Source where
  /-- The path from the project's root. -/
  path : String
  /-- What the file holds. -/
  bytes : ByteArray
  /-- The root of its syntax tree. -/
  root : Node

/-- The path names a file that declares types only. -/
def isDeclarationPath (path : String) : Bool :=
  [".d.ts", ".d.mts", ".d.cts"].any fun ending => Text.endsWith (Text.lower path) ending

/-- The grammar that a file is read with. -/
def grammarFor (path : String) : String :=
  if [".ts", ".mts", ".cts"].contains (Text.lower (Path.ofText path).suffix) then "typescript"
  else "tsx"

/-- The text between a pair of equal quotes; any other text stays. -/
def stripQuotes (text : String) : String :=
  match text.toList with
  | [] => text
  | [_] => text
  | opening :: rest =>
      if ['\x27', '\x22', '\x60'].contains opening && rest.getLast? == some opening then
        String.ofList rest.dropLast
      else
        text

namespace Source

/-- The file declares types only. -/
def isDeclaration (source : Source) : Bool :=
  isDeclarationPath source.path

/-- The directory of the file, empty for the project's root. -/
def directory (source : Source) : String :=
  PathText.ofSegments (Path.ofText source.path).parent.segments

/-- The file's name without its extension. -/
def stem (source : Source) : String :=
  (Path.ofText source.path).stem

/-- The file's extension says that it holds JSX. -/
def isJsx (source : Source) : Bool :=
  [".tsx", ".jsx"].contains (Text.lower (Path.ofText source.path).suffix)

/-- The text of a node. -/
def text (source : Source) (node : Node) : String :=
  Text.decodeLenient (source.bytes.extract node.start node.stop).toList

/-- The text of a node that may be absent. -/
def textOf (source : Source) : Option Node → String
  | some node => source.text node
  | none => ""

/-- The bytes in front of a node. -/
def before (source : Source) (node : Node) : List UInt8 :=
  (source.bytes.extract 0 node.start).toList

/-- The line of a node's first byte, counted from one. -/
def lineOf (source : Source) (node : Node) : Nat :=
  (source.before node).count 10 + 1

/-- The column of a node's first byte in bytes, counted from one. -/
def columnOf (source : Source) (node : Node) : Nat :=
  ((source.before node).reverse.takeWhile (· != 10)).length + 1

/-- The text of a node without its quotes. -/
def unquoted (source : Source) (node : Node) : String :=
  stripQuotes (source.text node)

/-- The value of a string literal. -/
def stringValue? (source : Source) (node : Option Node) : Option String :=
  match node with
  | some node =>
      if node.isOneOf ["string", "template_string"] then some (source.unquoted node) else none
  | none => none

/-- The value that an object literal gives a key; a shorthand entry is its own value. A pair
without a value ends the search. -/
def property? (source : Source) (object : Node) (key : String) : Option Node :=
  let entry? := object.namedChildren.find? fun entry =>
    (entry.kind == "shorthand_property_identifier" && source.text entry == key)
      || (entry.kind == "pair" && stripQuotes (source.textOf (entry.childIn? "key")) == key)
  match entry? with
  | some entry => if entry.kind == "pair" then entry.childIn? "value" else some entry
  | none => none

end Source

end CodeGraph.Syntax
