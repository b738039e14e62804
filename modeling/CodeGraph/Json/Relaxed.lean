import CodeGraph.Text.Blank
import CodeGraph.Json.Parser

/-!
# Relaxed JSON

Configuration files may hold comments and a comma in front of a closing bracket. Comments are
dropped by a scanner with four modes; a comment marker inside a string literal stays. A comma is
dropped wherever only blanks stand between it and a closing bracket or brace.
-/

namespace CodeGraph.Json

/-- Where the comment scanner stands. -/
inductive CommentMode where
  /-- Outside of strings and comments. -/
  | code
  /-- Inside a string literal. -/
  | literal
  /-- Inside a comment that the line ends. -/
  | line
  /-- Inside a comment that a star and a slash end. -/
  | block
deriving DecidableEq, Repr

/-- The text without its comments, from a mode on. -/
def stripFrom : CommentMode → List Char → List Char
  | _, [] => []
  | .code, '\x22' :: rest => '\x22' :: stripFrom .literal rest
  | .code, '/' :: '/' :: rest => stripFrom .line rest
  | .code, '/' :: '*' :: rest => stripFrom .block rest
  | .code, char :: rest => char :: stripFrom .code rest
  | .literal, '\\' :: char :: rest => '\\' :: char :: stripFrom .literal rest
  | .literal, '\x22' :: rest => '\x22' :: stripFrom .code rest
  | .literal, char :: rest => char :: stripFrom .literal rest
  | .line, '\n' :: rest => '\n' :: stripFrom .code rest
  | .line, _ :: rest => stripFrom .line rest
  | .block, '*' :: '/' :: rest => stripFrom .code rest
  | .block, _ :: rest => stripFrom .block rest

/-- The text without its comments. -/
def stripComments (text : String) : String :=
  String.ofList (stripFrom .code text.toList)

/-- A closing bracket or brace comes next, blanks aside. -/
def closesNext (chars : List Char) : Bool :=
  match chars.dropWhile Text.isBlank with
  | char :: _ => char == '\x7d' || char == ']'
  | [] => false

/-- The text without the commas that stand in front of a closing bracket or brace. -/
def dropTrailingCommas : List Char → List Char
  | [] => []
  | char :: rest =>
      if char == ',' && closesNext rest then dropTrailingCommas rest
      else char :: dropTrailingCommas rest

/-- Reads a JSON text with comments and trailing commas, within limits. -/
def parseRelaxed (limits : Limits) (text : String) : Except ReadFault Json :=
  parseChars limits (dropTrailingCommas (stripFrom .code text.toList))

end CodeGraph.Json
