import CodeGraph.Json.Value
import CodeGraph.Text.Pieces

/-!
# Settings texts that come without a document

A file that is named as settings and has no document is read as what it most likely is: one plain
text over one or more lines. A colon in front of a blank would begin a mapping; it may do so on
the first line only, and further down it is an error, which is shown with the line it stands in.
-/

namespace CodeGraph

/-- A place in a text, for messages. -/
structure TextMark where
  /-- The line, counted from one. -/
  line : Nat
  /-- The column, counted from one. -/
  column : Nat
  /-- The part of the line in front of the place. -/
  before : List Char
  /-- The part of the line from the place on. -/
  after : List Char
deriving DecidableEq, Repr

namespace TextMark

/-- The most characters that are shown on each side of a place. -/
def reach : Nat := 36

/-- The line around the place, cut on both sides where it is long, and a pointer below it. -/
def snippet (mark : TextMark) : List String :=
  let headCut := reach < mark.before.length
  let shownBefore :=
    if headCut then mark.before.drop (mark.before.length - (reach + 1) + 5) else mark.before
  let head := if headCut then " ... " else ""
  let tailCut := reach < mark.after.length
  let shownAfter := if tailCut then mark.after.take (reach + 1 - 5) else mark.after
  let tail := if tailCut then " ... " else ""
  let spaces (count : Nat) : String := String.ofList (List.replicate count ' ')
  [spaces 4 ++ head ++ String.ofList (shownBefore ++ shownAfter) ++ tail,
    spaces (4 + shownBefore.length + head.length) ++ "^"]

/-- The place and the line around it in words. -/
def message (mark : TextMark) : String :=
  "  in \"<unicode string>\", line " ++ toString mark.line ++ ", column " ++ toString mark.column
    ++ ":\n" ++ String.intercalate "\n" mark.snippet

end TextMark

namespace PlainDocument

/-- The position of the first colon that has a blank or the line's end behind it. -/
def mappingColon? : Nat → List Char → Option Nat
  | _, [] => none
  | index, ':' :: rest =>
      if rest.isEmpty || rest.head? == some ' ' || rest.head? == some '\t' then some index
      else mappingColon? (index + 1) rest
  | index, _ :: rest => mappingColon? (index + 1) rest

/-- The first mapping colon below the first line that holds text. -/
def misplacedColon? (begun : Bool) (line : Nat) : List (List Char) → Option TextMark
  | [] => none
  | chars :: rest =>
      if begun then
        match mappingColon? 0 chars with
        | some column =>
            some ⟨line, column + 1, chars.take column, chars.drop column⟩
        | none => misplacedColon? true (line + 1) rest
      else
        misplacedColon? (!chars.all Text.isBlank) (line + 1) rest

/-- Reads a settings text that has no document: the text itself, or the error in it. -/
def read (text : String) : Except String Json :=
  match misplacedColon? false 1 (Text.cut (· == '\n') text.toList) with
  | some mark => .error ("mapping values are not allowed here\n" ++ mark.message)
  | none => .ok (.text (Text.collapse text))

end PlainDocument

end CodeGraph
