import CodeGraph.Json.Value
import CodeGraph.Syntax.Node
import CodeGraph.Text.Pieces

/-!
# Syntax trees as JSON

A node is an array of its label, the offsets of its first byte and behind its last, and its
children. The label is the node's kind, with the field and a colon in front where the node stands
in a field, and an apostrophe in front of the kind of an anonymous token.
-/

namespace CodeGraph.Syntax.Node

/-- The field, the kind and the namedness that a label tells. -/
def ofLabel (label : String) : Option String × String × Bool :=
  let chars := label.toList
  let (field, kind) :=
    match chars.takeWhile fun char => char != ':' && char != '\x27' with
    | [] => (none, chars)
    | front =>
        match chars.drop front.length with
        | ':' :: kind => (some (String.ofList front), kind)
        | _ => (none, chars)
  match kind with
  | '\x27' :: token => (field, String.ofList token, false)
  | _ => (field, String.ofList kind, true)

mutual

/-- The node that a JSON value stands for. -/
def ofJson? : Json → Option Node
  | .list items => ofItems? items
  | _ => none

/-- The node whose label, offsets and children these are. -/
def ofItems? : List Json → Option Node
  | label :: start :: stop :: children =>
      match label, start, stop with
      | .text label, .int start, .int stop =>
          let (field, kind, named) := ofLabel label
          some { field, kind, named, start := start.toNat, stop := stop.toNat,
                 children := ofChildren children }
      | _, _, _ => none
  | _ => none

/-- The nodes that a list of JSON values stands for. -/
def ofChildren : List Json → List Node
  | [] => []
  | child :: children =>
      match ofJson? child with
      | some node => node :: ofChildren children
      | none => ofChildren children

end

end CodeGraph.Syntax.Node
