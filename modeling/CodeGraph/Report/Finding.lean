import CodeGraph.Json.Value
import CodeGraph.Text.Order
import CodeGraph.Text.Pieces

/-!
# Findings

A finding is something that an extraction noticed and that did not stop it: most often a name
that could not be resolved.
-/

namespace CodeGraph

/-- The kinds of findings, in the order in which reports list them. -/
inductive FindingKind where
  /-- An import that leads to no file. -/
  | unresolvedImport
  /-- A context that no declaration makes. -/
  | unresolvedContext
  /-- A rendered component without a declaration. -/
  | unresolvedJsxComponent
  /-- A name in decorator metadata without a declaration. -/
  | unresolvedDecoratorRef
  /-- An injected name without a declaration. -/
  | unresolvedInjection
  /-- A route that leads to no declaration. -/
  | unresolvedRouteTarget
  /-- A lazily loaded name without a declaration. -/
  | unresolvedLazyModule
  /-- A type name without a declaration. -/
  | unresolvedType
  /-- A remark. -/
  | note
deriving DecidableEq, Repr, Inhabited

namespace FindingKind

/-- The kind's name in a written report. -/
def label : FindingKind → String
  | .unresolvedImport => "unresolvedImport"
  | .unresolvedContext => "unresolvedContext"
  | .unresolvedJsxComponent => "unresolvedJsxComponent"
  | .unresolvedDecoratorRef => "unresolvedDecoratorRef"
  | .unresolvedInjection => "unresolvedInjection"
  | .unresolvedRouteTarget => "unresolvedRouteTarget"
  | .unresolvedLazyModule => "unresolvedLazyModule"
  | .unresolvedType => "unresolvedType"
  | .note => "note"

/-- All kinds. -/
def all : List FindingKind :=
  [.unresolvedImport, .unresolvedContext, .unresolvedJsxComponent, .unresolvedDecoratorRef,
    .unresolvedInjection, .unresolvedRouteTarget, .unresolvedLazyModule, .unresolvedType, .note]

/-- The kind with a name. -/
def ofLabel? (label : String) : Option FindingKind :=
  all.find? (·.label == label)

/-- What the names of kinds begin with that are about unresolved names. -/
def unresolvedMark : String := "unresolved"

/-- The finding is about a name that stays unresolved. -/
def isUnresolved (kind : FindingKind) : Bool :=
  Text.startsWith kind.label unresolvedMark

/-- Every kind but the remark is about a name that stays unresolved. -/
theorem isUnresolved_iff {kind : FindingKind} : kind.isUnresolved = true ↔ kind ≠ .note := by
  cases kind <;> decide

end FindingKind

/-- How much a finding matters. -/
inductive Severity where
  /-- Good to know. -/
  | info
  /-- Something is missing. -/
  | warning
  /-- Something is wrong. -/
  | error
deriving DecidableEq, Repr, Inhabited

namespace Severity

/-- The severity's name in a written report. -/
def label : Severity → String
  | .info => "info"
  | .warning => "warning"
  | .error => "error"

/-- The severity with a name. -/
def ofLabel? (label : String) : Option Severity :=
  [info, warning, error].find? (·.label == label)

end Severity

/-- Where a finding was made. -/
structure FindingPlace where
  /-- The path from the project's root. -/
  file : String
  /-- The line, counted from one. -/
  line : Option Int := none
deriving DecidableEq, Repr, Inhabited

namespace FindingPlace

/-- The place as text; a line that is missing or zero is left out. -/
def text (place : FindingPlace) : String :=
  match place.line with
  | some line => if line == 0 then place.file else place.file ++ ":" ++ toString line
  | none => place.file

end FindingPlace

/-- Something that an extraction noticed. -/
structure Finding where
  /-- What it is about. -/
  kind : FindingKind
  /-- How much it matters. -/
  severity : Severity := .warning
  /-- The finding in words. -/
  message : String
  /-- Where it was made. -/
  place : Option FindingPlace := none
  /-- Further facts by name. -/
  facts : List (String × String) := []
deriving DecidableEq, Repr, Inhabited

namespace Finding

/-- The finding is about a name that stays unresolved. -/
def isUnresolved (finding : Finding) : Bool :=
  finding.kind.isUnresolved

/-- The place as text; empty when there is none. -/
def placeText (finding : Finding) : String :=
  (finding.place.map (·.text)).getD ""

/-- What findings are sorted by: kind, place and message. -/
def sortKey (finding : Finding) : String × String × String :=
  (finding.kind.label, finding.placeText, finding.message)

/-- Lexicographic order of three texts. -/
def keyLe (left right : String × String × String) : Bool :=
  if left.1 == right.1 then pairLe left.2 right.2 else textLe left.1 right.1

/-- Findings in the order of a written report. -/
def sorted (findings : List Finding) : List Finding :=
  sortOn keyLe sortKey findings

/-- A finding at a line of a file. -/
def atLine (kind : FindingKind) (message file : String) (line : Int)
    (facts : List (String × String)) : Finding :=
  { kind, message, facts, place := some { file, line := some line } }

/-- The finding as JSON. -/
def toJson (finding : Finding) : Json :=
  let place :=
    match finding.place with
    | some place =>
        let line :=
          match place.line with
          | some line => [("line", Json.int line)]
          | none => []
        [("location", Json.object ([("file", Json.text place.file)] ++ line))]
    | none => []
  .object ([("kind", .text finding.kind.label), ("severity", .text finding.severity.label),
      ("message", .text finding.message)]
    ++ place ++ [("tags", .object (finding.facts.map fun (name, value) => (name, .text value)))])

end Finding

end CodeGraph
