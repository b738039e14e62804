import CodeGraph.Report.Finding

/-!
# The log of an extraction

A log collects findings and counts while an extraction runs. It is closed once; closing it makes
the report, and a closed log takes nothing more.
-/

namespace CodeGraph

/-- The tool that made a report. -/
structure Tool where
  /-- Its name. -/
  name : String
  /-- Its version. -/
  version : String
deriving DecidableEq, Repr, Inhabited

/-- Amounts by kind. -/
abbrev Tally := List (String × Int)

namespace Tally

/-- Adds an amount to a kind. -/
def add (tally : Tally) (kind : String) (amount : Int) : Tally :=
  match tally with
  | [] => [(kind, amount)]
  | (other, total) :: rest =>
      if other == kind then (other, total + amount) :: rest
      else (other, total) :: add rest kind amount

/-- How often each text occurs. -/
def ofList (texts : List String) : Tally :=
  texts.foldl (fun tally text => tally.add text 1) []

/-- The kinds in order. -/
def sorted (tally : Tally) : Tally :=
  sortOn textLe (·.1) tally

/-- The amounts as JSON. -/
def toJson (tally : Tally) : Json :=
  .object (tally.map fun (kind, amount) => (kind, .int amount))

end Tally

/-- The closed account of an extraction. -/
structure Report where
  /-- The tool that made it. -/
  tool : Tool
  /-- The project it is about. -/
  projectRoot : String
  /-- When the extraction began. -/
  startedAt : String
  /-- When it ended. -/
  finishedAt : String
  /-- How many files were found. -/
  filesScanned : Int
  /-- How many files were read. -/
  filesProcessed : Int
  /-- Classifiers by kind. -/
  classifiersByKind : Tally
  /-- Relations by kind. -/
  relationsByKind : Tally
  /-- The findings in the order in which they were made. -/
  findings : List Finding
deriving DecidableEq, Repr, Inhabited

namespace Report

/-- The name of the report's format. -/
def schema : String := "extraction-report-v1"

/-- Findings by kind. -/
def findingsByKind (report : Report) : Tally :=
  (Tally.ofList (report.findings.map (·.kind.label))).sorted

/-- Findings by severity. -/
def findingsBySeverity (report : Report) : Tally :=
  (Tally.ofList (report.findings.map (·.severity.label))).sorted

/-- How many findings are about unresolved names. -/
def unresolvedCount (report : Report) : Nat :=
  report.findings.countP (·.isUnresolved)

/-- The report as JSON. -/
def toJson (report : Report) : Json :=
  .object [("schema", .text schema),
    ("tool", .object [("name", .text report.tool.name), ("version", .text report.tool.version)]),
    ("projectRoot", .text report.projectRoot),
    ("startedAtIso", .text report.startedAt),
    ("finishedAtIso", .text report.finishedAt),
    ("filesScanned", .int report.filesScanned),
    ("filesProcessed", .int report.filesProcessed),
    ("counts", .object [("classifiersByKind", report.classifiersByKind.toJson),
      ("relationsByKind", report.relationsByKind.toJson),
      ("findingsByKind", report.findingsByKind.toJson),
      ("findingsBySeverity", report.findingsBySeverity.toJson)]),
    ("unresolvedCount", .int report.unresolvedCount),
    ("findings", .list ((Finding.sorted report.findings).map (·.toJson)))]

end Report

/-- Why a log refuses a call. -/
inductive LogError where
  /-- The log has been closed. -/
  | closed
deriving DecidableEq, Repr

namespace LogError

/-- The refusal in words. -/
def message : LogError → String
  | .closed => "Extraction report has already been finalized"

end LogError

/-- The running account of an extraction. -/
structure Log where
  /-- The tool at work. -/
  tool : Tool
  /-- The project it works on. -/
  projectRoot : String
  /-- When it began. -/
  startedAt : String
  /-- How many files were found. -/
  filesScanned : Int := 0
  /-- How many files were read. -/
  filesProcessed : Int := 0
  /-- The findings so far. -/
  findings : List Finding := []
  /-- Classifiers counted so far. -/
  classifierCounts : Tally := []
  /-- Relations counted so far. -/
  relationCounts : Tally := []
  /-- The report, once the log is closed. -/
  report : Option Report := none
deriving DecidableEq, Repr, Inhabited

namespace Log

/-- The log has been closed. -/
def isClosed (log : Log) : Bool :=
  log.report.isSome

/-- Takes a finding. -/
def addFinding (log : Log) (finding : Finding) : Except LogError Log :=
  if log.isClosed then .error .closed
  else .ok { log with findings := log.findings ++ [finding] }

/-- Counts classifiers of a kind. -/
def countClassifier (log : Log) (kind : String) (amount : Int) : Except LogError Log :=
  if log.isClosed then .error .closed
  else .ok { log with classifierCounts := log.classifierCounts.add kind amount }

/-- Counts relations of a kind. -/
def countRelation (log : Log) (kind : String) (amount : Int) : Except LogError Log :=
  if log.isClosed then .error .closed
  else .ok { log with relationCounts := log.relationCounts.add kind amount }

/-- The report that closing the log makes. -/
def summary (log : Log) (finishedAt : String) : Report :=
  { tool := log.tool
    projectRoot := log.projectRoot
    startedAt := log.startedAt
    finishedAt
    filesScanned := log.filesScanned
    filesProcessed := log.filesProcessed
    classifiersByKind := log.classifierCounts.sorted
    relationsByKind := log.relationCounts.sorted
    findings := log.findings }

/-- Closes the log. -/
def close (log : Log) (finishedAt : String) : Except LogError (Log × Report) :=
  if log.isClosed then .error .closed
  else
    let report := log.summary finishedAt
    .ok ({ log with report := some report }, report)

end Log

end CodeGraph
