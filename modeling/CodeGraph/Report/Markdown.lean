import CodeGraph.Files.Path
import CodeGraph.Json.Printer
import CodeGraph.Report.Log
import CodeGraph.Text.Lower

/-!
# Written reports

A report is written as JSON or as Markdown. The Markdown form has tables of counts, the messages
that occur most often, and a table with one row for each finding.
-/

namespace CodeGraph.Report

/-- A text inside a table cell: bars are escaped. -/
def escapeCell (text : String) : String :=
  Text.replace "|" "\\|" text

/-- A table row of cells. -/
def row (cells : List String) : String :=
  "| " ++ String.intercalate " | " cells ++ " |"

/-- A table of amounts by kind, with an empty line behind it. -/
def countTable (tally : Tally) : List String :=
  let rows :=
    if tally.isEmpty then [row ["(none)", "0"]]
    else tally.sorted.map fun (kind, amount) => row [kind, toString amount]
  ["| Kind | Count |", "|---|---:|"] ++ rows ++ [""]

/-- Order by falling amount, then by text. -/
def rankLe (left right : String × Int) : Bool :=
  if left.2 == right.2 then textLe left.1 right.1 else decide (right.2 ≤ left.2)

/-- The twenty messages of a kind that occur most often. -/
def topMessages (findings : List Finding) (kind : FindingKind) : Tally :=
  let messages := (findings.filter (·.kind == kind)).map (·.message)
  ((Tally.ofList messages).mergeSort rankLe).take 20

/-- The section of a kind's most frequent messages; nothing when there are none. -/
def topSection (findings : List Finding) (kind : FindingKind) : List String :=
  let top := topMessages findings kind
  if top.isEmpty then []
  else
    ["### " ++ kind.label, "", "| Count | Message |", "|---:|---|"]
      ++ top.map (fun (message, count) => row [toString count, escapeCell message]) ++ [""]

/-- The table row of a finding. -/
def findingRow (finding : Finding) : String :=
  row [finding.severity.label, finding.kind.label, finding.placeText, escapeCell finding.message]

/-- The lines of the table of all findings. -/
def findingLines (findings : List Finding) : List String :=
  let rows :=
    if findings.isEmpty then ["| (none) | (none) |  |  |"]
    else (Finding.sorted findings).map findingRow
  ["## All findings", "", "| Severity | Kind | Location | Message |", "|---|---|---|---|"]
    ++ rows ++ [""]

/-- The lines of the Markdown form. -/
def markdownLines (report : Report) : List String :=
  let unresolved := report.findings.filter (·.isUnresolved)
  let top :=
    if unresolved.isEmpty then []
    else ["## Top unresolved", ""] ++ FindingKind.all.flatMap (topSection unresolved)
  ["# Extraction report", "",
    "- Tool: **" ++ report.tool.name ++ "** " ++ report.tool.version,
    "- Project root: `" ++ report.projectRoot ++ "`",
    "- Started: " ++ report.startedAt,
    "- Finished: " ++ report.finishedAt,
    "- Files scanned: **" ++ toString report.filesScanned ++ "**",
    "- Files processed: **" ++ toString report.filesProcessed ++ "**",
    "- Findings: **" ++ toString report.findings.length ++ "** (unresolved: **"
      ++ toString unresolved.length ++ "**)",
    "", "## Counts", "", "### Classifiers by kind", ""]
    ++ countTable report.classifiersByKind
    ++ ["### Relations by kind", ""]
    ++ countTable report.relationsByKind
    ++ ["## Findings summary", ""]
    ++ countTable report.findingsByKind
    ++ top
    ++ findingLines report.findings

/-- The report as Markdown. -/
def toMarkdown (report : Report) : String :=
  String.intercalate "\n" report.markdownLines

/-- The report as JSON text. -/
def toJsonText (report : Report) : String :=
  report.toJson.render

/-- The report in the format that is asked for, or else in the one that the file's extension
asks for. -/
def textFor (report : Report) (path : Path) (format : Option String) : String :=
  let asked := Text.lower (format.getD "")
  let markdown :=
    if asked.isEmpty then [".md", ".markdown"].contains (Text.lower path.suffix)
    else ["md", "markdown"].contains asked
  if markdown then report.toMarkdown else report.toJsonText

end CodeGraph.Report
