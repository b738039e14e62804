import CodeGraph.Inventory.Scan
import CodeGraph.Model.Canonical
import CodeGraph.Model.Integrity
import CodeGraph.Project.Frameworks
import CodeGraph.Project.Pass
import CodeGraph.Report.Log
import CodeGraph.Settings.Settings

/-!
# Extraction

An extraction lists the source files of a project, reads them into a program, decides which
frameworks matter, runs the passes and brings the model into its canonical form. On the way it
gives notices.
-/

namespace CodeGraph

/-- What an extraction is asked for. -/
structure ExtractRequest where
  /-- The project's root as it is written. -/
  project : String
  /-- The name of the mode. -/
  mode : String := "auto"
  /-- The compiler configuration to use. -/
  tsconfig : Option String := none
  /-- Patterns of paths to leave out. -/
  exclude : List String := []
  /-- Tests are extracted too. -/
  includeTests : Bool := false
  /-- Dependencies are extracted too. -/
  includeDeps : Bool := false
  /-- Relations that a framework makes are extracted. -/
  includeFrameworkEdges : Bool := true
  /-- The most files to extract. -/
  maxFiles : Option Int := none
deriving DecidableEq, Repr

/-- Why an extraction fails. -/
inductive ExtractError where
  /-- There is no such mode. -/
  | unknownMode (mode : String)
  /-- The project is no directory. -/
  | projectNotFound (project : String)
  /-- The project cannot be listed. -/
  | scan (error : ScanError)
  /-- The compiler configuration cannot be used. -/
  | config (error : ConfigError)
  /-- A source file cannot be read. -/
  | program (error : ProgramError)
  /-- The package manifest's values stand too deeply inside of each other to be read. -/
  | deepManifest
  /-- The search for a name was given up. -/
  | deepSearch
  /-- No id can be made from a path. -/
  | unencodable (error : Unencodable)
  /-- The model refers to what it does not have. -/
  | dangling (refs : List DanglingRef)
  /-- The project's path cannot be followed. -/
  | file (fault : FileFault)
deriving DecidableEq, Repr

namespace ExtractError

/-- The failure in words. -/
def message : ExtractError → String
  | .unknownMode mode => "Unsupported mode '" ++ mode ++ "'; expected one of " ++ Mode.choices
  | .projectNotFound project => "Project path not found or not a directory: " ++ project
  | .scan error => error.message
  | .config error => error.message
  | .program error => error.message
  | .deepManifest => "package.json is nested too deeply"
  | .deepSearch => "a name leads through too many modules"
  | .unencodable error => "no id can be made from " ++ error.text
  | .dangling refs => DanglingRef.report refs
  | .file fault => fault.message

/-- How the failure is treated. -/
def sort : ExtractError → FailureSort
  | .scan error => error.sort
  | .config error => error.sort
  | .deepManifest | .deepSearch | .unencodable _ => .breach
  | .file fault => fault.sort
  | _ => .refusal

end ExtractError

/-- The times between which an extraction runs. -/
structure Clock where
  /-- When it begins. -/
  startedAt : String
  /-- When it ends. -/
  finishedAt : String
deriving DecidableEq, Repr

/-- What an extraction makes. -/
structure Extraction where
  /-- The canonical model. -/
  model : Model
  /-- The account of the run. -/
  report : Report
  /-- The options that were in force. -/
  options : ExtractOptions
  /-- The paths of the files that make up the program. -/
  files : List String

namespace Project

/-- The tool as it names itself in reports. -/
def tool : Tool := { name := "frontend-ir", version := "0.1.0" }

/-- The extensions of plain JavaScript. -/
def scriptSuffixes : List String := [".js", ".jsx", ".mjs", ".cjs"]

/-- The files that belong to a program with or without plain JavaScript. -/
def selectFiles (files : List String) (allowJs : Bool) : List String :=
  if allowJs then files
  else files.filter fun file => !scriptSuffixes.contains (Text.lower (Path.ofText file).suffix)

/-- The options that a mode leaves to the request. -/
def baseOptions (request : ExtractRequest) (mode : Mode) : ExtractOptions :=
  { forceAllowJs := mode != .ts
    importGraph := mode == .js || request.includeDeps
    includeDeps := request.includeDeps
    includeFrameworkEdges := request.includeFrameworkEdges
    maxFiles := request.maxFiles }

/-- The options of an extraction: the automatic mode looks at the program and its manifest. -/
def resolveOptions (request : ExtractRequest) (mode : Mode) (program : Program)
    (manifest : Frameworks.Manifest) : ExtractOptions :=
  let options := baseOptions request mode
  match mode with
  | .react => { options with react := true }
  | .angular => { options with angular := true }
  | .auto =>
      { options with
        react := Frameworks.usesReact program manifest.names
        angular := Frameworks.usesAngular program manifest.names }
  | .ts | .js => options

/-- The package manifest, which the automatic mode alone asks for. -/
def manifestFor (tree : FileTree) (root : Path) (mode : Mode) :
    Except ExtractError Frameworks.Manifest :=
  if mode == .auto then
    (Frameworks.readManifest tree root).mapError fun _ => .deepManifest
  else
    .ok .absent

/-- The notice that a broken manifest gives. -/
def manifestNotices (manifest : Frameworks.Manifest) : List Notice :=
  if manifest == .broken then
    [{ level := .warning, message := "Ignoring unreadable package.json: not a JSON text" }]
  else
    []

/-- The report on a finished draft and its model. -/
def reportOn (root : Path) (inventory : Inventory) (draft : Draft) (model : Model)
    (clock : Clock) : Report :=
  let log : Log :=
    { tool
      projectRoot := root.text
      startedAt := clock.startedAt
      filesScanned := inventory.filesFound
      filesProcessed := draft.program.sources.length
      findings := draft.findings
      classifierCounts := Tally.ofList (model.classifiers.map (·.kind.label))
      relationCounts := Tally.ofList (model.relations.map (·.kind.label)) }
  log.summary clock.finishedAt

/-- The notices that a finished extraction gives. -/
def closingNotices (model : Model) (report : Report) : List Notice :=
  [{ level := .info
     message := "Extracted " ++ toString model.classifiers.length ++ " classifier(s) and "
       ++ toString model.relations.length ++ " relation(s) from "
       ++ toString report.filesProcessed ++ " file(s)" }]
  ++ (if report.unresolvedCount == 0 then []
      else
        [{ level := .info
           message := "Unresolved references: " ++ toString report.unresolvedCount }])

/-- The model of a completed draft, if all ids could be made, no search for a name was given up and
the model is intact. -/
def intactModel (draft : Draft) : Except ExtractError Model :=
  let model := draft.toModel
  match draft.unencodable? with
  | some error => .error (.unencodable error)
  | none =>
      if draft.givenUp then .error .deepSearch
      else if model.isIntact then .ok model.canonical
      else .error (.dangling model.danglingRefs)

/-- The root that a written project leads to, and whether it is a directory. -/
def locateRoot (tree : FileTree) (project : String) : Except FileFault (Path × Bool) := do
  let root ← tree.resolve (← tree.expandHome (Path.ofText project))
  return (root, ← tree.isDirectory root)

/-- The root directory of a written project. -/
def rootOf (tree : FileTree) (project : String) : Except ExtractError Path := do
  match ← (locateRoot tree project).mapError ExtractError.file with
  | (root, true) => return root
  | (_, false) => throw (.projectNotFound project)

/-- Extracts the model of a project. -/
def extract (tree : FileTree) (request : ExtractRequest) (clock : Clock) :
    Noted ExtractError Extraction := do
  let mode ← Noted.ofExcept (
    match Mode.ofLabel? request.mode with
    | some mode => .ok mode
    | none => .error (.unknownMode request.mode))
  let root ← Noted.ofExcept (rootOf tree request.project)
  let rules := ExcludeRule.rules request.exclude request.includeTests
  let inventory ← Noted.ofExcept
    ((Inventory.scan tree root.text rules request.maxFiles).mapError ExtractError.scan)
  Noted.tell inventory.notices
  let compiler ← (CompilerOptions.load tree root request.tsconfig).mapError ExtractError.config
  let scanned ← Noted.ofExcept
    ((Program.read tree root inventory.files compiler).mapError ExtractError.program)
  let manifest ← Noted.ofExcept (manifestFor tree root mode)
  Noted.tell (manifestNotices manifest)
  let options := resolveOptions request mode scanned manifest
  let files := selectFiles inventory.files (options.forceAllowJs || compiler.allowJs)
  let empty ← Noted.ofExcept
    ((Draft.ofProgram (scanned.select files) options true).mapError ExtractError.unencodable)
  let draft := empty.complete
  let model ← Noted.ofExcept (intactModel draft)
  let report := reportOn root inventory draft model clock
  Noted.tell (closingNotices model report)
  return { model, report, options, files }

end Project

end CodeGraph
