import CodeGraph.CommandLine.Arguments
import CodeGraph.Files.Writing
import CodeGraph.Model.Encode
import CodeGraph.Project.Extraction
import CodeGraph.Report.Markdown

/-!
# Running a command

A run takes a file tree and a command line. It prints, writes files into the tree, gives notices
and ends with an exit code. Nothing outside of the tree takes part, except the time.
-/

namespace CodeGraph.CommandLine

/-- What a run leaves behind. -/
structure RunResult where
  /-- The exit code. -/
  exitCode : Nat
  /-- What is printed. -/
  output : String := ""
  /-- The notices that are shown, and the lines that tell why the run failed. -/
  lines : List String := []
  /-- The file tree afterwards. -/
  tree : FileTree

/-- Why a command fails. -/
inductive RunError where
  /-- The log cannot be kept. -/
  | log (fault : FileFault)
  /-- The settings cannot be used. -/
  | settings (error : SettingsError)
  /-- The project cannot be listed. -/
  | scan (error : ScanError)
  /-- The project cannot be extracted. -/
  | extract (error : ExtractError)
  /-- A path cannot be followed, or a file cannot be made. -/
  | file (fault : FileFault)
  /-- A file that has been made cannot be put in its place. -/
  | unwritable (path : Path) (fault : FileFault)
deriving DecidableEq, Repr

namespace RunError

/-- The failure in words. -/
def message : RunError → String
  | .log fault => fault.message
  | .settings error => error.message
  | .scan error => error.message
  | .extract error => error.message
  | .file fault => fault.message
  | .unwritable path fault => "Failed to write " ++ path.text ++ ": " ++ fault.message

/-- How the failure is treated. Nobody is prepared for a log that cannot be kept. -/
def sort : RunError → FailureSort
  | .log _ => .breach
  | .settings error => error.sort
  | .scan error => error.sort
  | .extract error => error.sort
  | .file fault => fault.sort
  | .unwritable _ _ => .refusal

/-- Advice on what to do about the failure. -/
def advice (error : RunError) : List String :=
  if error.sort == .system then ["Run with --verbose for more details."] else []

end RunError

/-- What a command has done so far. -/
structure Progress where
  /-- The file tree. -/
  tree : FileTree
  /-- What is printed. -/
  output : String := ""
  /-- The notices given. -/
  notices : List Notice := []
  /-- The exit code. -/
  exitCode : Nat := 0
  /-- Where the log is kept, unless another file has taken its place. -/
  log : Option (List String) := none

/-- A step of a command: it changes the progress, and it may fail. What was done before a failure
stays. -/
abbrev Step (α : Type) := ExceptT RunError (StateM Progress) α

/-- Gives notices. -/
def notify (notices : List Notice) : Step Unit :=
  modify fun progress => { progress with notices := progress.notices ++ notices }

/-- Tells about progress. -/
def inform (message : String) : Step Unit :=
  notify [{ level := .info, message }]

/-- A file operation. -/
def operate {α : Type} (outcome : Except FileFault α) : Step α :=
  ExceptT.mk (pure (outcome.mapError RunError.file))

/-- Writes a text to a file, making the directories above it. A file that takes the place of the
log ends the log. -/
def writeText (path : Path) (text : String) : Step Unit := do
  let tree ← operate ((← get).tree.makeDirectory path.parent)
  modify fun progress => { progress with tree }
  operate (tree.acceptScratch path)
  match tree.replaceFile path (Content.ofText text) with
  | .error fault => throw (.unwritable path fault)
  | .ok tree =>
      let place ← operate (tree.locate path)
      modify fun progress =>
        { progress with tree, log := progress.log.filter (· != place) }

/-- The path as seen from the working directory, if it lies below it. -/
def displayPath (tree : FileTree) (path : Path) : Except FileFault String := do
  let resolved ← tree.resolve path
  if tree.workingDirectory.isPrefixOf resolved.segments then
    return (Path.mk "" (resolved.segments.drop tree.workingDirectory.length)).text
  else
    return path.text

/-- Lists the source files of a project. -/
def runScan (options : CommandOptions) (settings : Settings) : Step Unit := do
  let defaults := settings.extract
  let rules := ExcludeRule.rules (defaults.exclude ++ options.exclude)
    (options.includeTests.getD defaults.includeTests)
  match Inventory.scan (← get).tree options.project rules (options.maxFiles <|> defaults.maxFiles)
    with
  | .error error => throw (.scan error)
  | .ok inventory =>
      notify inventory.notices
      let text := inventory.toJson.render
      match options.out.filter (!·.isEmpty) with
      | some out =>
          writeText (Path.ofText out) text
          inform
            ("Scanned " ++ toString inventory.files.length ++ " source file(s). Wrote: " ++ out)
      | none => modify fun progress => { progress with output := progress.output ++ text }

/-- What an extraction is asked for by options and settings. -/
def requestOf (options : CommandOptions) (settings : Settings) : ExtractRequest :=
  let defaults := settings.extract
  { project := (Path.ofText options.project).text
    mode := (options.mode.getD defaults.mode).label
    tsconfig := options.tsconfig <|> defaults.tsconfig
    exclude := defaults.exclude ++ options.exclude
    includeTests := options.includeTests.getD defaults.includeTests
    includeDeps := options.includeDeps.getD defaults.includeDeps
    includeFrameworkEdges := options.frameworkEdges.getD defaults.frameworkEdges
    maxFiles := options.maxFiles <|> defaults.maxFiles }

/-- Where the model of an extraction is written. -/
def modelPath (options : CommandOptions) (settings : Settings) : Path :=
  match options.out.filter (!·.isEmpty) with
  | some out => Path.ofText out
  | none => settings.out.getD (Path.ofText "model.ir.json")

/-- The exit code of a run that leaves names unresolved where that counts as a failure. -/
def unresolvedExit : Nat := 3

/-- Extracts the model of a project and writes it, with a report if one is asked for. -/
def runExtract (options : CommandOptions) (settings : Settings) (clock : Clock) : Step Unit := do
  let noted := Project.extract (← get).tree (requestOf options settings) clock
  notify noted.notices
  match noted.outcome with
  | .error error => throw (.extract error)
  | .ok extraction =>
      let out := modelPath options settings
      writeText out (extraction.model.serialize false)
      inform ("Extracted " ++ toString extraction.model.classifiers.length ++ " classifier(s), "
        ++ toString extraction.model.relations.length ++ " relation(s). Wrote: "
        ++ (← operate (displayPath (← get).tree out)))
      let report := extraction.report
      match (options.report <|> settings.extract.report).filter (!·.isEmpty) with
      | some written =>
          let path := Path.ofText written
          writeText path (report.textFor path options.reportFormat)
          inform ("Wrote report: " ++ (← operate (displayPath (← get).tree path))
            ++ " (unresolved: " ++ toString report.unresolvedCount ++ ")")
      | none => pure ()
      if options.failOnUnresolved.getD settings.extract.failOnUnresolved
          && 0 < report.unresolvedCount then
        modify fun progress => { progress with exitCode := unresolvedExit }

/-- Runs a command with the settings of its project. -/
def runCommand (arguments : Arguments) (clock : Clock) : Step Unit := do
  match Settings.load (← get).tree (Path.ofText arguments.options.project) with
  | .error error => throw (.settings error)
  | .ok settings =>
      match arguments.command with
      | .scan => runScan arguments.options settings
      | .extract _ => runExtract arguments.options settings clock

/-- The notice is shown: details only in a verbose run, progress also in one that is not quiet. -/
def isShown (arguments : Arguments) (notice : Notice) : Bool :=
  match notice.level with
  | .debug => arguments.overall.verbose || arguments.options.verbose
  | .info =>
      !arguments.overall.quiet || arguments.overall.verbose || arguments.options.verbose
  | .warning => true

/-- The line of a notice. -/
def noticeLine (notice : Notice) : String :=
  "[frontend-ir] " ++ notice.level.label ++ " " ++ notice.message

/-- The text of a log of notices. -/
def logText (clock : Clock) (notices : List Notice) : String :=
  String.join (notices.map fun notice =>
    clock.startedAt ++ " " ++ notice.level.label ++ " frontend_ir: " ++ notice.message ++ "\n")

/-- Opens the log file of a run, if there is one: the directories above it are made, and so is the
file. Its path is taken with the pairs of dots cancelled. -/
def openLog (tree : FileTree) (arguments : Arguments) :
    Except FileFault (FileTree × Option (List String)) :=
  match arguments.overall.logFile.filter (!·.isEmpty) with
  | none => .ok (tree, none)
  | some written => do
      let path := Path.ofText written
      let tree ← tree.makeDirectory path.parent
      let place ← tree.locateWritable (tree.lexical path)
      match tree.top.at? place with
      | some _ => return (tree, some place)
      | none => return (tree.put place (.file (Content.ofText "")), some place)

/-- The tree with the notices of a run added to its log, if one is kept. -/
def keepLog (progress : Progress) (clock : Clock) : FileTree :=
  match progress.log with
  | none => progress.tree
  | some place =>
      match progress.tree.top.at? place with
      | some (.file content) =>
          progress.tree.put place
            (.file { bytes := content.bytes ++ (logText clock progress.notices).toUTF8 })
      | _ => progress.tree

/-- The last line of a run that leaves names unresolved where that counts as a failure. -/
def unresolvedLine : String :=
  "Unresolved references found and --fail-on-unresolved is set; the IR was still written."

/-- The lines that tell why a run ends as it does. -/
def closingLines (command : Command) (failure : Option RunError) (exitCode : Nat) :
    List String :=
  match failure with
  | some error =>
      ("frontend-ir " ++ command.label ++ " failed: " ++ error.message) :: error.advice
  | none => if exitCode == unresolvedExit then [unresolvedLine] else []

/-- Runs a command line that has been read, once its log is open. -/
def runOpened (progress : Progress) (arguments : Arguments) (clock : Clock) :
    Option RunError × RunResult :=
  let (outcome, progress) := (runCommand arguments clock).run.run progress
  let failure :=
    match outcome with
    | .ok () => none
    | .error error => some error
  let exitCode := if failure.isSome then 1 else progress.exitCode
  (failure,
    { exitCode
      output := progress.output
      lines := (progress.notices.filter (isShown arguments)).map noticeLine
        ++ closingLines arguments.command failure exitCode
      tree := keepLog progress clock })

/-- Runs a command line that has been read. -/
def runArguments (tree : FileTree) (arguments : Arguments) (clock : Clock) :
    Option RunError × RunResult :=
  match openLog tree arguments with
  | .ok (tree, log) => runOpened { tree, log } arguments clock
  | .error fault =>
      (some (.log fault),
        { exitCode := 1
          lines := closingLines arguments.command (some (.log fault)) 1
          tree })

/-- The usage of the program in one line. -/
def usage : String :=
  "usage: frontend-ir [-h] [--version] [-v] [-q] [--log-file LOG_FILE] "
    ++ "\x7b" ++ String.intercalate "," (Command.all.map (·.label)) ++ "\x7d ..."

/-- Runs a command line. A wrong one has exit code 2, and asking for the version or for help ends
the run at once. -/
def run (tree : FileTree) (words : List String) (clock : Clock) : Option RunError × RunResult :=
  match readArguments words with
  | .ok arguments => runArguments tree arguments clock
  | .error .usage => (none, { exitCode := 2, lines := [usage], tree })
  | .error .version =>
      (none,
        { exitCode := 0
          output := Project.tool.name ++ " " ++ Project.tool.version ++ "\n"
          tree })
  | .error .help => (none, { exitCode := 0, output := usage ++ "\n", tree })

end CodeGraph.CommandLine
