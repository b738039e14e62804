import CodeGraph.CommandLine.Options
import CodeGraph.Settings.Settings

/-!
# The arguments of the program

A command line is options of the program, a command, and options of that command. An option that
is not given leaves the decision to the project's settings.
-/

namespace CodeGraph.CommandLine

/-- The commands. -/
inductive Command where
  /-- Lists source files. -/
  | scan
  /-- Extracts a model, in the given mode if the command fixes one. -/
  | extract (mode : Option Mode)
deriving DecidableEq, Repr

namespace Command

/-- The command's name. -/
def label : Command → String
  | .scan => "scan"
  | .extract none => "extract"
  | .extract (some mode) => "extract-" ++ mode.label

/-- All commands. -/
def all : List Command :=
  [.scan, .extract none, .extract (some .ts), .extract (some .react), .extract (some .angular),
    .extract (some .js)]

/-- The command with a name. -/
def ofLabel? (label : String) : Option Command :=
  all.find? (·.label == label)

end Command

/-- What the options of the program say. -/
structure GlobalOptions where
  /-- More is told. -/
  verbose : Bool := false
  /-- Only warnings are told. -/
  quiet : Bool := false
  /-- Where a log is kept. -/
  logFile : Option String := none
deriving DecidableEq, Repr

/-- What the options of a command say. -/
structure CommandOptions where
  /-- More is told. -/
  verbose : Bool := false
  /-- The project's root. -/
  project : String := "."
  /-- Patterns of paths to leave out. -/
  exclude : List String := []
  /-- Tests are read too. -/
  includeTests : Option Bool := none
  /-- The most files to read. -/
  maxFiles : Option Int := none
  /-- Where the result is written. -/
  out : Option String := none
  /-- The compiler configuration to use. -/
  tsconfig : Option String := none
  /-- Dependencies are extracted too. -/
  includeDeps : Option Bool := none
  /-- Relations that a framework makes are extracted. -/
  frameworkEdges : Option Bool := none
  /-- Where the report is written. -/
  report : Option String := none
  /-- The format of the report. -/
  reportFormat : Option String := none
  /-- Unresolved names make the run fail. -/
  failOnUnresolved : Option Bool := none
  /-- How frameworks are handled. -/
  mode : Option Mode := none
deriving DecidableEq, Repr

/-- A command line that has been read. -/
structure Arguments where
  /-- The options of the program. -/
  overall : GlobalOptions
  /-- The command. -/
  command : Command
  /-- The options of the command. -/
  options : CommandOptions
deriving DecidableEq, Repr

/-- The options of the program. -/
inductive GlobalKey where
  /-- Help is asked for. -/
  | help
  /-- The version is asked for. -/
  | version
  /-- More is told. -/
  | verbose
  /-- Only warnings are told. -/
  | quiet
  /-- A log is kept. -/
  | logFile
deriving DecidableEq, Repr

/-- The options of the commands. -/
inductive CommandKey where
  /-- Help is asked for. -/
  | help
  /-- More is told. -/
  | verbose
  /-- The project's root. -/
  | project
  /-- A pattern of paths to leave out. -/
  | exclude
  /-- Tests are read too. -/
  | includeTests
  /-- The most files to read. -/
  | maxFiles
  /-- Where the result is written. -/
  | out
  /-- The compiler configuration. -/
  | tsconfig
  /-- Dependencies are extracted too. -/
  | includeDeps
  /-- Relations that a framework makes are left out. -/
  | noFrameworkEdges
  /-- Where the report is written. -/
  | report
  /-- The format of the report. -/
  | reportFormat
  /-- Unresolved names make the run fail. -/
  | failOnUnresolved
  /-- How frameworks are handled. -/
  | mode
deriving DecidableEq, Repr

/-- How the options of the program are written. -/
def globalSpecs : List (OptionSpec GlobalKey) :=
  [{ key := .help, names := ["-h", "--help"] },
    { key := .version, names := ["--version"] },
    { key := .verbose, names := ["-v", "--verbose"] },
    { key := .quiet, names := ["-q", "--quiet"] },
    { key := .logFile, names := ["--log-file"], takesValue := true }]

/-- How the options are written that every command has. -/
def sourceSpecs : List (OptionSpec CommandKey) :=
  [{ key := .help, names := ["-h", "--help"] },
    { key := .verbose, names := ["-v", "--verbose"] },
    { key := .project, names := ["-p", "--project"], takesValue := true },
    { key := .exclude, names := ["--exclude"], takesValue := true },
    { key := .includeTests, names := ["--include-tests"] },
    { key := .maxFiles, names := ["--max-files"], takesValue := true },
    { key := .out, names := ["-o", "--out"], takesValue := true }]

/-- How the further options of an extraction are written. -/
def extractSpecs : List (OptionSpec CommandKey) :=
  [{ key := .tsconfig, names := ["--tsconfig"], takesValue := true },
    { key := .includeDeps, names := ["--include-deps"] },
    { key := .noFrameworkEdges, names := ["--no-framework-edges"] },
    { key := .report, names := ["--report"], takesValue := true },
    { key := .reportFormat, names := ["--report-format"], takesValue := true },
    { key := .failOnUnresolved, names := ["--fail-on-unresolved"] }]

/-- How the options of a command are written. -/
def specsOf : Command → List (OptionSpec CommandKey)
  | .scan => sourceSpecs
  | .extract none =>
      sourceSpecs ++ extractSpecs ++ [{ key := .mode, names := ["--mode"], takesValue := true }]
  | .extract (some _) => sourceSpecs ++ extractSpecs

/-- Takes an option of the program. -/
def takeGlobal (options : GlobalOptions) (key : GlobalKey) (value : Option String) :
    Except Halt GlobalOptions :=
  match key with
  | .help => .error .help
  | .version => .error .version
  | .verbose => .ok { options with verbose := true }
  | .quiet => .ok { options with quiet := true }
  | .logFile => .ok { options with logFile := value }

/-- The number of files that a text spells, which is more than zero. -/
def readMaxFiles (text : String) : Except Halt Int :=
  match Text.readInteger? text with
  | some count => if 0 < count then .ok count else .error .usage
  | none => .error .usage

/-- Takes an option of a command. -/
def takeOption (options : CommandOptions) (key : CommandKey) (value : Option String) :
    Except Halt CommandOptions :=
  let text := value.getD ""
  match key with
  | .help => .error .help
  | .verbose => .ok { options with verbose := true }
  | .project => .ok { options with project := text }
  | .exclude => .ok { options with exclude := options.exclude ++ [text] }
  | .includeTests => .ok { options with includeTests := some true }
  | .maxFiles => (readMaxFiles text).map fun count => { options with maxFiles := some count }
  | .out => .ok { options with out := some text }
  | .tsconfig => .ok { options with tsconfig := some text }
  | .includeDeps => .ok { options with includeDeps := some true }
  | .noFrameworkEdges => .ok { options with frameworkEdges := some false }
  | .report => .ok { options with report := some text }
  | .reportFormat =>
      if ["md", "json"].contains text then .ok { options with reportFormat := some text }
      else .error .usage
  | .failOnUnresolved => .ok { options with failOnUnresolved := some true }
  | .mode =>
      match Mode.ofLabel? text with
      | some mode => .ok { options with mode := some mode }
      | none => .error .usage

/-- The options of a command before any is given. -/
def initialOptions : Command → CommandOptions
  | .scan => {}
  | .extract mode => { mode }

/-- Reads the options of a command; every word has to have a place. -/
def readCommand (command : Command) (words : List String) (stray : Bool) :
    Except Halt CommandOptions := do
  let reading ← read
    { options := specsOf command, take := takeOption, endsAtOperand := false }
    words (initialOptions command)
  if stray || reading.stray then throw .usage else return reading.state

/-- Reads a command line. -/
def readArguments (words : List String) : Except Halt Arguments := do
  let reading ← read
    { options := globalSpecs, take := takeGlobal, endsAtOperand := true } words {}
  match reading.rest with
  | [] => throw .usage
  | word :: rest =>
      match Command.ofLabel? word with
      | none => throw .usage
      | some command =>
          let options ← readCommand command rest reading.stray
          return { overall := reading.state, command, options }

end CodeGraph.CommandLine
