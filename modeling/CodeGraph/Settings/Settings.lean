import CodeGraph.Files.Resolution
import CodeGraph.Settings.PlainDocument
import CodeGraph.Text.Integer
import CodeGraph.Text.Lower

/-!
# Project settings

A project may have a settings file with defaults for an extraction. Values of the wrong sort
count as absent, except an extraction mode that does not exist.
-/

namespace CodeGraph

/-- How frameworks are handled. -/
inductive Mode where
  /-- What the project uses decides. -/
  | auto
  /-- No framework, and no files in plain JavaScript. -/
  | ts
  /-- React. -/
  | react
  /-- Angular. -/
  | angular
  /-- No framework, with the import graph. -/
  | js
deriving DecidableEq, Repr, Inhabited

namespace Mode

/-- The mode's name. -/
def label : Mode → String
  | .auto => "auto"
  | .ts => "ts"
  | .react => "react"
  | .angular => "angular"
  | .js => "js"

/-- All modes. -/
def all : List Mode := [.auto, .ts, .react, .angular, .js]

/-- The mode with a name. -/
def ofLabel? (label : String) : Option Mode :=
  all.find? (·.label == label)

/-- The names of all modes, with commas between them. -/
def choices : String :=
  String.intercalate ", " (all.map label)

end Mode

/-- Defaults for an extraction. -/
structure ExtractDefaults where
  /-- How frameworks are handled. -/
  mode : Mode := .auto
  /-- The compiler configuration to use. -/
  tsconfig : Option String := none
  /-- Patterns of paths to leave out. -/
  exclude : List String := []
  /-- Tests are extracted too. -/
  includeTests : Bool := false
  /-- Dependencies are extracted too. -/
  includeDeps : Bool := false
  /-- Relations that a framework makes are extracted. -/
  frameworkEdges : Bool := true
  /-- The most files to extract. -/
  maxFiles : Option Int := none
  /-- Where the report is written. -/
  report : Option String := none
  /-- Unresolved names make the run fail. -/
  failOnUnresolved : Bool := false
deriving DecidableEq, Repr, Inhabited

/-- The settings of a project. -/
structure Settings where
  /-- The directory of the settings file. -/
  root : Path
  /-- Defaults for an extraction. -/
  extract : ExtractDefaults := {}
  /-- Where the model is written. -/
  out : Option Path := none
deriving DecidableEq, Repr

/-- Why settings cannot be used. -/
inductive SettingsError where
  /-- The file cannot be read. -/
  | unreadable (name : String)
  /-- The file's bytes are no text. -/
  | notText
  /-- The file is no document. -/
  | malformed (name detail : String)
  /-- The document is no mapping. -/
  | notMapping
  /-- There is no such mode. -/
  | unknownMode (mode : String)
  /-- The path cannot be followed. -/
  | file (fault : FileFault)
deriving DecidableEq, Repr

namespace Settings

/-- The name of a settings file. -/
def fileName : String := ".frontend-ir.yml"

end Settings

namespace SettingsError

/-- The failure in words. -/
def message : SettingsError → String
  | .unreadable name => "Unable to read " ++ name ++ ": [Errno 21] Is a directory"
  | .notText => "invalid bytes"
  | .malformed name detail => "Failed to parse " ++ name ++ ": " ++ detail
  | .notMapping => Settings.fileName ++ " must contain a mapping at the root"
  | .unknownMode mode =>
      "Unsupported extract.mode '" ++ mode ++ "' in " ++ Settings.fileName ++ "; expected one of "
        ++ Mode.choices
  | .file fault => fault.message

/-- How the failure is treated. -/
def sort : SettingsError → FailureSort
  | .notText => .breach
  | .file fault => fault.sort
  | _ => .refusal

end SettingsError

namespace Settings

/-- The text of a scalar; null, lists and mappings have none. -/
def scalarText? : Json → Option String
  | .text value => some value
  | .int value => some (toString value)
  | .bool value => some (if value then "True" else "False")
  | .real value => some (value.render "inf" "-inf" "nan")
  | _ => none

/-- The integer that a value is or spells. -/
def integer? : Json → Option Int
  | .int value => some value
  | .text value => Text.readInteger? value
  | _ => none

/-- The truth value that a value is or spells. -/
def truth? : Json → Option Bool
  | .bool value => some value
  | .text value =>
      let word := Text.lower (Text.trim value)
      if ["true", "yes", "1"].contains word then some true
      else if ["false", "no", "0"].contains word then some false
      else none
  | _ => none

/-- The texts of a list's scalars; a single text counts as a list. -/
def textList : Json → List String
  | .text value => [value]
  | .list items => items.filterMap scalarText?
  | _ => []

/-- The extraction defaults in the mapping of that name. -/
def readDefaults (value : Json) : Except SettingsError ExtractDefaults := do
  let mode ←
    match (value.member? "mode").bind scalarText? with
    | some written =>
        let word := Text.lower (Text.trim written)
        match Mode.ofLabel? word with
        | some mode => pure mode
        | none => throw (.unknownMode word)
    | none => pure .auto
  let truth (name : String) (default : Bool) : Bool :=
    ((value.member? name).bind truth?).getD default
  return {
    mode
    tsconfig := (value.member? "tsconfig").bind scalarText?
    exclude := ((value.member? "exclude").map textList).getD []
    includeTests := truth "include_tests" false
    includeDeps := truth "include_deps" false
    frameworkEdges := truth "framework_edges" true
    maxFiles := ((value.member? "max_files").bind integer?).filter (0 < ·)
    report := (value.member? "report").bind scalarText?
    failOnUnresolved := truth "fail_on_unresolved" false }

/-- The settings in a document. -/
def ofDocument (root : Path) (document : Json) : Except SettingsError Settings :=
  match document with
  | .object _ => do
      let extract ← readDefaults ((document.member? "extract").getD .null)
      let out := ((document.member? "out").bind scalarText?).filter (!·.isEmpty)
      return { root, extract, out := out.map root.below }
  | _ => throw .notMapping

/-- The document of a settings file; an empty one is an empty mapping. -/
def readDocument (name : String) (content : Content) : Except SettingsError Json :=
  match content.text? with
  | none => .error .notText
  | some text =>
      if Text.isAllBlank text then
        .ok (.object [])
      else
        let document : Except SettingsError Json :=
          match content.document with
          | some (.value document) => .ok document
          | some .malformed => .error (.malformed name "")
          | none =>
              match PlainDocument.read text with
              | .ok document => .ok document
              | .error detail => .error (.malformed name detail)
        document.map fun value => if value.isTruthy then value else .object []

/-- The settings file of a path: the path itself, or the settings file in its directory. -/
def fileFor (tree : FileTree) (path : Path) : Except FileFault Path := do
  let path ← tree.expandHome path
  if ← tree.isDirectory path then tree.resolve (path.below fileName) else tree.resolve path

/-- The settings file of a path with its directory and what stands there. -/
def locate (tree : FileTree) (path : Path) : Except FileFault (Path × Path × Option Entry) := do
  let file ← fileFor tree path
  let root ← tree.resolve file.parent
  return (file, root, ← tree.find? file)

/-- The settings for a project; without a settings file, the defaults. -/
def load (tree : FileTree) (path : Path) : Except SettingsError Settings := do
  let (file, root, entry) ← (locate tree path).mapError SettingsError.file
  match entry with
  | none => return { root }
  | some (.file content) => ofDocument root (← readDocument file.name content)
  | some _ => throw (.unreadable file.name)

end Settings

end CodeGraph
