import CodeGraph.Files.Resolution
import CodeGraph.Json.Relaxed
import CodeGraph.Notice

/-!
# Compiler options

A compiler configuration may extend others. Options are merged along the chain: those of the
extended files first, in order, then the file's own. Relative paths mean the directory of the
file that states them; that directory is kept as a further entry beside the options, and a file
that states such an entry itself has the last word. One load reads each file at most once: a file
met again gives nothing.
-/

namespace CodeGraph

/-- The options that decide how modules are found. -/
structure CompilerOptions where
  /-- The directory from which bare module names are looked up. -/
  baseUrl : Option Path := none
  /-- Patterns of module names with their targets, in written order. -/
  paths : List (String × List String) := []
  /-- The directory that the targets are relative to. -/
  pathsBase : Option Path := none
  /-- Plain JavaScript files belong to the program. -/
  allowJs : Bool := false
  /-- How JSX is compiled. -/
  jsx : Option String := none
  /-- The configuration file. -/
  configPath : Option Path := none
deriving DecidableEq, Repr

/-- Why a configuration cannot be used. -/
inductive ConfigError where
  /-- There is no such file. -/
  | notFound (path : Path)
  /-- The file cannot be read. -/
  | unreadable (path : Path)
  /-- The file is not JSON. -/
  | invalid (path : Path)
  /-- The file is no JSON object. -/
  | notObject (path : Path)
  /-- The compiler options are no object. -/
  | optionsNotObject (path : Path)
  /-- The file's bytes are no text. -/
  | notText
  /-- An integer in the file is too long to be read. -/
  | longNumber
  /-- The file's values stand too deeply inside of each other to be read. -/
  | tooDeep
  /-- What the file extends is neither a name nor a list. -/
  | badExtends
  /-- The entry for a directory is no path. -/
  | badDirectory
  /-- A path cannot be followed. -/
  | file (fault : FileFault)
deriving DecidableEq, Repr

namespace ConfigError

/-- The failure in words. -/
def message : ConfigError → String
  | .notFound path => "tsconfig not found: " ++ path.text
  | .unreadable path =>
      "Unable to read tsconfig at " ++ path.text ++ ": [Errno 5] Input/output error"
  | .invalid path => "Invalid tsconfig at " ++ path.text ++ ": not a JSON text"
  | .notObject path => "tsconfig at " ++ path.text ++ " must contain a JSON object"
  | .optionsNotObject path => "compilerOptions in " ++ path.text ++ " must be an object"
  | .notText => "the configuration is not UTF-8"
  | .longNumber => "the configuration holds an integer with too many digits"
  | .tooDeep => "the configuration is nested too deeply"
  | .badExtends => "extends is neither a name nor a list of names"
  | .badDirectory => "the entry for a directory is no path"
  | .file fault => fault.message

/-- How the failure is treated. -/
def sort : ConfigError → FailureSort
  | .notText | .longNumber | .tooDeep | .badExtends | .badDirectory => .breach
  | .file fault => fault.sort
  | _ => .refusal

/-- The failure makes a default configuration count as absent. -/
def isRecoverable (error : ConfigError) : Bool :=
  error.sort == .refusal

end ConfigError

/-- The value of an option. -/
inductive OptionValue where
  /-- What a file states. -/
  | stated (value : Json)
  /-- The directory that a stated path means. -/
  | directory (path : Path)

namespace OptionValue

/-- The value counts as given: a directory always does. -/
def isTruthy : OptionValue → Bool
  | .stated value => value.isTruthy
  | .directory _ => true

/-- The directory that a value means. A text that a file states is a path from the working
directory. -/
def toDirectory (tree : FileTree) : OptionValue → Except ConfigError Path
  | .directory path => .ok path
  | .stated (.text written) => (tree.resolve (Path.ofText written)).mapError ConfigError.file
  | .stated _ => .error .badDirectory

end OptionValue

/-- The options that a configuration states, with the entries for directories as they stand
there. -/
structure StatedOptions where
  /-- The entry for the directory from which bare module names are looked up. -/
  baseUrl : Option OptionValue := none
  /-- Patterns of module names with their targets, in written order. -/
  paths : List (String × List String) := []
  /-- The entry for the directory that the targets are relative to. -/
  pathsBase : Option OptionValue := none
  /-- Plain JavaScript files belong to the program. -/
  allowJs : Bool := false
  /-- How JSX is compiled. -/
  jsx : Option String := none
  /-- The configuration file. -/
  configPath : Option Path := none

/-- Options merged along a chain of configurations, by name. -/
abbrev MergedOptions := Ordered OptionValue

namespace MergedOptions

/-- The entry for the directory that the base URL means. -/
def baseEntry : String := "__baseUrl"

/-- The entry for the directory of the file that states the path patterns. -/
def patternsEntry : String := "__pathsDir"

/-- The options of `upper` over those of `lower`. -/
def overlay (lower upper : MergedOptions) : MergedOptions :=
  Ordered.setAll lower upper

/-- The stated value of an option. -/
def value? (options : MergedOptions) (name : String) : Option Json :=
  match options.lookup name with
  | some (.stated value) => some value
  | _ => none

/-- The entry for a directory; null stands for none. -/
def directory? (options : MergedOptions) (entry : String) : Option OptionValue :=
  match options.lookup entry with
  | some (.stated .null) => none
  | found => found

end MergedOptions

/-- What has been read so far during one load. -/
structure ConfigTrail where
  /-- The resolved paths of the files read. -/
  seen : List Path := []
  /-- The notices given, in order. -/
  notices : List Notice := []
deriving DecidableEq, Repr

/-- A step of a load: it adds to the trail, and it may fail. -/
abbrev Loading (α : Type) := ExceptT ConfigError (StateM ConfigTrail) α

namespace Loading

/-- A step that the trail has no part in. -/
def ofExcept {α : Type} (outcome : Except ConfigError α) : Loading α :=
  ExceptT.mk (pure outcome)

/-- A file operation. -/
def ofFile {α : Type} (outcome : Except FileFault α) : Loading α :=
  ofExcept (outcome.mapError ConfigError.file)

/-- Gives a notice. -/
def tell (level : NoticeLevel) (message : String) : Loading Unit :=
  modify fun trail => { trail with notices := trail.notices ++ [{ level, message }] }

end Loading

namespace CompilerOptions

/-- The failure to read the JSON text of a file. -/
def readError (path : Path) : Json.ReadFault → ConfigError
  | .malformed => .invalid path
  | .longNumber => .longNumber
  | .tooDeep => .tooDeep

/-- The JSON object in a configuration file. -/
def readObject (tree : FileTree) (path : Path) : Except ConfigError Json :=
  match tree.file? path with
  | none => .error (.unreadable path)
  | some content =>
      match content.text? with
      | none => .error .notText
      | some text =>
          match Json.parseRelaxed .standard text with
          | .error fault => .error (readError path fault)
          | .ok (.object members) => .ok (.object members)
          | .ok _ => .error (.notObject path)

/-- The references in an `extends` entry that are names. -/
def references (extends? : Option Json) : Except ConfigError (List String) :=
  match extends? with
  | none => .ok []
  | some (.text name) => .ok [name]
  | some (.list items) => .ok (items.filterMap Json.text?)
  | some (.object members) => .ok (members.map (·.1))
  | some value => if value.isTruthy then .error .badExtends else .ok []

/-- The path with an ending added to its last segment. -/
def addEnding (path : Path) (ending : String) : Except FileFault Path :=
  if path.segments.isEmpty then .error .nameless
  else .ok (path.withName (path.name ++ ending))

/-- The first path at which a file stands. -/
def firstFile? (tree : FileTree) : List Path → Except FileFault (Option Path)
  | [] => .ok none
  | path :: paths => do
      if ← tree.isFile path then return some path else firstFile? tree paths

/-- The file of a package in the nearest of these directories that has it. -/
def packageFile? (tree : FileTree) (reference : String) :
    List Path → Except FileFault (Option Path)
  | [] => .ok none
  | directory :: directories => do
      let base := (directory.below "node_modules").below reference
      let candidates := [base, ← addEnding base ".json", base.below "tsconfig.json"]
      match ← firstFile? tree candidates with
      | some path => return some path
      | none => packageFile? tree reference directories

/-- The file that a reference in a directory's configuration means: a path when it begins with a
dot, otherwise a package in the nearest enclosing directory that has it. -/
def locate? (tree : FileTree) (directory : Path) (reference : String) :
    Except FileFault (Option Path) := do
  if Text.startsWith reference "." then
    let candidate ← tree.resolve (directory.below reference)
    if ← tree.isFile candidate then
      return some candidate
    else
      firstFile? tree [← addEnding candidate ".json"]
  else
    packageFile? tree reference (directory :: directory.ancestors)

/-- Takes over an option that a file in a directory states; the base URL and the path patterns
leave an entry with the directory that they mean. -/
def takeOption (tree : FileTree) (directory : Path) (options : MergedOptions)
    (stated : String × Json) : Except FileFault MergedOptions := do
  let options := Ordered.set options stated.1 (.stated stated.2)
  match stated with
  | ("baseUrl", .text url) =>
      let base ← tree.resolve (directory.below url)
      return Ordered.set options MergedOptions.baseEntry (.directory base)
  | ("paths", _) =>
      return Ordered.set options MergedOptions.patternsEntry
        (.directory (← tree.resolve directory))
  | _ => return options

/-- A file's own options, with the directories that its paths mean. -/
def ownOptions (tree : FileTree) (path : Path) (config : Json) :
    Except ConfigError MergedOptions :=
  let stated := (config.member? "compilerOptions").getD .null
  if !stated.isTruthy then
    .ok []
  else
    match stated with
    | .object members =>
        (members.foldlM (takeOption tree path.parent) []).mapError ConfigError.file
    | _ => .error (.optionsNotObject path)

mutual

/-- The merged options of a file. The first argument bounds the length of a chain; it is enough
when it exceeds the number of files not yet seen. -/
def merge (tree : FileTree) : (fuel : Nat) → Path → Loading MergedOptions
  | 0, _ => return []
  | fuel + 1, path => do
      let resolved ← Loading.ofFile (tree.resolve path)
      if (← get).seen.contains resolved then
        Loading.tell .warning ("Ignoring circular tsconfig extends at " ++ path.text)
        return []
      else
        modify fun trail => { trail with seen := trail.seen ++ [resolved] }
        let config ← Loading.ofExcept (readObject tree path)
        let names ← Loading.ofExcept (references (config.member? "extends"))
        let inherited ← mergeAll tree fuel path names
        let own ← Loading.ofExcept (ownOptions tree path config)
        return inherited.overlay own

/-- The merged options of the files that the references in a file mean, in order. -/
def mergeAll (tree : FileTree) (fuel : Nat) (path : Path) : List String → Loading MergedOptions
  | [] => return []
  | name :: names => do
      let first ←
        match ← Loading.ofFile (locate? tree path.parent name) with
        | some found => merge tree fuel found
        | none => do
            Loading.tell .debug
              ("tsconfig extends " ++ name ++ " not found from " ++ path.text)
            pure []
      let rest ← mergeAll tree fuel path names
      return first.overlay rest

end

/-- The path patterns in an option value; targets that are no texts are left out, and so are
patterns without a list of targets. -/
def pathPatterns (value : Option Json) : List (String × List String) :=
  match value with
  | some (.object members) =>
      members.filterMap fun (pattern, targets) =>
        match targets with
        | .list items => some (pattern, items.filterMap Json.text?)
        | _ => none
  | _ => []

/-- The options that merged values stand for. -/
def ofMerged (merged : MergedOptions) (configPath : Path) : StatedOptions :=
  let baseUrl := merged.directory? MergedOptions.baseEntry
  { baseUrl
    paths := pathPatterns (merged.value? "paths")
    pathsBase :=
      (baseUrl.filter (·.isTruthy)).or (merged.directory? MergedOptions.patternsEntry)
    allowJs := ((merged.value? "allowJs").map (·.isTruthy)).getD false
      || ((merged.value? "checkJs").map (·.isTruthy)).getD false
    jsx := (merged.value? "jsx").bind Json.text?
    configPath := some configPath }

/-- The options with the directories that their entries mean. -/
def settle (tree : FileTree) (stated : StatedOptions) : Except ConfigError CompilerOptions := do
  return {
    baseUrl := ← stated.baseUrl.mapM (OptionValue.toDirectory tree)
    paths := stated.paths
    pathsBase := ← stated.pathsBase.mapM (OptionValue.toDirectory tree)
    allowJs := stated.allowJs
    jsx := stated.jsx
    configPath := stated.configPath }

/-- The merged options of a configuration file and all that it extends, with the notices given. -/
def readMerged (tree : FileTree) (path : Path) : Noted ConfigError MergedOptions :=
  let (outcome, trail) := (merge tree (Entry.leafCount tree.top + 2) path).run.run {}
  { notices := trail.notices, outcome }

/-- The configuration of a project that names none. -/
def defaultFile? (tree : FileTree) (root : Path) : Except FileFault (Option Path) :=
  firstFile? tree [root.below "tsconfig.json", root.below "jsconfig.json"]

/-- Loads the options in a configuration that is named: it has to be usable. -/
def loadNamed (tree : FileTree) (path : Path) : Noted ConfigError StatedOptions := do
  if ← Noted.ofExcept ((tree.isFile path).mapError ConfigError.file) then
    let merged ← readMerged tree path
    return ofMerged merged path
  else
    Noted.ofExcept (.error (.notFound path))

/-- Loads the options of a project that names no configuration: a missing or broken file counts as
absent. -/
def loadDefault (tree : FileTree) (root : Path) : Noted ConfigError StatedOptions := do
  match ← Noted.ofExcept ((defaultFile? tree root).mapError ConfigError.file) with
  | none =>
      Noted.tell [{ level := .debug
                    message := "No tsconfig found under " ++ root.text ++ "; using defaults" }]
      return {}
  | some path =>
      let reading := readMerged tree path
      Noted.tell reading.notices
      match reading.outcome with
      | .ok merged => return ofMerged merged path
      | .error error =>
          if error.isRecoverable then
            Noted.tell [{ level := .warning
                          message := error.message ++ "; using default compiler options" }]
            return {}
          else
            Noted.ofExcept (.error error)

/-- Loads the options of a project, from the configuration that it names or else from the default
one. -/
def load (tree : FileTree) (root : Path) (named : Option String) :
    Noted ConfigError CompilerOptions := do
  let stated ←
    match named with
    | some name => loadNamed tree (root.below name)
    | none => loadDefault tree root
  Noted.ofExcept (settle tree stated)

end CompilerOptions

end CodeGraph
