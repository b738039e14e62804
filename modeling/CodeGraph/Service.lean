import CodeGraph.Files.Archive
import CodeGraph.Model.Encode
import CodeGraph.Project.Extraction

/-!
# The extraction service

The service takes an archive with a mode, extracts the project in it and answers with the model.
-/

namespace CodeGraph.Service

/-- What is posted to the service. -/
structure Post where
  /-- The field `mode`. -/
  mode : Option String := none
  /-- The field `language`. -/
  language : Option String := none
  /-- The archive, if one is sent. -/
  archive : Option Archive := none

/-- An answer of the service. -/
structure Answer where
  /-- The status code. -/
  status : Nat
  /-- The body. -/
  body : Json

/-- Why the extractor behind the service gives no model. -/
inductive ServiceFailure where
  /-- The archive cannot be unpacked. -/
  | archive (error : ArchiveError)
  /-- The project cannot be extracted. -/
  | extraction (error : ExtractError)
  /-- The extractor reports a failure of its own. -/
  | reported (message : String)
deriving DecidableEq, Repr

namespace ServiceFailure

/-- The failure in words. -/
def message : ServiceFailure → String
  | .archive error => error.message
  | .extraction error => error.message
  | .reported text => text

/-- How the failure is treated. -/
def sort : ServiceFailure → FailureSort
  | .archive error => error.sort
  | .extraction error => error.sort
  | .reported _ => .refusal

end ServiceFailure

/-- What extracts the project at a path in a mode. -/
abbrev Extractor := FileTree → Path → Mode → Except ServiceFailure Json

/-- The mode that a word asks for. -/
def modeFor (word : String) : Mode :=
  let word := Text.lower (Text.trim word)
  if word == "react" then .react
  else if word == "angular" then .angular
  else if word == "js" || word == "javascript" then .js
  else .ts

/-- An answer that tells an error. -/
def refusal (status : Nat) (message : String) : Answer :=
  { status, body := .object [("error", .text message)] }

/-- The answer to the question whether the service is up. -/
def health : Answer :=
  { status := 200, body := .object [("ok", .bool true)] }

/-- The word that a post gives for a mode: the first of its two fields that is not empty. -/
def requestedWord (post : Post) : String :=
  let fields := [post.mode, post.language].filterMap (·.filter (!·.isEmpty))
  Text.trim (fields.headD "")

/-- The extractor that runs the extraction itself. -/
def extractInPlace (clock : Clock) : Extractor := fun tree project mode =>
  match (Project.extract tree { project := project.text, mode := mode.label } clock).outcome with
  | .ok extraction => .ok (extraction.model.document false)
  | .error error => .error (.extraction error)

/-- Unpacks an archive into a fresh directory and extracts the project in it. Beside the model
stands the mode that the extractor was run in, if it was run. -/
def process (extractor : Extractor) (archive : Archive) (mode : Mode) :
    Option Mode × Except ServiceFailure Json :=
  let project := Path.absolute ["service", "project"]
  match archive.unpack { top := .directory [] } project with
  | (_, some error) => (none, .error (.archive error))
  | (tree, none) => (some mode, extractor tree project mode)

/-- What comes of a post: a refusal at once, or what processing it gives. -/
inductive Handling where
  /-- The post is refused. -/
  | refused (answer : Answer)
  /-- The archive is processed in a mode. -/
  | processed (mode : Option Mode) (outcome : Except ServiceFailure Json)

/-- Handles a post. -/
def handle (extractor : Extractor) (post : Post) : Handling :=
  let word := requestedWord post
  if word.isEmpty then
    .refused (refusal 400 "Missing field: mode (or language)")
  else
    match post.archive with
    | none => .refused (refusal 400 "Provide inputZip or repoUrl")
    | some archive =>
        let (mode, outcome) := process extractor archive (modeFor word)
        .processed mode outcome

namespace Handling

/-- The answer that is sent. -/
def answer : Handling → Answer
  | .refused answer => answer
  | .processed _ (.ok model) => { status := 200, body := model }
  | .processed _ (.error failure) => refusal 500 failure.message

/-- The modes that the extractor was run in. -/
def modes : Handling → List Mode
  | .refused _ => []
  | .processed mode _ => mode.toList

end Handling

end CodeGraph.Service
