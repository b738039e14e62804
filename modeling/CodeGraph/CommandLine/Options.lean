import CodeGraph.Text.Integer
import CodeGraph.Text.Pieces

/-!
# Reading option words

A command line is a list of words. A word that begins with a dash is an option: written in full,
as the unique beginning of a long one, with its value behind an equals sign or, for a short one,
directly behind it; short options without a value can be strung together. Negative numbers and
words with blanks in them are no options, and behind a double dash nothing is. Where the first
operand ends the options, a double dash in front of it is wrong.
-/

namespace CodeGraph.CommandLine

/-- An option that a command knows. -/
structure OptionSpec (κ : Type) where
  /-- What the option means. -/
  key : κ
  /-- The ways to write it in full. -/
  names : List String
  /-- A value belongs to it. -/
  takesValue : Bool := false

/-- Why reading a command line ends early. -/
inductive Halt where
  /-- The command line is wrong. -/
  | usage
  /-- The version is asked for. -/
  | version
  /-- Help is asked for. -/
  | help
deriving DecidableEq, Repr

/-- What a word is to a command. -/
inductive WordKind (κ : Type) where
  /-- No option. -/
  | operand
  /-- The double dash. -/
  | separator
  /-- An option that the command does not know. -/
  | unknown
  /-- A known option, as it was written in full, with the text that is attached to it. -/
  | known (option : OptionSpec κ) (name : String) (attached : Option String)

/-- All names of the options, each with its option. -/
def namedOptions {κ : Type} (options : List (OptionSpec κ)) : List (String × OptionSpec κ) :=
  options.flatMap fun option => option.names.map fun name => (name, option)

/-- The option with a name. -/
def optionNamed? {κ : Type} (options : List (OptionSpec κ)) (name : String) :
    Option (OptionSpec κ) :=
  (namedOptions options).lookup name

/-- Cuts a word at its first equals sign. -/
def cutAtEquals (word : String) : String × Option String :=
  let chars := word.toList
  let front := chars.takeWhile (· != '=')
  match chars.drop front.length with
  | [] => (word, none)
  | _ :: value => (String.ofList front, some (String.ofList value))

/-- The options that a word may abbreviate or have a value attached to. -/
def candidates {κ : Type} (options : List (OptionSpec κ)) (word : String) :
    List (String × OptionSpec κ × Option String) :=
  match word.toList with
  | '-' :: '-' :: _ =>
      let (front, value) := cutAtEquals word
      (namedOptions options).filterMap fun (name, option) =>
        if Text.startsWith name front then some (name, option, value) else none
  | '-' :: second :: rest =>
      (namedOptions options).filterMap fun (name, option) =>
        if name.toList == ['-', second] then some (name, option, some (String.ofList rest))
        else if Text.startsWith name word then some (name, option, none)
        else none
  | _ => []

/-- The digits of a number without sign: all digits, or a point with digits behind it. -/
def isUnsignedNumber (chars : List Char) : Bool :=
  let isDigit (char : Char) : Bool := (Text.digitValue? char).isSome
  match chars.dropWhile isDigit with
  | [] => !chars.isEmpty
  | '.' :: fraction => !fraction.isEmpty && fraction.all isDigit
  | _ => false

/-- The word is a negative number; a line feed may end it. -/
def isNegativeNumber (word : String) : Bool :=
  match word.toList with
  | '-' :: rest =>
      isUnsignedNumber (if rest.getLast? == some '\n' then rest.dropLast else rest)
  | _ => false

/-- What a word is that begins with a dash and has more than that. -/
def classifyDashed {κ : Type} (options : List (OptionSpec κ)) (word : String) :
    Except Halt (WordKind κ) :=
  let (front, value) := cutAtEquals word
  match value.bind fun _ => optionNamed? options front with
  | some option => .ok (.known option front value)
  | none =>
      match candidates options word with
      | [(name, option, attached)] => .ok (.known option name attached)
      | _ :: _ :: _ => .error .usage
      | [] =>
          if isNegativeNumber word || word.toList.contains ' ' then .ok .operand
          else .ok .unknown

/-- What a word is. -/
def classify {κ : Type} (options : List (OptionSpec κ)) (word : String) :
    Except Halt (WordKind κ) :=
  match word.toList with
  | '-' :: rest =>
      match optionNamed? options word with
      | some option => .ok (.known option word none)
      | none => if rest.isEmpty then .ok .operand else classifyDashed options word
  | _ => .ok .operand

/-- What the words of a command line are. -/
def classifyAll {κ : Type} (options : List (OptionSpec κ)) :
    List String → Except Halt (List (String × WordKind κ))
  | [] => .ok []
  | word :: words =>
      if word == "--" then
        .ok ((word, .separator) :: words.map fun word => (word, .operand))
      else do
        let kind ← classify options word
        let rest ← classifyAll options words
        return (word, kind) :: rest

/-- What a written option still needs. -/
inductive Pending (κ : Type) where
  /-- Nothing. -/
  | done
  /-- Nothing: the value of the option is attached to it. -/
  | attached (key : κ) (value : String)
  /-- The next word, as the value of the option. -/
  | wanting (key : κ)

/-- The flags in a string of short options from one of them on, and what the last one needs. -/
def stringOfFlags {κ : Type} (options : List (OptionSpec κ)) (option : OptionSpec κ) :
    List Char → Except Halt (List κ × Pending κ)
  | [] =>
      .ok (if option.takesValue then ([], .wanting option.key) else ([option.key], .done))
  | char :: rest =>
      if option.takesValue then
        .ok ([], .attached option.key (String.ofList (char :: rest)))
      else
        match optionNamed? options (String.ofList ['-', char]) with
        | none => .error .usage
        | some next => do
            let (flags, pending) ← stringOfFlags options next rest
            return (option.key :: flags, pending)

/-- The flags that a written option stands for, and what it still needs. -/
def openOption {κ : Type} (options : List (OptionSpec κ)) (option : OptionSpec κ) (name : String)
    (attached : Option String) : Except Halt (List κ × Pending κ) :=
  match attached with
  | none => stringOfFlags options option []
  | some text =>
      if option.takesValue then .ok ([], .attached option.key text)
      else if text.isEmpty || Text.startsWith name "--" then .error .usage
      else stringOfFlags options option text.toList

/-- What a command does with the options it reads. -/
structure OptionReader (κ σ : Type) where
  /-- The options that it knows. -/
  options : List (OptionSpec κ)
  /-- Takes a flag, or an option with its value. -/
  take : σ → κ → Option String → Except Halt σ
  /-- The first operand ends the options. -/
  endsAtOperand : Bool

/-- What has been read of a command line. -/
structure Reading (σ : Type) where
  /-- What the options say. -/
  state : σ
  /-- A word was met that has no place. -/
  stray : Bool := false
  /-- The words from the first operand on, where it ends the options. -/
  rest : List String := []

/-- Takes flags in order. -/
def takeFlags {κ σ : Type} (reader : OptionReader κ σ) (state : σ) (flags : List κ) :
    Except Halt σ :=
  flags.foldlM (fun state key => reader.take state key none) state

/-- Reads classified words. -/
def readWords {κ σ : Type} (reader : OptionReader κ σ) :
    List (String × WordKind κ) → σ → Bool → Except Halt (Reading σ)
  | [], state, stray => .ok { state, stray }
  | (word, .operand) :: words, state, stray =>
      if reader.endsAtOperand then
        .ok { state, stray, rest := word :: words.map (·.1) }
      else
        readWords reader words state true
  | (_, .separator) :: words, state, _ =>
      if reader.endsAtOperand then .error .usage else readWords reader words state true
  | (_, .unknown) :: words, state, _ => readWords reader words state true
  | [(_, .known option name attached)], state, stray => do
      let (flags, pending) ← openOption reader.options option name attached
      match pending with
      | .done => return { state := ← takeFlags reader state flags, stray }
      | .attached key value =>
          let state ← takeFlags reader state flags
          return { state := ← reader.take state key (some value), stray }
      | .wanting _ => throw .usage
  | (_, .known option name attached) :: (next, kind) :: words, state, stray => do
      let (flags, pending) ← openOption reader.options option name attached
      match pending with
      | .done => readWords reader ((next, kind) :: words) (← takeFlags reader state flags) stray
      | .attached key value =>
          let state ← takeFlags reader state flags
          readWords reader ((next, kind) :: words) (← reader.take state key (some value)) stray
      | .wanting key =>
          match kind with
          | .operand =>
              let state ← takeFlags reader state flags
              readWords reader words (← reader.take state key (some next)) stray
          | _ => throw .usage

/-- Reads a command line. -/
def read {κ σ : Type} (reader : OptionReader κ σ) (words : List String) (state : σ) :
    Except Halt (Reading σ) := do
  readWords reader (← classifyAll reader.options words) state false

end CodeGraph.CommandLine
