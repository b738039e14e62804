import CodeGraph.Proofs.Compiler.Courses

/-!
# A load with a log

A load can keep a log of the configuration files that it reads. That changes nothing about the load:
it comes to the same, and gives the same notices. Nor does the log leave anything out: a load comes
to the same in a tree where only files outside its log have other contents.
-/

namespace CodeGraph

/-- What a load that keeps a log has done so far. -/
structure ReadLog where
  /-- What has been seen and told. -/
  trail : ConfigTrail := {}
  /-- The files read, in order, whether or not they could be used. -/
  reads : List Path := []
  /-- The bound on the length of a chain has been met. -/
  cutShort : Bool := false

namespace ReadLog

/-- The log with a place marked as seen. -/
def mark (log : ReadLog) (place : Path) : ReadLog :=
  { log with trail := { log.trail with seen := log.trail.seen ++ [place] } }

/-- The log with a file read. -/
def addRead (log : ReadLog) (path : Path) : ReadLog :=
  { log with reads := log.reads ++ [path] }

end ReadLog

/-- A step of a load that keeps a log. -/
abbrev LoggedLoading (α : Type) := ExceptT ConfigError (StateM ReadLog) α

namespace LoggedLoading

variable {α β : Type}

/-- A step that reads no file. -/
def ofLoading (step : Loading α) : LoggedLoading α :=
  ExceptT.mk fun log =>
    let (outcome, trail) := step.run.run log.trail
    (outcome, { log with trail })

/-- Reads the JSON object in a configuration file. -/
def readObject (tree : FileTree) (path : Path) : LoggedLoading Json :=
  ExceptT.mk fun log => (CompilerOptions.readObject tree path, log.addRead path)

/-- Notes that the bound on the length of a chain has been met. -/
def meetBound : LoggedLoading Unit :=
  modify fun log => { log with cutShort := true }

variable {log after : ReadLog} {value : α} {step : LoggedLoading α}

theorem run_bind (next : α → LoggedLoading β) (gives : step.run.run log = (.ok value, after)) :
    (step >>= next).run.run log = (next value).run.run after := by
  rw [ExceptT.run_bind, StateT.run_bind, gives]
  rfl

/-- A failed step ends the load. -/
theorem run_error {error : ConfigError} (next : α → LoggedLoading β)
    (fails : step.run.run log = (.error error, after)) :
    (step >>= next).run.run log = (.error error, after) := by
  rw [ExceptT.run_bind, StateT.run_bind, fails]
  rfl

theorem run_ofFile {outcome : Except FileFault α} (succeeds : outcome = .ok value) :
    (ofLoading (Loading.ofFile outcome)).run.run log = (.ok value, log) := by
  rw [succeeds]
  rfl

end LoggedLoading

namespace CompilerOptions

open LoggedLoading (ofLoading)

/-- The merged options of the files that the references in a file mean, with a log. -/
def mergeAllLogged (tree : FileTree) (visit : Path → LoggedLoading MergedOptions) (path : Path) :
    List String → LoggedLoading MergedOptions
  | [] => return []
  | name :: names => do
      let first ←
        match ← ofLoading (Loading.ofFile (locate? tree path.parent name)) with
        | some found => visit found
        | none => do
            ofLoading (Loading.tell .debug
              ("tsconfig extends " ++ name ++ " not found from " ++ path.text))
            pure []
      let rest ← mergeAllLogged tree visit path names
      return first.overlay rest

/-- The merged options of a file, with a log. -/
def mergeLogged (tree : FileTree) : (fuel : Nat) → Path → LoggedLoading MergedOptions
  | 0, _ => do
      LoggedLoading.meetBound
      return []
  | fuel + 1, path => do
      let resolved ← ofLoading (Loading.ofFile (tree.resolve path))
      if (← ofLoading get).seen.contains resolved then
        ofLoading (Loading.tell .warning ("Ignoring circular tsconfig extends at " ++ path.text))
        return []
      else
        ofLoading (modify fun trail => { trail with seen := trail.seen ++ [resolved] })
        let config ← LoggedLoading.readObject tree path
        let names ← ofLoading (Loading.ofExcept (references (config.member? "extends")))
        let inherited ← mergeAllLogged tree (mergeLogged tree fuel) path names
        let own ← ofLoading (Loading.ofExcept (ownOptions tree path config))
        return inherited.overlay own

/-! ## The log changes nothing -/

/-- A step that keeps a log does what another step does without. -/
def Mirrors {α : Type} (logged : LoggedLoading α) (step : Loading α) : Prop :=
  ∀ log : ReadLog, (logged.run.run log).1 = (step.run.run log.trail).1 ∧
    (logged.run.run log).2.trail = (step.run.run log.trail).2

section Mirrors

variable {α β : Type} {logged : LoggedLoading α} {step : Loading α}
  {next : α → LoggedLoading β} {next' : α → Loading β}

theorem mirrors_ofLoading (step : Loading α) : Mirrors (ofLoading step) step :=
  fun _ => ⟨rfl, rfl⟩

theorem mirrors_pure (value : α) : Mirrors (pure value) (pure value) :=
  fun _ => ⟨rfl, rfl⟩

theorem mirrors_readObject (tree : FileTree) (path : Path) :
    Mirrors (LoggedLoading.readObject tree path) (Loading.ofExcept (readObject tree path)) :=
  fun _ => ⟨rfl, rfl⟩

theorem Mirrors.bind (first : Mirrors logged step)
    (later : ∀ value, Mirrors (next value) (next' value)) :
    Mirrors (logged >>= next) (step >>= next') := by
  intro log
  rw [ExceptT.run_bind, StateT.run_bind, ExceptT.run_bind, StateT.run_bind]
  obtain ⟨outcome_eq, trail_eq⟩ := first log
  cases ran : logged.run.run log with
  | mk outcome after =>
      cases ran' : step.run.run log.trail with
      | mk outcome' trail =>
          rw [ran, ran'] at outcome_eq trail_eq
          dsimp only at outcome_eq trail_eq
          subst outcome_eq trail_eq
          cases outcome with
          | error => exact ⟨rfl, rfl⟩
          | ok value => exact later value after

end Mirrors

variable {tree : FileTree} {path file : Path} {fuel : Nat}
  {visit : Path → LoggedLoading MergedOptions}

theorem mirrors_mergeAll (visits : ∀ file, Mirrors (visit file) (merge tree fuel file))
    (names : List String) :
    Mirrors (mergeAllLogged tree visit path names) (mergeAll tree fuel path names) := by
  induction names with
  | nil =>
      rw [mergeAllLogged, mergeAll]
      exact mirrors_pure []
  | cons name names ih =>
      rw [mergeAllLogged, mergeAll]
      have others (first : MergedOptions) :
          Mirrors (do return first.overlay (← mergeAllLogged tree visit path names))
            (do return first.overlay (← mergeAll tree fuel path names)) :=
        ih.bind fun rest => mirrors_pure _
      refine (mirrors_ofLoading _).bind fun found => ?_
      cases found with
      | none =>
          exact (mirrors_ofLoading _).bind fun _ => (mirrors_pure []).bind others
      | some file => exact (visits file).bind others

theorem mirrors_merge (fuel : Nat) (file : Path) :
    Mirrors (mergeLogged tree fuel file) (merge tree fuel file) := by
  induction fuel generalizing file with
  | zero =>
      rw [mergeLogged, merge]
      exact fun _ => ⟨rfl, rfl⟩
  | succ fuel ih =>
      rw [mergeLogged, merge]
      refine (mirrors_ofLoading _).bind fun resolved => (mirrors_ofLoading _).bind fun trail => ?_
      split
      · exact (mirrors_ofLoading _).bind fun _ => mirrors_pure []
      · exact (mirrors_ofLoading _).bind fun _ => (mirrors_readObject tree file).bind fun config =>
          (mirrors_ofLoading _).bind fun names => (mirrors_mergeAll ih names).bind fun inherited =>
            (mirrors_ofLoading _).bind fun own => mirrors_pure _

/-! ## The log leaves nothing out -/

/-- Paths lead to the same places in both trees, with files at the same ones. What is in these files
may differ. -/
structure SameLookups (tree other : FileTree) : Prop where
  resolve : ∀ path, other.resolve path = tree.resolve path
  isFile : ∀ path, other.isFile path = tree.isFile path
  leafCount : other.top.leafCount = tree.top.leafCount

namespace SameLookups

variable {other : FileTree}

theorem firstFile? (same : SameLookups tree other) (paths : List Path) :
    CompilerOptions.firstFile? other paths = CompilerOptions.firstFile? tree paths := by
  induction paths with
  | nil => rfl
  | cons path paths ih =>
      rw [CompilerOptions.firstFile?, CompilerOptions.firstFile?, same.isFile, ih]

theorem packageFile? (same : SameLookups tree other) (reference : String) (paths : List Path) :
    CompilerOptions.packageFile? other reference paths
      = CompilerOptions.packageFile? tree reference paths := by
  induction paths with
  | nil => rfl
  | cons path paths ih =>
      simp only [CompilerOptions.packageFile?, same.firstFile?, ih]

theorem locate? (same : SameLookups tree other) (directory : Path) (reference : String) :
    CompilerOptions.locate? other directory reference
      = CompilerOptions.locate? tree directory reference := by
  simp only [CompilerOptions.locate?, same.resolve, same.isFile, same.firstFile?, same.packageFile?]

theorem takeOption (same : SameLookups tree other) :
    CompilerOptions.takeOption other = CompilerOptions.takeOption tree := by
  funext directory options stated
  simp only [CompilerOptions.takeOption, same.resolve]

theorem ownOptions (same : SameLookups tree other) (path : Path) (config : Json) :
    CompilerOptions.ownOptions other path config = CompilerOptions.ownOptions tree path config := by
  simp only [CompilerOptions.ownOptions, same.takeOption]

theorem settle (same : SameLookups tree other) (stated : StatedOptions) :
    CompilerOptions.settle other stated = CompilerOptions.settle tree stated := by
  have directory : OptionValue.toDirectory other = OptionValue.toDirectory tree := by
    funext value
    cases value with
    | directory => rfl
    | stated value => cases value <;> simp only [OptionValue.toDirectory, same.resolve]
  simp only [CompilerOptions.settle, directory]

end SameLookups

/-- A step in a tree loses no file of the log, and a step in another tree does the same if the files
in the log have the same contents there. -/
structure RestsOnLog {α : Type} (tree other : FileTree) (step step' : LoggedLoading α) : Prop where
  keeps : ∀ log : ReadLog, log.reads ⊆ (step.run.run log).2.reads
  same : ∀ log : ReadLog, (∀ path ∈ (step.run.run log).2.reads,
    readObject other path = readObject tree path) → step'.run.run log = step.run.run log

section RestsOnLog

variable {α β : Type} {other : FileTree} {step step' : LoggedLoading α}
  {next next' : α → LoggedLoading β}

theorem restsOnLog_ofLoading (step : Loading α) :
    RestsOnLog tree other (ofLoading step) (ofLoading step) :=
  ⟨fun _ => List.Subset.refl _, fun _ _ => rfl⟩

theorem restsOnLog_pure (value : α) : RestsOnLog tree other (pure value) (pure value) :=
  ⟨fun _ => List.Subset.refl _, fun _ _ => rfl⟩

theorem restsOnLog_readObject (path : Path) :
    RestsOnLog tree other (LoggedLoading.readObject tree path)
      (LoggedLoading.readObject other path) where
  keeps log := List.subset_append_left log.reads [path]
  same log agree := by
    have read : path ∈ (log.addRead path).reads := by simp [ReadLog.addRead]
    exact congrArg (·, log.addRead path) (agree path read)

theorem RestsOnLog.bind (first : RestsOnLog tree other step step')
    (later : ∀ value, RestsOnLog tree other (next value) (next' value)) :
    RestsOnLog tree other (step >>= next) (step' >>= next') := by
  have run (log : ReadLog) : log.reads ⊆ ((step >>= next).run.run log).2.reads ∧
      ((∀ path ∈ ((step >>= next).run.run log).2.reads,
        readObject other path = readObject tree path) →
          (step' >>= next').run.run log = (step >>= next).run.run log) := by
    have more := first.keeps log
    have same := first.same log
    rw [ExceptT.run_bind, StateT.run_bind, ExceptT.run_bind, StateT.run_bind]
    cases ran : step.run.run log with
    | mk outcome after =>
        rw [ran] at more same
        cases outcome with
        | error error =>
            refine ⟨more, fun agree => ?_⟩
            rw [same agree]
            rfl
        | ok value =>
            have kept := (later value).keeps after
            refine ⟨List.Subset.trans more kept, fun agree => ?_⟩
            rw [same fun path read => agree path (kept read)]
            exact (later value).same after agree
  exact ⟨fun log => (run log).1, fun log => (run log).2⟩

end RestsOnLog

variable {other : FileTree} {visit' : Path → LoggedLoading MergedOptions}

theorem restsOnLog_mergeAllLogged (same : SameLookups tree other)
    (visits : ∀ file, RestsOnLog tree other (visit file) (visit' file)) (names : List String) :
    RestsOnLog tree other (mergeAllLogged tree visit path names)
      (mergeAllLogged other visit' path names) := by
  induction names with
  | nil =>
      rw [mergeAllLogged, mergeAllLogged]
      exact restsOnLog_pure []
  | cons name names ih =>
      rw [mergeAllLogged, mergeAllLogged, same.locate?]
      have others (first : MergedOptions) :
          RestsOnLog tree other (do return first.overlay (← mergeAllLogged tree visit path names))
            (do return first.overlay (← mergeAllLogged other visit' path names)) :=
        ih.bind fun rest => restsOnLog_pure _
      refine (restsOnLog_ofLoading _).bind fun found => ?_
      cases found with
      | none =>
          exact (restsOnLog_ofLoading _).bind fun _ => (restsOnLog_pure []).bind others
      | some file => exact (visits file).bind others

/-- A load rests on the files in its log alone. -/
theorem restsOnLog_mergeLogged (same : SameLookups tree other) (fuel : Nat) (file : Path) :
    RestsOnLog tree other (mergeLogged tree fuel file) (mergeLogged other fuel file) := by
  induction fuel generalizing file with
  | zero =>
      rw [mergeLogged, mergeLogged]
      exact ⟨fun _ => List.Subset.refl _, fun _ _ => rfl⟩
  | succ fuel ih =>
      rw [mergeLogged, mergeLogged, same.resolve]
      refine (restsOnLog_ofLoading _).bind fun resolved =>
        (restsOnLog_ofLoading _).bind fun trail => ?_
      split
      · exact (restsOnLog_ofLoading _).bind fun _ => restsOnLog_pure []
      · refine (restsOnLog_ofLoading _).bind fun _ =>
          (restsOnLog_readObject file).bind fun config =>
            (restsOnLog_ofLoading _).bind fun names =>
              (restsOnLog_mergeAllLogged same ih names).bind fun inherited => ?_
        rw [same.ownOptions]
        exact (restsOnLog_ofLoading _).bind fun own => restsOnLog_pure _

/-! ## Whole loads -/

/-- The merged options of a configuration file and all that it extends, with the log. -/
def readMergedLogged (tree : FileTree) (path : Path) : Noted ConfigError MergedOptions × ReadLog :=
  let result := (mergeLogged tree (tree.top.leafCount + 2) path).run.run {}
  ({ notices := result.2.trail.notices, outcome := result.1 }, result.2)

/-- Goes on with what a lookup finds; nothing has been read before. -/
def afterLookup {α : Type} (lookup : Except FileFault α)
    (next : α → Noted ConfigError StatedOptions × ReadLog) :
    Noted ConfigError StatedOptions × ReadLog :=
  match lookup with
  | .ok found => next found
  | .error fault => (Noted.ofExcept (.error (.file fault)), {})

/-- Loads the options in a configuration that is named, with a log. -/
def loadNamedLogged (tree : FileTree) (path : Path) :
    Noted ConfigError StatedOptions × ReadLog :=
  afterLookup (tree.isFile path) fun present =>
    if present then
      let reading := readMergedLogged tree path
      (do return ofMerged (← reading.1) path, reading.2)
    else
      (Noted.ofExcept (.error (.notFound path)), {})

/-- The options of a project that names no configuration, as far as they have been read. -/
def concludeDefault (path : Path) (reading : Noted ConfigError MergedOptions) :
    Noted ConfigError StatedOptions := do
  Noted.tell reading.notices
  match reading.outcome with
  | .ok merged => return ofMerged merged path
  | .error error =>
      if error.isRecoverable then
        Noted.tell [{ level := .warning
                      message := error.message ++ "; using default compiler options" }]
        return {}
      else
        Noted.ofExcept (.error error)

/-- Loads the options of a project that names no configuration, with a log. -/
def loadDefaultLogged (tree : FileTree) (root : Path) :
    Noted ConfigError StatedOptions × ReadLog :=
  afterLookup (defaultFile? tree root) fun
    | some path =>
        let reading := readMergedLogged tree path
        (concludeDefault path reading.1, reading.2)
    | none =>
        let noted : Noted ConfigError StatedOptions := do
          Noted.tell [{ level := .debug
                        message := "No tsconfig found under " ++ root.text ++ "; using defaults" }]
          return {}
        (noted, {})

/-- Loads the options of a project, with a log. -/
def loadLogged (tree : FileTree) (root : Path) (named : Option String) :
    Noted ConfigError CompilerOptions × ReadLog :=
  let stated :=
    match named with
    | some name => loadNamedLogged tree (root.below name)
    | none => loadDefaultLogged tree root
  (do Noted.ofExcept (settle tree (← stated.1)), stated.2)

variable {root : Path}

theorem readMergedLogged_fst (tree : FileTree) (path : Path) :
    (readMergedLogged tree path).1 = readMerged tree path := by
  have mirrors : Mirrors (mergeLogged tree (tree.top.leafCount + 2) path)
      (merge tree (tree.top.leafCount + 2) path) := mirrors_merge _ path
  obtain ⟨outcome_eq, trail_eq⟩ := mirrors {}
  rw [readMergedLogged, readMerged]
  exact congrArg₂ (fun notices outcome => Noted.mk notices outcome)
    (congrArg ConfigTrail.notices trail_eq) outcome_eq

theorem loadNamedLogged_fst (tree : FileTree) (path : Path) :
    (loadNamedLogged tree path).1 = loadNamed tree path := by
  rw [loadNamedLogged, loadNamed, ← readMergedLogged_fst]
  cases tree.isFile path with
  | error fault => rfl
  | ok present =>
      cases present with
      | true | false => rfl

theorem loadDefaultLogged_fst (tree : FileTree) (root : Path) :
    (loadDefaultLogged tree root).1 = loadDefault tree root := by
  rw [loadDefaultLogged, loadDefault]
  simp only [← readMergedLogged_fst]
  cases defaultFile? tree root with
  | error fault => rfl
  | ok found =>
      cases found with
      | some path | none => rfl

/-- A load with a log comes to what a load without comes to, with the same notices. -/
theorem loadLogged_fst (tree : FileTree) (root : Path) (named : Option String) :
    (loadLogged tree root named).1 = load tree root named := by
  unfold loadLogged load
  cases named with
  | none =>
      dsimp only
      rw [← loadDefaultLogged_fst]
  | some name =>
      dsimp only
      rw [← loadNamedLogged_fst]

theorem readMergedLogged_eq (same : SameLookups tree other)
    (agree : ∀ path ∈ (readMergedLogged tree file).2.reads,
      readObject other path = readObject tree path) :
    readMergedLogged other file = readMergedLogged tree file := by
  have run := (restsOnLog_mergeLogged same (tree.top.leafCount + 2) file).same {} agree
  rw [readMergedLogged, readMergedLogged, same.leafCount, run]

/-- What has been read behind a lookup is what has been read. -/
theorem afterLookup_congr {α : Type} {lookup : Except FileFault α}
    {next next' : α → Noted ConfigError StatedOptions × ReadLog}
    (agree : ∀ path ∈ (afterLookup lookup next).2.reads,
      readObject other path = readObject tree path)
    (same : ∀ found, (∀ path ∈ (next found).2.reads,
      readObject other path = readObject tree path) → next' found = next found) :
    afterLookup lookup next' = afterLookup lookup next := by
  cases lookup with
  | error fault => rfl
  | ok found => exact same found agree

theorem loadNamedLogged_eq (same : SameLookups tree other)
    (agree : ∀ path ∈ (loadNamedLogged tree file).2.reads,
      readObject other path = readObject tree path) :
    loadNamedLogged other file = loadNamedLogged tree file := by
  rw [loadNamedLogged] at agree ⊢
  rw [loadNamedLogged, same.isFile]
  refine afterLookup_congr agree fun present agree => ?_
  split at agree
  next found => rw [if_pos found, if_pos found, readMergedLogged_eq same agree]
  next absent => rw [if_neg absent, if_neg absent]

theorem loadDefaultLogged_eq (same : SameLookups tree other)
    (agree : ∀ path ∈ (loadDefaultLogged tree root).2.reads,
      readObject other path = readObject tree path) :
    loadDefaultLogged other root = loadDefaultLogged tree root := by
  rw [loadDefaultLogged] at agree ⊢
  rw [loadDefaultLogged, defaultFile?, same.firstFile?, ← defaultFile?]
  refine afterLookup_congr agree fun found agree => ?_
  cases found with
  | none => rfl
  | some path => dsimp only; rw [readMergedLogged_eq same agree]

/-- In a tree where the files in its log have the same contents, a load comes to the same. -/
theorem loadLogged_eq (same : SameLookups tree other) {named : Option String}
    (agree : ∀ path ∈ (loadLogged tree root named).2.reads,
      readObject other path = readObject tree path) :
    loadLogged other root named = loadLogged tree root named := by
  unfold loadLogged at agree ⊢
  cases named with
  | none => simp only [loadDefaultLogged_eq same agree, same.settle]
  | some name => simp only [loadNamedLogged_eq same agree, same.settle]

end CompilerOptions

end CodeGraph
