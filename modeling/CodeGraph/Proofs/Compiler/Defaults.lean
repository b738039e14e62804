import CodeGraph.Proofs.Compiler.Courses

/-!
# Broken configurations

A configuration can be broken at every file of its chain, and each file in several ways. Some of
them make a configuration that nobody named count as absent, and the others fail the load: bytes
that are no text, numbers and nesting beyond what can be read, an `extends` that is neither a name
nor a list, and paths that cannot be followed. What decides is the first defect that the load meets.
-/

namespace CodeGraph

/-- Notices have no part in what comes of two steps. -/
theorem Noted.outcome_bind {ε α β : Type} (step : Noted ε α) (next : α → Noted ε β) :
    (step >>= next).outcome = step.outcome.bind fun value => (next value).outcome := by
  obtain ⟨_, _ | _⟩ := step <;> rfl

namespace CompilerOptions

variable {tree : FileTree} {start path file : Path} {error : ConfigError}

/-! ## Defects -/

/-- A reference in a file means another file. -/
def Refers (tree : FileTree) (file other : Path) : Prop :=
  ∃ config names name, readObject tree file = .ok config ∧
    references (config.member? "extends") = .ok names ∧ name ∈ names ∧
      locate? tree file.parent name = .ok (some other)

/-- The file belongs to the chain that begins at a file. -/
abbrev InChain (tree : FileTree) (start : Path) : Path → Prop :=
  Relation.ReflTransGen (Refers tree) start

/-- A way in which a configuration file is broken, with the failure that it makes. -/
inductive Defect (tree : FileTree) (file : Path) : ConfigError → Prop
  /-- The file's path cannot be followed. -/
  | unresolved {fault : FileFault} (fails : tree.resolve file = .error fault) :
      Defect tree file (.file fault)
  /-- There is nothing to read. -/
  | unreadable (absent : tree.file? file = none) : Defect tree file (.unreadable file)
  /-- The bytes are no text. -/
  | notText {content : Content} (stands : tree.file? file = some content)
      (unread : content.text? = none) : Defect tree file .notText
  /-- The text is no JSON. -/
  | notJson {content : Content} {text : String} (stands : tree.file? file = some content)
      (read : content.text? = some text)
      (fails : Json.parseRelaxed .standard text = .error .malformed) :
      Defect tree file (.invalid file)
  /-- The text holds an integer with too many digits. -/
  | longNumber {content : Content} {text : String} (stands : tree.file? file = some content)
      (read : content.text? = some text)
      (fails : Json.parseRelaxed .standard text = .error .longNumber) :
      Defect tree file .longNumber
  /-- The values in the text stand too deeply inside of each other. -/
  | tooDeep {content : Content} {text : String} (stands : tree.file? file = some content)
      (read : content.text? = some text)
      (fails : Json.parseRelaxed .standard text = .error .tooDeep) : Defect tree file .tooDeep
  /-- The text is another JSON value than an object. -/
  | notObject {content : Content} {text : String} {value : Json}
      (stands : tree.file? file = some content) (read : content.text? = some text)
      (parsed : Json.parseRelaxed .standard text = .ok value)
      (other : ∀ members, value ≠ .object members) : Defect tree file (.notObject file)
  /-- What the file extends is a number or true. -/
  | badExtends {config value : Json} (read : readObject tree file = .ok config)
      (stated : config.member? "extends" = some value) (given : value.isTruthy = true)
      (atom : (∀ name, value ≠ .text name) ∧ (∀ items, value ≠ .list items) ∧
        ∀ members, value ≠ .object members) : Defect tree file .badExtends
  /-- The way to what a reference means cannot be followed. -/
  | unlocated {config : Json} {names : List String} {name : String} {fault : FileFault}
      (read : readObject tree file = .ok config)
      (named : references (config.member? "extends") = .ok names) (present : name ∈ names)
      (fails : locate? tree file.parent name = .error fault) : Defect tree file (.file fault)
  /-- The compiler options are neither an object nor empty. -/
  | badOptions {config value : Json} (read : readObject tree file = .ok config)
      (stated : config.member? "compilerOptions" = some value) (given : value.isTruthy = true)
      (other : ∀ members, value ≠ .object members) : Defect tree file (.optionsNotObject file)
  /-- A directory that an option means cannot be followed. -/
  | unplaced {config : Json} {members : List (String × Json)} {fault : FileFault}
      (read : readObject tree file = .ok config)
      (stated : config.member? "compilerOptions" = some (.object members))
      (fails : members.foldlM (takeOption tree file.parent) [] = .error fault) :
      Defect tree file (.file fault)

/-- Four kinds of defects make a configuration that nobody names count as absent. -/
theorem Defect.isRecoverable_iff (defect : Defect tree file error) :
    error.isRecoverable = true ↔
      error ∈ [.unreadable file, .invalid file, .notObject file, .optionsNotObject file] := by
  have never_for_paths (fault : FileFault) : (ConfigError.file fault).isRecoverable = false := by
    cases fault <;> rfl
  cases defect with
  | unresolved | unlocated | unplaced => simp [never_for_paths]
  | unreadable | notJson | notObject | badOptions | notText | longNumber | tooDeep | badExtends =>
      simp [ConfigError.isRecoverable, ConfigError.sort]

theorem defect_of_readObject (fails : readObject tree file = .error error) :
    Defect tree file error := by
  rw [readObject] at fails
  split at fails
  next absent =>
    obtain rfl := Except.error.inj fails
    exact .unreadable absent
  next content stands =>
    split at fails
    next unread =>
      obtain rfl := Except.error.inj fails
      exact .notText stands unread
    next text read =>
      split at fails
      next fault unparsed =>
        obtain rfl := Except.error.inj fails
        cases fault with
        | malformed => exact .notJson stands read unparsed
        | longNumber => exact .longNumber stands read unparsed
        | tooDeep => exact .tooDeep stands read unparsed
      next => exact nomatch fails
      next value other parsed =>
        obtain rfl := Except.error.inj fails
        exact .notObject stands read parsed fun members same => other members same

theorem defect_of_references {config : Json} (read : readObject tree file = .ok config)
    (fails : references (config.member? "extends") = .error error) : Defect tree file error := by
  cases stated : config.member? "extends" with
  | none => exact nomatch stated ▸ fails
  | some value =>
      rw [stated] at fails
      cases value with
      | text | list | object => exact nomatch fails
      | null | bool | int | real =>
          simp only [references] at fails
          split at fails
          next given =>
            obtain rfl := Except.error.inj fails
            exact .badExtends read stated given ⟨nofun, nofun, nofun⟩
          next => exact nomatch fails

theorem defect_of_ownOptions {config : Json} (read : readObject tree file = .ok config)
    (fails : ownOptions tree file config = .error error) : Defect tree file error := by
  cases stated : config.member? "compilerOptions" with
  | none =>
      rw [ownOptions, stated] at fails
      exact nomatch fails
  | some value =>
      simp only [ownOptions, stated, Option.getD_some] at fails
      split at fails
      next => exact nomatch fails
      next given =>
        split at fails
        next members =>
          cases taken : members.foldlM (takeOption tree file.parent) [] with
          | error fault =>
              rw [taken] at fails
              obtain rfl := Except.error.inj fails
              exact .unplaced read stated taken
          | ok own =>
              rw [taken] at fails
              exact nomatch fails
        next other =>
          obtain rfl := Except.error.inj fails
          exact .badOptions read stated (by simpa using given) fun members same =>
            other members same

/-! ## Where a load fails -/

/-- The task is about a file of the chain. -/
def Task.InChain (tree : FileTree) (start : Path) : Task → Prop
  | visit path => CompilerOptions.InChain tree start path
  | follow path name => CompilerOptions.InChain tree start path ∧ ∃ config names,
      readObject tree path = .ok config ∧ references (config.member? "extends") = .ok names ∧
        name ∈ names
  | take path config =>
      CompilerOptions.InChain tree start path ∧ readObject tree path = .ok config

variable {task : Task} {seen : List Path} {merged : MergedOptions} {rest : List Task}

/-- A task that is done leaves tasks about files of the chain. -/
theorem Task.InChain.step {next : Course} (about : task.InChain tree start)
    (further : ∀ other ∈ rest, other.InChain tree start)
    (leaves : task.Leaves tree seen merged rest next) :
    ∀ other ∈ next.tasks, other.InChain tree start := by
  cases leaves with
  | known | take => exact further
  | @read path resolved config names resolves new read named =>
      intro other present
      rcases List.mem_append.mp present with followed | later
      · obtain ⟨name, name_mem, rfl⟩ := List.mem_map.mp followed
        exact ⟨about, config, names, read, named, name_mem⟩
      · rcases List.mem_cons.mp later with rfl | later
        · exact ⟨about, read⟩
        · exact further other later
  | follow located =>
      obtain ⟨inside, config, names, read, named, name_mem⟩ := about
      intro other present
      rcases List.mem_append.mp present with visited | later
      · obtain ⟨file, rfl, rfl⟩ := Option.map_eq_some_iff.mp (Option.mem_toList.mp visited)
        exact inside.tail ⟨config, names, _, read, named, name_mem, located⟩
      · exact further other later

/-- A task fails by a defect of a file of the chain. -/
theorem Task.InChain.failure (about : task.InChain tree start)
    (fails : task.Fails tree seen error) :
    ∃ file, CompilerOptions.InChain tree start file ∧ Defect tree file error := by
  cases fails with
  | unresolved resolves => exact ⟨_, about, .unresolved resolves⟩
  | unread resolves new unread => exact ⟨_, about, defect_of_readObject unread⟩
  | unnamed resolves new read unnamed => exact ⟨_, about, defect_of_references read unnamed⟩
  | unlocated located =>
      obtain ⟨inside, config, names, read, named, name_mem⟩ := about
      exact ⟨_, inside, .unlocated read named name_mem located⟩
  | unowned unowned => exact ⟨_, about.1, defect_of_ownOptions about.2 unowned⟩

/-- A load that fails meets a defect of a file of the chain. -/
theorem Ends.defect {course : Course} (about : ∀ task ∈ course.tasks, task.InChain tree start)
    {ending : Except ConfigError MergedOptions} (ends : Ends tree course ending)
    (failed : ending = .error error) :
    ∃ file, InChain tree start file ∧ Defect tree file error := by
  induction ends with
  | done => exact nomatch failed
  | fails failure =>
      obtain rfl := Except.error.inj failed
      exact (about _ List.mem_cons_self).failure (Task.run_eq_error_iff.mp failure)
  | goes step further ih =>
      obtain ⟨first, others⟩ := List.forall_mem_cons.mp about
      exact ih (first.step others (Task.run_eq_ok_iff.mp step)) failed

/-! ## Where a load succeeds -/

/-- These files are a whole chain: every one can be used, and the files that it extends are among
them, files being told apart by their place. -/
structure WholeChain (tree : FileTree) (start : Path) (files : List Path) : Prop where
  starts : ∃ file ∈ files, tree.resolve file = tree.resolve start
  closed : ∀ file ∈ files, ∃ sheet, readSheet tree file = .ok sheet ∧
    ∀ parent ∈ sheet.parents, ∃ other ∈ files, tree.resolve other = tree.resolve parent

variable {files : List Path} {resolved : Path}

/-- The place of the file is known, or it is that of one of these files. -/
def Covered (tree : FileTree) (seen files : List Path) (path : Path) : Prop :=
  ∃ resolved, tree.resolve path = .ok resolved ∧
    (resolved ∈ seen ∨ ∃ file ∈ files, tree.resolve file = .ok resolved)

theorem Covered.read {other : Path} (resolves : tree.resolve file = .ok resolved)
    (covered : Covered tree (seen ++ [resolved]) files other) :
    Covered tree seen (file :: files) other := by
  obtain ⟨place, place_eq, known | ⟨same, same_mem, same_eq⟩⟩ := covered
  · rcases List.mem_append.mp known with before | here
    · exact ⟨place, place_eq, .inl before⟩
    · obtain rfl := List.mem_singleton.mp here
      exact ⟨place, place_eq, .inr ⟨file, List.mem_cons_self, resolves⟩⟩
  · exact ⟨place, place_eq, .inr ⟨same, List.mem_cons_of_mem file same_mem, same_eq⟩⟩

/-- The task can be done, with what it leads to being one of these files. -/
def Task.Settled (tree : FileTree) (seen files : List Path) : Task → Prop
  | visit path => Covered tree seen files path
  | follow path name => ∃ found, locate? tree path.parent name = .ok found ∧
      ∀ other ∈ found, Covered tree seen files other
  | take path config => ∃ own, ownOptions tree path config = .ok own

theorem Task.Settled.read (resolves : tree.resolve file = .ok resolved)
    (settled : task.Settled tree (seen ++ [resolved]) files) :
    task.Settled tree seen (file :: files) := by
  cases task with
  | visit => exact Covered.read resolves settled
  | follow =>
      obtain ⟨found, located, covered⟩ := settled
      exact ⟨found, located, fun other present => (covered other present).read resolves⟩
  | take => exact settled

/-- The file can be read, and what is then to do can be done. -/
def ReadOut (tree : FileTree) (seen files : List Path) (file : Path) : Prop :=
  ∃ resolved config names, tree.resolve file = .ok resolved ∧ readObject tree file = .ok config ∧
    references (config.member? "extends") = .ok names ∧
      ∀ task ∈ names.map (Task.follow file) ++ [.take file config], task.Settled tree seen files

/-- A place that is known no longer has to be once its file counts as one of those read. -/
theorem ReadOut.read {other : Path} (resolves : tree.resolve file = .ok resolved)
    (read_out : ReadOut tree (seen ++ [resolved]) files other) :
    ReadOut tree seen (file :: files) other := by
  obtain ⟨place, config, names, place_eq, read, named, done⟩ := read_out
  exact ⟨place, config, names, place_eq, read, named, fun task present =>
    (done task present).read resolves⟩

/-- A load that succeeds has read the files that its tasks lead to. -/
theorem Ends.settled {course : Course} {ending : Except ConfigError MergedOptions}
    (ends : Ends tree course ending) (succeeded : ending = .ok merged) :
    ∃ files, (∀ task ∈ course.tasks, task.Settled tree course.seen files) ∧
      ∀ file ∈ files, ReadOut tree course.seen files file := by
  induction ends with
  | done => exact ⟨[], List.forall_mem_nil _, List.forall_mem_nil _⟩
  | fails => exact nomatch succeeded
  | @goes seen merged task rest next ending step further ih =>
      obtain ⟨files, settled, read_out⟩ := ih succeeded
      cases Task.run_eq_ok_iff.mp step with
      | known resolves known =>
          exact ⟨files, List.forall_mem_cons.mpr ⟨⟨_, resolves, .inl known⟩, settled⟩, read_out⟩
      | @read path resolved config names resolves new read named =>
          have settled' (task : Task) (present : task ∈ names.map (Task.follow path) ++
              [.take path config] ++ rest) : task.Settled tree seen (path :: files) :=
            (settled task (by simpa using present)).read resolves
          have here : Covered tree seen (path :: files) path :=
            ⟨resolved, resolves, .inr ⟨path, List.mem_cons_self, resolves⟩⟩
          have out : ReadOut tree seen (path :: files) path :=
            ⟨resolved, config, names, resolves, read, named, fun task present =>
              settled' task (List.mem_append_left _ present)⟩
          exact ⟨path :: files,
            List.forall_mem_cons.mpr ⟨here, fun task later =>
              settled' task (List.mem_append_right _ later)⟩,
            List.forall_mem_cons.mpr
              ⟨out, fun file present => (read_out file present).read resolves⟩⟩
      | follow located =>
          refine ⟨files, List.forall_mem_cons.mpr ⟨⟨_, located, ?_⟩, fun task later =>
            settled task (List.mem_append_right _ later)⟩, read_out⟩
          rintro other rfl
          exact settled (.visit other) List.mem_cons_self
      | take owned => exact ⟨files, List.forall_mem_cons.mpr ⟨⟨_, owned⟩, settled⟩, read_out⟩

/-- A file that is read out can be used, and what it extends is covered. -/
theorem ReadOut.exists_sheet (read_out : ReadOut tree seen files file) :
    ∃ sheet, readSheet tree file = .ok sheet ∧ ∀ parent ∈ sheet.parents,
      Covered tree seen files parent := by
  obtain ⟨resolved, config, names, resolves, read, named, done⟩ := read_out
  obtain ⟨followed, owned⟩ := List.forall_mem_append.mp done
  obtain ⟨own, own_eq⟩ := owned _ List.mem_cons_self
  obtain ⟨located, located_eq, covered⟩ := exists_mapM_eq_ok fun name present =>
    followed (.follow file name) (List.mem_map_of_mem present)
  refine ⟨⟨resolved, located.filterMap id, own⟩, readSheet_eq_ok_iff.mpr ⟨resolves, config, names,
    located, read, named, located_eq, rfl, own_eq⟩, fun parent present => ?_⟩
  obtain ⟨found, found_mem, rfl⟩ := List.mem_filterMap.mp present
  exact covered _ found_mem parent rfl

/-- A load that succeeds has read a whole chain. -/
theorem Ends.exists_wholeChain (ends : Ends tree (.start start) (.ok merged)) :
    ∃ files, WholeChain tree start files := by
  have same {path : Path} {files : List Path} (covered : Covered tree [] files path) :
      ∃ file ∈ files, tree.resolve file = tree.resolve path := by
    obtain ⟨place, place_eq, known | ⟨file, present, same⟩⟩ := covered
    · exact nomatch known
    · exact ⟨file, present, same.trans place_eq.symm⟩
  obtain ⟨files, settled, read_out⟩ := ends.settled rfl
  refine ⟨files, same (settled (.visit start) List.mem_cons_self), fun file present => ?_⟩
  obtain ⟨sheet, read, covered⟩ := (read_out file present).exists_sheet
  exact ⟨sheet, read, fun parent parent_mem => same (covered parent parent_mem)⟩

/-! ## Loads of a configuration that nobody names -/

theorem outcome_loadDefault_of_file {root path : Path}
    (found : defaultFile? tree root = .ok (some path)) :
    (loadDefault tree root).outcome = match (readMerged tree path).outcome with
      | .ok merged => .ok (ofMerged merged path)
      | .error error => if error.isRecoverable then .ok {} else .error error := by
  simp only [loadDefault, found, Noted.outcome_bind, Noted.ofExcept, Noted.tell, Except.mapError,
    Except.bind]
  cases (readMerged tree path).outcome with
  | ok => rfl
  | error error =>
      dsimp only
      split <;> rfl

/-- What a load of a configuration that nobody names comes to. It gives the options of a chain that
is whole; otherwise the first defect that it meets decides between the defaults and a failure. -/
theorem loadDefault_outcome {root : Path} (clean : Clean tree root) :
    match defaultFile? tree root with
    | .error fault => (loadDefault tree root).outcome = .error (.file fault)
    | .ok none => (loadDefault tree root).outcome = .ok {}
    | .ok (some path) =>
        (∃ merged files, Ends tree (.start path) (.ok merged) ∧ WholeChain tree path files ∧
          (loadDefault tree root).outcome = .ok (ofMerged merged path)) ∨
        ∃ error file, Ends tree (.start path) (.error error) ∧ InChain tree path file ∧
          Defect tree file error ∧ (loadDefault tree root).outcome =
            if error ∈ [.unreadable file, .invalid file, .notObject file, .optionsNotObject file]
            then .ok {} else .error error := by
  cases found : defaultFile? tree root with
  | error fault =>
      rw [loadDefault, found]
      rfl
  | ok path? =>
      cases path? with
      | none =>
          rw [loadDefault, found]
          rfl
      | some path =>
          have path_clean : Clean tree path := by
            have present := mem_of_firstFile? found
            simp only [List.mem_cons, List.not_mem_nil, or_false] at present
            rcases present with rfl | rfl
            · exact clean.below "tsconfig.json"
            · exact clean.below "jsconfig.json"
          have loads := outcome_loadDefault_of_file found
          have ends := ends_readMerged path_clean
          cases outcome : (readMerged tree path).outcome with
          | ok merged =>
              rw [outcome] at ends loads
              obtain ⟨files, whole⟩ := ends.exists_wholeChain
              exact .inl ⟨merged, files, ends, whole, loads⟩
          | error error =>
              rw [outcome] at ends loads
              have start : ∀ task ∈ (Course.start path).tasks, task.InChain tree path :=
                List.forall_mem_singleton.mpr .refl
              obtain ⟨file, inside, defect⟩ := ends.defect start rfl
              refine .inr ⟨error, file, ends, inside, defect, ?_⟩
              simp only [loads, defect.isRecoverable_iff]

/-- The tree whose only file is a configuration with this text. -/
def onlyConfig (text : String) : FileTree where
  top := .directory [("tsconfig.json", .file (.ofText text))]

/-- A configuration that extends a number fails the load although nobody names it, and one that is
no JSON counts as absent. -/
theorem loadDefault_outcome_onlyConfig :
    (loadDefault (onlyConfig "\x7b\"extends\":5\x7d") (.absolute [])).outcome
        = .error .badExtends ∧
      (loadDefault (onlyConfig "\x7b") (.absolute [])).outcome = .ok {} := by
  have clean (text : String) : Clean (onlyConfig text) (.absolute []) := nofun
  have stands (text : String) : defaultFile? (onlyConfig text) (.absolute [])
      = .ok (some (atTop "tsconfig.json")) := by
    with_unfolding_all rfl
  have ends (text : String) (error : ConfigError)
      (fails : ((Task.visit (atTop "tsconfig.json")).run (onlyConfig text) [] [] []).map
        (fun _ => ()) = .error error) :
      Ends (onlyConfig text) (.start (atTop "tsconfig.json")) (.error error) :=
    .fails (map_eq_error_iff.mp fails)
  constructor
  · have outcome := loadDefault_outcome (clean "\x7b\"extends\":5\x7d")
    rw [stands] at outcome
    have numbered := ends "\x7b\"extends\":5\x7d" .badExtends (by decide +kernel)
    obtain ⟨_, _, succeeds, _⟩ | ⟨error, file, fails, _, _, loads⟩ := outcome
    · exact nomatch succeeds.unique numbered
    · obtain rfl := Except.error.inj (fails.unique numbered)
      simpa using loads
  · have outcome := loadDefault_outcome (clean "\x7b")
    rw [stands] at outcome
    have opened := ends "\x7b" (.invalid (atTop "tsconfig.json")) (by decide +kernel)
    obtain ⟨_, _, succeeds, _⟩ | ⟨error, file, fails, _, defect, loads⟩ := outcome
    · exact nomatch succeeds.unique opened
    · obtain rfl := Except.error.inj (fails.unique opened)
      cases defect with
      | notJson => simpa using loads

end CompilerOptions

end CodeGraph
