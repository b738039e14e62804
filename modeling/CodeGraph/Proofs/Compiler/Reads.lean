import CodeGraph.Proofs.Compiler.ReadLog
import CodeGraph.Proofs.Files.Stability

/-!
# Reads

Every load comes to an end by itself, whatever the files extend: the bound on the length of a chain
is never met, since each file read takes a place in the tree that no other one has. For the same
reason no file is read twice, under whatever names it is extended.
-/

namespace CodeGraph

namespace FileTree

/-- The path that a path leads to, with at most `depth` links followed inside of each other. -/
def resolveWithin (tree : FileTree) (depth : Nat) (path : Path) : Except FileFault Path :=
  match Resolving.walk tree.top (Resolving.followLink tree.top depth) path.segments
      { place := tree.startOf path } with
  | .ok state => .ok (Path.absolute state.place)
  | .error (.unusable fault) => .error fault
  | .error (.circle way) =>
      let path := Path.absolute (PathText.cancelDots way)
      match path.fault?, tree.find path with
      | some fault, _ => .error fault
      | none, .error .tooManyLinks => .error .circular
      | none, _ => .ok path

/-- A resolution comes to an end by itself: any bound on links inside of each other will do that is
not below the number of links. -/
theorem resolveWithin_eq (tree : FileTree) {depth : Nat} (enough : tree.top.leafCount ≤ depth)
    (path : Path) : tree.resolveWithin depth path = tree.resolve path := by
  let start : Resolving := { place := tree.startOf path }
  have walks : Resolving.walk tree.top (Resolving.followLink tree.top depth) path.segments start
      = Resolving.walk tree.top (Resolving.followLink tree.top tree.top.leafCount) path.segments
        start :=
    Resolving.walk_eq_of_sameLinks (fun _ _ => Iff.rfl) ⟨[], List.nodup_nil, rfl, by simp⟩
      (Nat.le_add_right_of_le enough) (Nat.le_add_right tree.top.leafCount 0)
  rw [resolveWithin, walks]
  rfl

end FileTree

namespace CompilerOptions

open LoggedLoading (ofLoading)

variable {tree : FileTree} {path file : Path} {fuel : Nat}

/-! ## The log of a load -/

/-- The log is in order: the files read are those whose places have been seen, all places are
different, and the bound has not been met. -/
structure LogInOrder (tree : FileTree) (log : ReadLog) : Prop where
  places : log.reads.map tree.resolve = log.trail.seen.map .ok
  different : log.trail.seen.Nodup
  whole : log.cutShort = false

/-- A step of a load keeps the log in order. When it succeeds, all places seen are those of files,
and none has been lost. -/
structure Keeps {α : Type} (tree : FileTree) (log : ReadLog)
    (result : Except ConfigError α × ReadLog) : Prop where
  inOrder : LogInOrder tree result.2
  onward : ∀ value, result.1 = .ok value → FilePlaces tree result.2.trail.seen ∧
    log.trail.seen.length ≤ result.2.trail.seen.length

section Keeps

variable {α β : Type} {log : ReadLog} {step : LoggedLoading α} {next : α → LoggedLoading β}

theorem Keeps.bind (first : Keeps tree log (step.run.run log))
    (later : ∀ value (after : ReadLog), LogInOrder tree after → FilePlaces tree after.trail.seen →
      log.trail.seen.length ≤ after.trail.seen.length →
        Keeps tree after ((next value).run.run after)) :
    Keeps tree log ((step >>= next).run.run log) := by
  rw [ExceptT.run_bind, StateT.run_bind]
  cases ran : step.run.run log with
  | mk outcome after =>
      rw [ran] at first
      cases outcome with
      | error error => exact ⟨first.inOrder, nofun⟩
      | ok value =>
          obtain ⟨places, longer⟩ := first.onward value rfl
          have further := later value after first.inOrder places longer
          refine ⟨further.inOrder, fun value' given => ?_⟩
          obtain ⟨places, longer'⟩ := further.onward value' given
          exact ⟨places, Nat.le_trans longer longer'⟩

/-- A step that sees and reads nothing keeps the log. -/
theorem keeps_quiet {outcome : Except ConfigError α} {after : ReadLog}
    (inOrder : LogInOrder tree log) (places : FilePlaces tree log.trail.seen)
    (seen : after.trail.seen = log.trail.seen) (reads : after.reads = log.reads)
    (whole : after.cutShort = log.cutShort) : Keeps tree log (outcome, after) where
  inOrder :=
    { places := by rw [seen, reads]; exact inOrder.places
      different := seen ▸ inOrder.different
      whole := whole.trans inOrder.whole }
  onward _ _ := ⟨seen ▸ places, Nat.le_of_eq (congrArg List.length seen.symm)⟩

theorem keeps_ofExcept (outcome : Except ConfigError α) (inOrder : LogInOrder tree log)
    (places : FilePlaces tree log.trail.seen) :
    Keeps tree log ((ofLoading (Loading.ofExcept outcome)).run.run log) :=
  keeps_quiet inOrder places rfl rfl rfl

theorem keeps_tell (level : NoticeLevel) (message : String) (inOrder : LogInOrder tree log)
    (places : FilePlaces tree log.trail.seen) :
    Keeps tree log ((ofLoading (Loading.tell level message)).run.run log) :=
  keeps_quiet inOrder places rfl rfl rfl

theorem keeps_pure (value : α) (inOrder : LogInOrder tree log)
    (places : FilePlaces tree log.trail.seen) :
    Keeps tree log ((pure value : LoggedLoading α).run.run log) :=
  keeps_quiet inOrder places rfl rfl rfl

end Keeps

variable {log : ReadLog}

theorem keeps_mergeAllLogged {visit : Path → LoggedLoading MergedOptions} (clean : Clean tree path)
    (visits : ∀ (file : Path) (log : ReadLog), Clean tree file → LogInOrder tree log →
      FilePlaces tree log.trail.seen → tree.top.leafCount + 2 ≤ fuel + log.trail.seen.length →
        Keeps tree log ((visit file).run.run log))
    (names : List String) (log : ReadLog) (inOrder : LogInOrder tree log)
    (places : FilePlaces tree log.trail.seen)
    (enough : tree.top.leafCount + 2 ≤ fuel + log.trail.seen.length) :
    Keeps tree log ((mergeAllLogged tree visit path names).run.run log) := by
  induction names generalizing log with
  | nil =>
      rw [mergeAllLogged]
      exact keeps_pure [] inOrder places
  | cons name names ih =>
      rw [mergeAllLogged]
      have others (first : MergedOptions) (after : ReadLog) (inOrder : LogInOrder tree after)
          (places : FilePlaces tree after.trail.seen)
          (longer : log.trail.seen.length ≤ after.trail.seen.length) :
          Keeps tree after
            ((do return first.overlay (← mergeAllLogged tree visit path names) :
              LoggedLoading MergedOptions).run.run after) :=
        (ih after inOrder places (by omega)).bind fun rest after inOrder places _ =>
          keeps_pure _ inOrder places
      cases located : locate? tree path.parent name with
      | error fault => exact keeps_quiet inOrder places rfl rfl rfl
      | ok found =>
          rw [LoggedLoading.run_bind _ (LoggedLoading.run_ofFile rfl)]
          cases found with
          | none =>
              exact (keeps_tell _ _ inOrder places).bind fun _ after inOrder places longer =>
                others [] after inOrder places longer
          | some file =>
              have parent_clean := clean_of_locate? clean.parent located
              exact (visits file log parent_clean inOrder places enough).bind others

/-- A file at a new place is marked and read. -/
theorem LogInOrder.read {resolved : Path} (inOrder : LogInOrder tree log)
    (resolves : tree.resolve file = .ok resolved) (new : resolved ∉ log.trail.seen) :
    LogInOrder tree ((log.mark resolved).addRead file) where
  places := by
    have last : [file].map tree.resolve = [resolved].map .ok := congrArg ([·]) resolves
    have all : (log.reads ++ [file]).map tree.resolve
        = (log.trail.seen ++ [resolved]).map .ok := by
      rw [List.map_append, List.map_append, inOrder.places, last]
    exact all
  different := by
    refine List.nodup_append.mpr ⟨inOrder.different, List.nodup_singleton _, ?_⟩
    rintro place before _ last rfl
    exact new (List.mem_singleton.mp last ▸ before)
  whole := inOrder.whole

/-- A load keeps its log in order. The bound on the length of a chain is not met: each file read
takes a place in the tree that no other one has. -/
theorem keeps_mergeLogged (file : Path) (log : ReadLog) (clean : Clean tree file)
    (inOrder : LogInOrder tree log) (places : FilePlaces tree log.trail.seen)
    (enough : tree.top.leafCount + 2 ≤ fuel + log.trail.seen.length) :
    Keeps tree log ((mergeLogged tree fuel file).run.run log) := by
  induction fuel generalizing file log with
  | zero =>
      have few := places.length_le
      omega
  | succ fuel ih =>
      have fetched : (ofLoading get).run.run log = (.ok log.trail, log) := rfl
      rw [mergeLogged]
      cases resolves : tree.resolve file with
      | error fault => exact keeps_quiet inOrder places rfl rfl rfl
      | ok resolved =>
          rw [LoggedLoading.run_bind _ (LoggedLoading.run_ofFile rfl),
            LoggedLoading.run_bind _ fetched]
          by_cases known : resolved ∈ log.trail.seen
          · rw [if_pos (by simpa using known)]
            exact (keeps_tell _ _ inOrder places).bind fun _ after inOrder places _ =>
              keeps_pure [] inOrder places
          · have marks : (ofLoading (modify fun trail : ConfigTrail =>
                { trail with seen := trail.seen ++ [resolved] } : Loading PUnit)).run.run log
                  = (.ok ⟨⟩, log.mark resolved) := rfl
            have reads : (LoggedLoading.readObject tree file).run.run (log.mark resolved)
                = (readObject tree file, (log.mark resolved).addRead file) := rfl
            have read_inOrder := inOrder.read resolves known
            rw [if_neg (by simpa using known), LoggedLoading.run_bind _ marks]
            cases read : readObject tree file with
            | error fault =>
                rw [LoggedLoading.run_error _ (reads.trans (congrArg (·, _) read))]
                exact ⟨read_inOrder, by rintro _ ⟨⟩⟩
            | ok config =>
                rw [LoggedLoading.run_bind _ (reads.trans (congrArg (·, _) read))]
                have read_places : FilePlaces tree (log.trail.seen ++ [resolved]) :=
                  places.concat clean resolves read known
                have more : ((log.mark resolved).addRead file).trail.seen.length
                    = log.trail.seen.length + 1 := List.length_append
                have rest := (keeps_ofExcept (references (config.member? "extends")) read_inOrder
                  read_places).bind fun names after inOrder places longer =>
                    (keeps_mergeAllLogged clean ih names after inOrder places
                      (by omega)).bind fun inherited after inOrder places _ =>
                        (keeps_ofExcept (ownOptions tree file config) inOrder places).bind
                          fun own after inOrder places _ =>
                            keeps_pure (inherited.overlay own) inOrder places
                exact ⟨rest.inOrder, fun value given =>
                  (rest.onward value given).imp_right (Nat.le_trans (by omega))⟩

/-! ## Whole loads -/

variable {root : Path}

theorem logInOrder_nil : LogInOrder tree {} :=
  ⟨rfl, List.nodup_nil, rfl⟩

theorem inOrder_readMergedLogged (clean : Clean tree file) :
    LogInOrder tree (readMergedLogged tree file).2 :=
  (keeps_mergeLogged file {} clean logInOrder_nil filePlaces_nil (Nat.le_refl _)).inOrder

theorem inOrder_afterLookup {α : Type} {lookup : Except FileFault α}
    {next : α → Noted ConfigError StatedOptions × ReadLog}
    (inOrder : ∀ found, lookup = .ok found → LogInOrder tree (next found).2) :
    LogInOrder tree (afterLookup lookup next).2 := by
  cases lookup with
  | error fault => exact logInOrder_nil
  | ok found => exact inOrder found rfl

theorem inOrder_loadLogged (clean : Clean tree root) (named : Option String) :
    LogInOrder tree (loadLogged tree root named).2 := by
  unfold loadLogged
  cases named with
  | some name =>
      dsimp only
      rw [loadNamedLogged]
      refine inOrder_afterLookup fun present _ => ?_
      split
      next => exact inOrder_readMergedLogged (clean.below name)
      next => exact logInOrder_nil
  | none =>
      dsimp only
      rw [loadDefaultLogged]
      refine inOrder_afterLookup fun found found_eq => ?_
      cases found with
      | none => exact logInOrder_nil
      | some path =>
          have candidate := mem_of_firstFile? found_eq
          simp only [List.mem_cons, List.not_mem_nil, or_false] at candidate
          rcases candidate with rfl | rfl
          · exact inOrder_readMergedLogged (clean.below "tsconfig.json")
          · exact inOrder_readMergedLogged (clean.below "jsconfig.json")

/-- A load of the options of a project comes to an end by itself, and reads no file twice. Its log
of the files read comes with what the load comes to; neither the bound on the length of a chain nor
that on links inside of each other is met, the files in the log stand at different places, and the
load rests on the contents of no other ones. Single dots, which the project's path is to be without,
are dropped from every path that is read from a text. -/
theorem load_reads_each_file_once (clean : Clean tree root) (named : Option String) :
    ∃ log, loadLogged tree root named = (load tree root named, log) ∧
      log.cutShort = false ∧
      (∀ depth path, tree.top.leafCount ≤ depth →
        tree.resolveWithin depth path = tree.resolve path) ∧
      (∃ places : List Path, log.reads.map tree.resolve = places.map .ok ∧ places.Nodup) ∧
      ∀ other, SameLookups tree other →
        (∀ path ∈ log.reads, readObject other path = readObject tree path) →
          load other root named = load tree root named := by
  have inOrder := inOrder_loadLogged clean named
  refine ⟨(loadLogged tree root named).2, ?_, inOrder.whole, fun depth path enough =>
    tree.resolveWithin_eq enough path, ⟨_, inOrder.places, inOrder.different⟩,
    fun other same agree => ?_⟩
  · rw [← loadLogged_fst]
  · rw [← loadLogged_fst, ← loadLogged_fst, loadLogged_eq same agree]

/-- The configuration extends one that extends it in turn, the same one through a link, and one that
does not exist. -/
def tangle : FileTree where
  top := .directory [
    ("base.json", .file (.ofText "\x7b\"extends\":\"./tsconfig.json\"\x7d")),
    ("link.json", .link "base.json"),
    ("tsconfig.json", .file (.ofText
      "\x7b\"extends\":[\"./base.json\",\"./link.json\",\"./none.json\"]\x7d"))]

/-- Each of the two files is read once. -/
theorem load_reads_each_file_once_tangle :
    Clean tangle (Path.absolute []) ∧
      ∃ log, loadLogged tangle (Path.absolute []) none
          = (load tangle (Path.absolute []) none, log) ∧
        log.cutShort = false ∧
        log.reads = [Path.absolute ["tsconfig.json"], Path.absolute ["base.json"]] := by
  have clean : Clean tangle (Path.absolute []) := List.not_mem_nil
  have reads : (loadLogged tangle (Path.absolute []) none).2.reads
      = [Path.absolute ["tsconfig.json"], Path.absolute ["base.json"]] := by
    decide +kernel
  obtain ⟨log, loads, whole, _⟩ := load_reads_each_file_once clean none
  exact ⟨clean, log, loads, whole, by rw [← reads, loads]⟩

end CompilerOptions

end CodeGraph
