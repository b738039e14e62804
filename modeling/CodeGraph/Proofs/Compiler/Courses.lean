import CodeGraph.Proofs.Compiler.Merging

/-!
# The course of a load

A load goes from task to task: it visits a file, follows the references in it one after the other,
and then takes over what the file itself states. Each task either fails, and the load with it, or
leaves further tasks in its place. This says what a load comes to without a bound on its length. The
bound that the load is given is large enough: the files visited stand at different places in the
tree, so there are no more of them than leaves.
-/

namespace CodeGraph

namespace Loading

variable {α β : Type} {trail after : ConfigTrail} {error : ConfigError}

theorem run_ofExcept_error {outcome : Except ConfigError α} (fails : outcome = .error error) :
    (ofExcept outcome).run.run trail = (.error error, trail) := by
  rw [fails]
  rfl

theorem run_ofFile_error {outcome : Except FileFault α} {fault : FileFault}
    (fails : outcome = .error fault) :
    (ofFile outcome).run.run trail = (.error (.file fault), trail) := by
  rw [fails]
  rfl

/-- A failed step ends the load. -/
theorem run_error {step : Loading α} (next : α → Loading β)
    (fails : step.run.run trail = (.error error, after)) :
    (step >>= next).run.run trail = (.error error, after) := by
  rw [ExceptT.run_bind, StateT.run_bind, fails]
  rfl

theorem run_overlay {step : Loading MergedOptions} {lower : MergedOptions} :
    (step >>= fun upper => pure (lower.overlay upper)).run.run trail
      = (((step.run.run trail).1.map lower.overlay), (step.run.run trail).2) := by
  rw [ExceptT.run_bind, StateT.run_bind]
  cases step.run.run trail with
  | mk outcome after =>
      cases outcome with
      | ok | error => rfl

end Loading

namespace CompilerOptions

/-! ## Tasks -/

/-- A task of a load. -/
inductive Task where
  /-- Reads a file, unless it has been read. -/
  | visit (path : Path)
  /-- Finds the file that a reference in a file means. -/
  | follow (path : Path) (name : String)
  /-- Takes over what a file itself states. -/
  | take (path : Path) (config : Json)

/-- How far a load has come. -/
structure Course where
  /-- The resolved paths of the files read. -/
  seen : List Path := []
  /-- The options taken over. -/
  merged : MergedOptions := []
  /-- What is left to do, in order. -/
  tasks : List Task

/-- A load that has a file to visit and has done nothing. -/
def Course.start (path : Path) : Course :=
  { tasks := [.visit path] }

/-- The course behind its first task; `rest` are the other ones. -/
def Task.run (tree : FileTree) (seen : List Path) (merged : MergedOptions) (rest : List Task) :
    Task → Except ConfigError Course
  | visit path => do
      let resolved ← (tree.resolve path).mapError ConfigError.file
      if resolved ∈ seen then
        return { seen, merged, tasks := rest }
      else
        let config ← readObject tree path
        let names ← references (config.member? "extends")
        return {
          seen := seen ++ [resolved]
          merged
          tasks := names.map (follow path) ++ take path config :: rest }
  | follow path name => do
      let found ← (locate? tree path.parent name).mapError ConfigError.file
      return { seen, merged, tasks := (found.map visit).toList ++ rest }
  | take path config => do
      let own ← ownOptions tree path config
      return { seen, merged := merged.overlay own, tasks := rest }

/-- The course behind a task that is done. -/
inductive Task.Leaves (tree : FileTree) (seen : List Path) (merged : MergedOptions)
    (rest : List Task) : Task → Course → Prop
  /-- The file has been read. -/
  | known {path resolved : Path} (resolves : tree.resolve path = .ok resolved)
      (known : resolved ∈ seen) : Leaves tree seen merged rest (visit path) ⟨seen, merged, rest⟩
  /-- The file is read: its references are followed, and then its own options taken. -/
  | read {path resolved : Path} {config : Json} {names : List String}
      (resolves : tree.resolve path = .ok resolved) (new : resolved ∉ seen)
      (read : readObject tree path = .ok config)
      (named : references (config.member? "extends") = .ok names) :
      Leaves tree seen merged rest (visit path)
        ⟨seen ++ [resolved], merged, names.map (follow path) ++ take path config :: rest⟩
  /-- The file that a reference means is visited, if there is one. -/
  | follow {path : Path} {name : String} {found : Option Path}
      (located : locate? tree path.parent name = .ok found) :
      Leaves tree seen merged rest (follow path name)
        ⟨seen, merged, (found.map visit).toList ++ rest⟩
  /-- The options of a file are taken. -/
  | take {path : Path} {config : Json} {own : MergedOptions}
      (owned : ownOptions tree path config = .ok own) :
      Leaves tree seen merged rest (take path config) ⟨seen, merged.overlay own, rest⟩

/-- How a task fails. -/
inductive Task.Fails (tree : FileTree) (seen : List Path) : Task → ConfigError → Prop
  /-- The links on the way to the file cannot be followed. -/
  | unresolved {path : Path} {fault : FileFault} (resolves : tree.resolve path = .error fault) :
      Fails tree seen (visit path) (.file fault)
  /-- The file cannot be read. -/
  | unread {path resolved : Path} {error : ConfigError}
      (resolves : tree.resolve path = .ok resolved) (new : resolved ∉ seen)
      (unread : readObject tree path = .error error) :
      Fails tree seen (visit path) error
  /-- What the file says that it extends is no reference. -/
  | unnamed {path resolved : Path} {config : Json} {error : ConfigError}
      (resolves : tree.resolve path = .ok resolved) (new : resolved ∉ seen)
      (read : readObject tree path = .ok config)
      (unnamed : references (config.member? "extends") = .error error) :
      Fails tree seen (visit path) error
  /-- The file that a reference means cannot be looked for. -/
  | unlocated {path : Path} {name : String} {fault : FileFault}
      (located : locate? tree path.parent name = .error fault) :
      Fails tree seen (follow path name) (.file fault)
  /-- The options of a file cannot be taken. -/
  | unowned {path : Path} {config : Json} {error : ConfigError}
      (unowned : ownOptions tree path config = .error error) :
      Fails tree seen (take path config) error

section Tasks

variable {tree : FileTree} {seen : List Path} {merged : MergedOptions} {rest : List Task}
  {task : Task} {next : Course} {error : ConfigError}

theorem Task.run_eq_ok_iff :
    task.run tree seen merged rest = .ok next ↔ task.Leaves tree seen merged rest next := by
  constructor
  · intro ran
    cases task with
    | visit path =>
        obtain ⟨resolved, resolves, ran⟩ := bind_eq_ok_iff.mp ran
        replace resolves := mapError_eq_ok_iff.mp resolves
        split at ran
        next known =>
          obtain rfl := Except.ok.inj ran
          exact .known resolves known
        next new =>
          obtain ⟨config, read, ran⟩ := bind_eq_ok_iff.mp ran
          obtain ⟨names, named, ran⟩ := bind_eq_ok_iff.mp ran
          obtain rfl := Except.ok.inj ran
          exact .read resolves new read named
    | follow path name =>
        obtain ⟨found, located, ran⟩ := bind_eq_ok_iff.mp ran
        obtain rfl := Except.ok.inj ran
        exact .follow (mapError_eq_ok_iff.mp located)
    | take path config =>
        obtain ⟨own, owned, ran⟩ := bind_eq_ok_iff.mp ran
        obtain rfl := Except.ok.inj ran
        exact .take owned
  · rintro (⟨resolves, known⟩ | ⟨resolves, new, read, named⟩ | ⟨located⟩ | ⟨owned⟩)
    · rw [run, resolves]
      exact if_pos known
    · refine bind_eq_ok_iff.mpr ⟨_, mapError_eq_ok_iff.mpr resolves, (if_neg new).trans ?_⟩
      exact bind_eq_ok_iff.mpr ⟨_, read, bind_eq_ok_iff.mpr ⟨_, named, rfl⟩⟩
    · exact bind_eq_ok_iff.mpr ⟨_, mapError_eq_ok_iff.mpr located, rfl⟩
    · exact bind_eq_ok_iff.mpr ⟨_, owned, rfl⟩

theorem Task.run_eq_error_iff :
    task.run tree seen merged rest = .error error ↔ task.Fails tree seen error := by
  constructor
  · intro failed
    cases task with
    | visit path =>
        rcases bind_eq_error_iff.mp failed with unresolved | ⟨resolved, resolves, failed⟩
        · obtain ⟨fault, resolves, rfl⟩ := mapError_eq_error_iff.mp unresolved
          exact .unresolved resolves
        replace resolves := mapError_eq_ok_iff.mp resolves
        split at failed
        next => exact nomatch failed
        next new =>
          rcases bind_eq_error_iff.mp failed with unread | ⟨config, read, failed⟩
          · exact .unread resolves new unread
          · rcases bind_eq_error_iff.mp failed with unnamed | ⟨_, _, failed⟩
            · exact .unnamed resolves new read unnamed
            · exact nomatch failed
    | follow path name =>
        rcases bind_eq_error_iff.mp failed with unlocated | ⟨_, _, failed⟩
        · obtain ⟨fault, located, rfl⟩ := mapError_eq_error_iff.mp unlocated
          exact .unlocated located
        · exact nomatch failed
    | take path config =>
        rcases bind_eq_error_iff.mp failed with unowned | ⟨_, _, failed⟩
        · exact .unowned unowned
        · exact nomatch failed
  · rintro (⟨resolves⟩ | ⟨resolves, new, unread⟩ | ⟨resolves, new, read, unnamed⟩ | ⟨located⟩ |
      ⟨unowned⟩)
    · exact bind_eq_error_iff.mpr (.inl (mapError_eq_error_iff.mpr ⟨_, resolves, rfl⟩))
    · refine bind_eq_error_iff.mpr (.inr ⟨_, mapError_eq_ok_iff.mpr resolves, ?_⟩)
      exact (if_neg new).trans (bind_eq_error_iff.mpr (.inl unread))
    · refine bind_eq_error_iff.mpr (.inr ⟨_, mapError_eq_ok_iff.mpr resolves, ?_⟩)
      refine (if_neg new).trans (bind_eq_error_iff.mpr (.inr ⟨_, read, ?_⟩))
      exact bind_eq_error_iff.mpr (.inl unnamed)
    · exact bind_eq_error_iff.mpr (.inl (mapError_eq_error_iff.mpr ⟨_, located, rfl⟩))
    · exact bind_eq_error_iff.mpr (.inl unowned)

end Tasks

/-- What comes of a load. -/
inductive Ends (tree : FileTree) : Course → Except ConfigError MergedOptions → Prop
  /-- Nothing is left to do. -/
  | done {seen : List Path} {merged : MergedOptions} : Ends tree ⟨seen, merged, []⟩ (.ok merged)
  /-- The first task fails. -/
  | fails {seen : List Path} {merged : MergedOptions} {task : Task} {rest : List Task}
      {error : ConfigError} (failure : task.run tree seen merged rest = .error error) :
      Ends tree ⟨seen, merged, task :: rest⟩ (.error error)
  /-- The first task is done. -/
  | goes {seen : List Path} {merged : MergedOptions} {task : Task} {rest : List Task}
      {next : Course} {ending : Except ConfigError MergedOptions}
      (step : task.run tree seen merged rest = .ok next) (further : Ends tree next ending) :
      Ends tree ⟨seen, merged, task :: rest⟩ ending

variable {tree : FileTree} {course : Course} {path file : Path} {seen : List Path}
  {merged : MergedOptions} {rest : List Task}

/-- A load ends in one way. -/
theorem Ends.unique {ending other : Except ConfigError MergedOptions}
    (ends : Ends tree course ending) (ends' : Ends tree course other) : ending = other := by
  induction ends with
  | done =>
      cases ends'
      rfl
  | fails failure =>
      cases ends' with
      | fails failure' =>
          exact congrArg Except.error (Except.error.inj (failure.symm.trans failure'))
      | goes step => exact nomatch failure.symm.trans step
  | goes step further ih =>
      cases ends' with
      | fails failure => exact nomatch step.symm.trans failure
      | goes step' further' => exact ih (Except.ok.inj (step.symm.trans step') ▸ further')

/-! ## Names of options -/

theorem nodup_keys_takeOption {directory : Path} {options after : MergedOptions}
    {stated : String × Json} (nodup : (Ordered.keys options).Nodup)
    (taken : takeOption tree directory options stated = .ok after) :
    (Ordered.keys after).Nodup := by
  have named : (Ordered.keys (Ordered.set options stated.1 (.stated stated.2))).Nodup :=
    Ordered.nodup_keys_set nodup
  unfold takeOption at taken
  dsimp only at taken
  split at taken
  · obtain ⟨_, _, taken⟩ := bind_eq_ok_iff.mp taken
    obtain rfl := Except.ok.inj taken
    exact Ordered.nodup_keys_set named
  · obtain ⟨_, _, taken⟩ := bind_eq_ok_iff.mp taken
    obtain rfl := Except.ok.inj taken
    exact Ordered.nodup_keys_set named
  · obtain rfl := Except.ok.inj taken
    exact named

theorem nodup_keys_foldlM {directory : Path} {options after : MergedOptions}
    {members : List (String × Json)} (nodup : (Ordered.keys options).Nodup)
    (taken : members.foldlM (takeOption tree directory) options = .ok after) :
    (Ordered.keys after).Nodup := by
  induction members generalizing options with
  | nil =>
      obtain rfl := Except.ok.inj taken
      exact nodup
  | cons stated members ih =>
      rw [List.foldlM_cons] at taken
      obtain ⟨_, first, taken⟩ := bind_eq_ok_iff.mp taken
      exact ih (nodup_keys_takeOption nodup first) taken

theorem nodup_keys_ownOptions {config : Json} {own : MergedOptions}
    (owned : ownOptions tree path config = .ok own) : (Ordered.keys own).Nodup := by
  unfold ownOptions at owned
  dsimp only at owned
  split at owned
  · obtain rfl := Except.ok.inj owned
    exact List.nodup_nil
  · split at owned
    · have empty : (Ordered.keys ([] : MergedOptions)).Nodup := List.nodup_nil
      exact nodup_keys_foldlM empty (mapError_eq_ok_iff.mp owned)
    · exact nomatch owned

/-! ## The load does its tasks -/

/-- From a trail on, a step of a load with this result does the tasks. -/
structure Performs (tree : FileTree) (tasks : List Task) (before : ConfigTrail)
    (result : Except ConfigError MergedOptions × ConfigTrail) : Prop where
  places : ∀ value, result.1 = .ok value →
    FilePlaces tree result.2.seen ∧ before.seen.length ≤ result.2.seen.length
  nodup : ∀ value, result.1 = .ok value → (Ordered.keys value).Nodup
  gives : ∀ value, result.1 = .ok value → ∀ (merged : MergedOptions) rest ending,
    Ends tree ⟨result.2.seen, merged.overlay value, rest⟩ ending →
      Ends tree ⟨before.seen, merged, tasks ++ rest⟩ ending
  fails : ∀ error, result.1 = .error error → ∀ merged rest,
    Ends tree ⟨before.seen, merged, tasks ++ rest⟩ (.error error)

variable {before middle : ConfigTrail}

theorem performs_nothing (places : FilePlaces tree before.seen) {after : ConfigTrail}
    (same : after.seen = before.seen) : Performs tree [] before (.ok [], after) where
  places := by
    rintro _ ⟨⟩
    exact ⟨same ▸ places, Nat.le_of_eq (congrArg List.length same.symm)⟩
  nodup := by
    rintro _ ⟨⟩
    exact List.nodup_nil
  gives := by
    rintro _ ⟨⟩ merged rest ending ends
    exact same ▸ ends
  fails := nofun

theorem Performs.andThen {front back : List Task} {first : MergedOptions}
    {result : Except ConfigError MergedOptions × ConfigTrail}
    (does : Performs tree front before (.ok first, middle))
    (further : Performs tree back middle result) :
    Performs tree (front ++ back) before (result.1.map first.overlay, result.2) where
  places value given := by
    obtain ⟨second, second_eq, rfl⟩ := map_eq_ok_iff.mp given
    obtain ⟨places, longer⟩ := further.places second second_eq
    exact ⟨places, Nat.le_trans (does.places first rfl).2 longer⟩
  nodup value given := by
    obtain ⟨second, _, rfl⟩ := map_eq_ok_iff.mp given
    exact Ordered.nodup_keys_setAll (does.nodup first rfl)
  gives value given merged rest ending ends := by
    obtain ⟨second, second_eq, rfl⟩ := map_eq_ok_iff.mp given
    have same : merged.overlay (first.overlay second) = (merged.overlay first).overlay second :=
      Ordered.setAll_setAll merged (does.nodup first rfl) second
    rw [same] at ends
    rw [List.append_assoc]
    exact does.gives first rfl _ _ _ (further.gives second second_eq _ _ _ ends)
  fails error given merged rest := by
    have failure : result.1 = .error error := map_eq_error_iff.mp given
    rw [List.append_assoc]
    exact does.gives first rfl _ _ _ (further.fails error failure _ _)

theorem performs_take (places : FilePlaces tree before.seen) (config : Json) :
    Performs tree [.take path config] before (ownOptions tree path config, before) where
  places _ _ := ⟨places, Nat.le_refl _⟩
  nodup _ owned := nodup_keys_ownOptions owned
  gives _ owned _ _ _ ends := .goes (Task.run_eq_ok_iff.mpr (.take owned)) ends
  fails _ unowned _ _ := .fails (Task.run_eq_error_iff.mpr (.unowned unowned))

/-- A task that leaves others in its place is done with them. -/
theorem Performs.ofTask {task : Task} {tasks : List Task}
    {result : Except ConfigError MergedOptions × ConfigTrail}
    (leaves : ∀ merged rest,
      task.Leaves tree before.seen merged rest ⟨middle.seen, merged, tasks ++ rest⟩)
    (longer : before.seen.length ≤ middle.seen.length) (does : Performs tree tasks middle result) :
    Performs tree [task] before result where
  places value given := (does.places value given).imp_right (Nat.le_trans longer)
  nodup := does.nodup
  gives value given merged rest ending ends :=
    .goes (Task.run_eq_ok_iff.mpr (leaves merged rest))
      (does.gives value given merged rest ending ends)
  fails error failure merged rest :=
    .goes (Task.run_eq_ok_iff.mpr (leaves merged rest)) (does.fails error failure merged rest)

/-- A task that fails fails the load. -/
theorem Performs.ofFailure {task : Task} {error : ConfigError} {after : ConfigTrail}
    (failure : task.Fails tree before.seen error) :
    Performs tree [task] before (.error error, after) where
  places := nofun
  nodup := nofun
  gives := nofun
  fails := by
    rintro _ ⟨⟩ merged rest
    exact .fails (Task.run_eq_error_iff.mpr failure)

/-- A failed step leaves nothing to do. -/
theorem Performs.stop {front back : List Task} {error : ConfigError} {after : ConfigTrail}
    (does : Performs tree front before (.error error, after)) :
    Performs tree (front ++ back) before (.error error, after) where
  places := nofun
  nodup := nofun
  gives := nofun
  fails := by
    rintro _ ⟨⟩ merged rest
    rw [List.append_assoc]
    exact does.fails error rfl merged _

/-- A step and the one after it do the tasks of both. -/
theorem Performs.bind {front back : List Task} {step next : Loading MergedOptions}
    (does : Performs tree front before (step.run.run before))
    (further : ∀ (after : ConfigTrail), FilePlaces tree after.seen →
      before.seen.length ≤ after.seen.length → Performs tree back after (next.run.run after)) :
    Performs tree (front ++ back) before
      ((step >>= fun first => next >>= fun second => pure (first.overlay second)).run.run
        before) := by
  cases outcome : step.run.run before with
  | mk ending after =>
      rw [outcome] at does
      cases ending with
      | error error =>
          rw [Loading.run_error _ outcome]
          exact does.stop
      | ok first =>
          obtain ⟨places, longer⟩ := does.places first rfl
          rw [Loading.run_bind _ outcome, Loading.run_overlay]
          exact does.andThen (further after places longer)

variable {fuel : Nat}

theorem performs_mergeAll (clean : Clean tree path)
    (visits : ∀ (file : Path) (trail : ConfigTrail), Clean tree file → FilePlaces tree trail.seen →
      tree.top.leafCount + 2 ≤ fuel + trail.seen.length →
        Performs tree [.visit file] trail ((merge tree fuel file).run.run trail))
    (names : List String) (trail : ConfigTrail) (places : FilePlaces tree trail.seen)
    (enough : tree.top.leafCount + 2 ≤ fuel + trail.seen.length) :
    Performs tree (names.map (.follow path)) trail
      ((mergeAll tree fuel path names).run.run trail) := by
  induction names generalizing trail with
  | nil =>
      rw [mergeAll]
      exact performs_nothing places rfl
  | cons name names ih =>
      rw [mergeAll, List.map_cons, ← List.singleton_append]
      cases located : locate? tree path.parent name with
      | error fault =>
          rw [Loading.run_error _ (Loading.run_ofFile_error rfl)]
          exact .stop (.ofFailure (.unlocated located))
      | ok found =>
          rw [Loading.run_bind _ (Loading.run_ofFile rfl)]
          cases found with
          | none =>
              let noted : ConfigTrail := { trail with
                notices := trail.notices ++ [
                  { level := .debug
                    message := "tsconfig extends " ++ name ++ " not found from " ++ path.text }] }
              rw [Loading.run_bind _ (Loading.run_tell _ _),
                Loading.run_bind _ (Loading.run_pure []), Loading.run_overlay]
              have nothing : Performs tree [] trail (.ok [], noted) := performs_nothing places rfl
              have does : Performs tree [.follow path name] trail (.ok [], noted) :=
                .ofTask (fun _ _ => .follow located) (Nat.le_refl _) nothing
              exact does.andThen (ih noted places enough)
          | some file =>
              have visited :=
                visits file trail (clean_of_locate? clean.parent located) places enough
              have does := Performs.ofTask (fun _ _ => .follow located) (Nat.le_refl _) visited
              exact does.bind fun after after_places longer =>
                ih after after_places (Nat.le_trans enough (Nat.add_le_add_left longer fuel))

/-- A file that is new is marked and read; then its references are followed, and its own options
taken. -/
theorem performs_reading {trail marked : ConfigTrail} {resolved : Path}
    (resolves : tree.resolve file = .ok resolved) (new : resolved ∉ trail.seen)
    (mark : marked.seen = trail.seen ++ [resolved])
    (inherits : ∀ config names, readObject tree file = .ok config →
      Performs tree (names.map (.follow file)) marked
        ((mergeAll tree fuel file names).run.run marked)) :
    Performs tree [.visit file] trail
      ((do
        let config ← Loading.ofExcept (readObject tree file)
        let names ← Loading.ofExcept (references (config.member? "extends"))
        let inherited ← mergeAll tree fuel file names
        let own ← Loading.ofExcept (ownOptions tree file config)
        return inherited.overlay own : Loading MergedOptions).run.run marked) := by
  cases read : readObject tree file with
  | error fault =>
      rw [Loading.run_error _ (Loading.run_ofExcept_error rfl)]
      exact .ofFailure (.unread resolves new read)
  | ok config =>
      rw [Loading.run_bind _ (Loading.run_ofExcept rfl)]
      cases named : references (config.member? "extends") with
      | error fault =>
          rw [Loading.run_error _ (Loading.run_ofExcept_error rfl)]
          exact .ofFailure (.unnamed resolves new read named)
      | ok names =>
          rw [Loading.run_bind _ (Loading.run_ofExcept rfl)]
          have leaves : ∀ merged rest, Task.Leaves tree trail.seen merged rest (.visit file)
              ⟨marked.seen, merged,
                (names.map (.follow file) ++ [.take file config]) ++ rest⟩ := by
            intro merged rest
            rw [mark, List.append_assoc]
            exact .read resolves new read named
          have longer : trail.seen.length ≤ marked.seen.length := by simp [mark]
          exact .ofTask leaves longer ((inherits config names read).bind fun after after_places _ =>
            performs_take after_places config)

/-- A load does what it has to, and the bound on its length is never reached: each file that is
read takes a place in the tree that no other one has. -/
theorem performs_merge (file : Path) (trail : ConfigTrail) (clean : Clean tree file)
    (places : FilePlaces tree trail.seen)
    (enough : tree.top.leafCount + 2 ≤ fuel + trail.seen.length) :
    Performs tree [.visit file] trail ((merge tree fuel file).run.run trail) := by
  induction fuel generalizing file trail with
  | zero =>
      have few := places.length_le
      omega
  | succ fuel ih =>
      have fetched : (get : Loading ConfigTrail).run.run trail = (.ok trail, trail) := rfl
      rw [merge]
      cases resolves : tree.resolve file with
      | error fault =>
          rw [Loading.run_error _ (Loading.run_ofFile_error rfl)]
          exact .ofFailure (.unresolved resolves)
      | ok resolved =>
          rw [Loading.run_bind _ (Loading.run_ofFile rfl), Loading.run_bind _ fetched]
          by_cases known : resolved ∈ trail.seen
          · rw [if_pos (by simpa using known), Loading.run_bind _ (Loading.run_tell _ _)]
            exact .ofTask (fun _ _ => .known resolves known) (Nat.le_refl _)
              (performs_nothing places rfl)
          · let marked : ConfigTrail := { trail with seen := trail.seen ++ [resolved] }
            have mark : (modify fun trail : ConfigTrail =>
                { trail with seen := trail.seen ++ [resolved] } : Loading PUnit).run.run trail
                  = (.ok ⟨⟩, marked) := rfl
            have marked_enough : tree.top.leafCount + 2 ≤ fuel + marked.seen.length := by
              simp only [marked, List.length_append, List.length_singleton]
              omega
            rw [if_neg (by simpa using known), Loading.run_bind _ mark]
            refine performs_reading resolves known rfl fun config names read => ?_
            have marked_places : FilePlaces tree marked.seen :=
              places.concat clean resolves read known
            exact performs_mergeAll clean (fun file trail => ih file trail) names marked
              marked_places marked_enough

/-- What a load comes to is what its course ends with. -/
theorem ends_readMerged (clean : Clean tree path) :
    Ends tree (.start path) (readMerged tree path).outcome := by
  have enough : tree.top.leafCount + 2 ≤ tree.top.leafCount + 2 + ({} : ConfigTrail).seen.length :=
    Nat.le_refl _
  have does := performs_merge path {} clean filePlaces_nil enough
  rw [readMerged]
  cases outcome : (merge tree (tree.top.leafCount + 2) path).run.run {} with
  | mk ending after =>
      rw [outcome] at does
      cases ending with
      | ok merged =>
          have same : MergedOptions.overlay [] merged = merged := by
            have nodup : (Ordered.keys (([] : MergedOptions) ++ merged)).Nodup :=
              does.nodup merged rfl
            exact Ordered.setAll_of_nodup nodup
          refine does.gives merged rfl [] [] (.ok merged) ?_
          rw [same]
          exact .done
      | error error => exact does.fails error rfl [] []

end CompilerOptions

end CodeGraph
