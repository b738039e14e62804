import CodeGraph.Proofs.Compiler.Visits

/-!
# What the options of a configuration are

A load gives the options of the files that it visits, laid over each other. They are meant to be
those of the files that the configuration extends, each loaded on its own, with its own options on
top. A load comes to that when it meets no file twice; a file that it does meet again gives nothing.
-/

namespace CodeGraph

/-! ## What a load does -/

namespace Loading

variable {α β : Type} {step : Loading α} {value : α} {trail after : ConfigTrail}

/-- What is left to do behind a step that gives a value. -/
theorem run_bind (next : α → Loading β) (gives : step.run.run trail = (.ok value, after)) :
    (step >>= next).run.run trail = (next value).run.run after := by
  rw [ExceptT.run_bind, StateT.run_bind, gives]
  rfl

theorem run_ofExcept {outcome : Except ConfigError α} (succeeds : outcome = .ok value) :
    (ofExcept outcome).run.run trail = (.ok value, trail) := by
  rw [succeeds]
  rfl

theorem run_ofFile {outcome : Except FileFault α} (succeeds : outcome = .ok value) :
    (ofFile outcome).run.run trail = (.ok value, trail) := by
  rw [succeeds]
  rfl

theorem run_pure (value : α) : (pure value : Loading α).run.run trail = (.ok value, trail) := rfl

theorem run_tell (level : NoticeLevel) (message : String) :
    (tell level message).run.run trail
      = (.ok (), { trail with notices := trail.notices ++ [{ level, message }] }) := rfl

end Loading

namespace CompilerOptions

/-- A step of a load gives the options of these files, and has seen them afterwards. -/
def Gives (step : Loading MergedOptions) (seen : List Path) (sheets : List Sheet) : Prop :=
  ∀ trail : ConfigTrail, (∀ place, place ∈ trail.seen ↔ place ∈ seen) →
    ∃ after : ConfigTrail, step.run.run trail = (.ok (overlayAll sheets), after) ∧
      ∀ place, place ∈ after.seen ↔ place ∈ seen ++ sheets.map (·.resolved)

variable {tree : FileTree} {path : Path} {fuel : Nat}

theorem gives_mergeAll
    (merges : ∀ (lineage : Lineage) (file : Path) (seen : List Path), lineage.Of tree file →
      lineage.height ≤ fuel → Gives (merge tree fuel file) seen (lineage.loaded seen))
    {names : List String} {located : List (Option Path)} {parents : List Lineage}
    (found : names.mapM (locate? tree path.parent) = .ok located)
    (all : Lineage.AllOf tree (located.filterMap id) parents)
    (low : Lineage.heightOfAll parents ≤ fuel) (seen : List Path) :
    Gives (mergeAll tree fuel path names) seen (Lineage.loadedOfAll seen parents) := by
  induction names generalizing located parents seen with
  | nil =>
      obtain rfl := Except.ok.inj found
      cases parents with
      | nil =>
          rw [mergeAll, Lineage.loadedOfAll]
          exact fun trail same => ⟨trail, rfl, by simpa using same⟩
      | cons => exact all.elim
  | cons name names ih =>
      obtain ⟨first, others, first_eq, others_eq, rfl⟩ := mapM_cons_eq_ok_iff.mp found
      intro trail same
      rw [mergeAll]
      cases first with
      | none =>
          let noted : ConfigTrail := { trail with
            notices := trail.notices ++ [
              { level := .debug
                message := "tsconfig extends " ++ name ++ " not found from " ++ path.text }] }
          obtain ⟨after, rest_run, after_same⟩ := ih others_eq all low seen noted same
          refine ⟨after, ?_, after_same⟩
          rw [Loading.run_bind _ (Loading.run_ofFile first_eq)]
          rw [Loading.run_bind _ (Loading.run_tell _ _), Loading.run_bind _ (Loading.run_pure []),
            Loading.run_bind _ rest_run]
          exact congrArg (·, after) (congrArg Except.ok (overlay_overlayAll [] _))
      | some file =>
          cases parents with
          | nil => exact all.elim
          | cons parent parents =>
              obtain ⟨of, all⟩ := all
              obtain ⟨parent_low, low⟩ := Nat.max_le.mp low
              obtain ⟨between, parent_run, between_same⟩ :=
                merges parent file seen of parent_low trail same
              obtain ⟨after, rest_run, after_same⟩ :=
                ih others_eq all low _ between between_same
              refine ⟨after, ?_, ?_⟩
              · rw [Loading.run_bind _ (Loading.run_ofFile first_eq),
                  Loading.run_bind _ parent_run, Loading.run_bind _ rest_run]
                rw [Lineage.loadedOfAll, overlayAll_append]
                rfl
              · simpa [Lineage.loadedOfAll] using after_same

theorem gives_merge (lineage : Lineage) (file : Path) (seen : List Path)
    (of : lineage.Of tree file) (low : lineage.height ≤ fuel) :
    Gives (merge tree fuel file) seen (lineage.loaded seen) := by
  induction fuel generalizing lineage file seen with
  | zero =>
      cases lineage
      exact absurd low (by simp [Lineage.height])
  | succ fuel ih =>
      obtain ⟨sheet, parents⟩ := lineage
      obtain ⟨read, all⟩ := of
      obtain ⟨resolves, config, names, located, object, named, found, parents_eq, own_eq⟩ :=
        readSheet_eq_ok_iff.mp read
      intro trail same
      have fetched : (get : Loading ConfigTrail).run.run trail = (.ok trail, trail) := rfl
      rw [merge, Loading.run_bind _ (Loading.run_ofFile resolves)]
      by_cases known : sheet.resolved ∈ seen
      · have contained : trail.seen.contains sheet.resolved = true := by
          simpa using (same sheet.resolved).mpr known
        have nothing : Lineage.loaded seen (.file sheet parents) = [] := if_pos known
        rw [Loading.run_bind _ fetched, if_pos contained, nothing]
        exact ⟨_, rfl, by simpa using same⟩
      · have missing : ¬ trail.seen.contains sheet.resolved = true := by
          simpa using (same sheet.resolved).not.mpr known
        have visited : Lineage.loaded seen (.file sheet parents)
            = Lineage.loadedOfAll (sheet.resolved :: seen) parents ++ [sheet] := if_neg known
        let marked : ConfigTrail := { trail with seen := trail.seen ++ [sheet.resolved] }
        have marked_same :
            ∀ place, place ∈ marked.seen ↔ place ∈ sheet.resolved :: seen := by
          intro place
          simp [marked, same, or_comm]
        obtain ⟨after, parents_run, after_same⟩ := gives_mergeAll ih found (parents_eq ▸ all)
          (Nat.le_of_succ_le_succ low) _ marked marked_same
        have mark : (modify fun trail : ConfigTrail =>
            { trail with seen := trail.seen ++ [sheet.resolved] } : Loading PUnit).run.run trail
              = (.ok ⟨⟩, marked) := rfl
        refine ⟨after, ?_, ?_⟩
        · rw [Loading.run_bind _ fetched, if_neg missing, Loading.run_bind _ mark,
            Loading.run_bind _ (Loading.run_ofExcept object),
            Loading.run_bind _ (Loading.run_ofExcept named), Loading.run_bind _ parents_run,
            Loading.run_bind _ (Loading.run_ofExcept own_eq), visited, overlayAll_concat]
          rfl
        · intro place
          rw [after_same, visited, List.map_append, List.cons_append, List.mem_cons,
            List.mem_append, List.mem_append, List.mem_append, List.map_singleton,
            List.mem_singleton]
          exact or_comm.trans or_assoc

/-! ## Every file of a lineage is reached -/

namespace Lineage

theorem Of.readSheet_eq {tree : FileTree} {path : Path} {lineage : Lineage}
    (of : lineage.Of tree path) : readSheet tree path = .ok lineage.sheet := by
  obtain ⟨sheet, parents⟩ := lineage
  exact of.1

mutual

/-- Every file in a lineage is reached. -/
theorem Of.exists_path : ∀ {lineage node : Lineage} {path : Path}, lineage.Of tree path →
    node ∈ lineage.nodes → ∃ file, Reaches tree path file ∧ node.Of tree file
  | file sheet parents, node, path, of, present => by
      rcases List.mem_append.mp present with below | here
      · obtain ⟨parent, parent_mem, other, reaches, node_of⟩ := AllOf.exists_path of.2 below
        exact ⟨other, .head ⟨sheet, of.1, parent_mem⟩ reaches, node_of⟩
      · rw [List.mem_singleton.mp here]
        exact ⟨path, .refl, of⟩

theorem AllOf.exists_path : ∀ {parents : List Lineage} {node : Lineage} {paths : List Path},
    AllOf tree paths parents → node ∈ nodesOfAll parents →
    ∃ path ∈ paths, ∃ file, Reaches tree path file ∧ node.Of tree file
  | parent :: parents, node, path :: paths, ⟨of, all⟩, present => by
      rcases List.mem_append.mp present with first | later
      · exact ⟨path, List.mem_cons_self, Of.exists_path of first⟩
      · obtain ⟨other, other_mem, found⟩ := AllOf.exists_path all later
        exact ⟨other, List.mem_cons_of_mem path other_mem, found⟩

end

end Lineage

/-- No file is reached under two names. -/
def NamedOnce (tree : FileTree) (path : Path) : Prop :=
  ∀ first second, Reaches tree path first → Reaches tree path second →
    tree.resolve first = tree.resolve second → first = second

theorem onePlace_of_namedOnce {lineage : Lineage} (of : lineage.Of tree path)
    (named : NamedOnce tree path) : Lineage.OnePlace lineage.nodes := by
  intro first first_mem second second_mem same
  obtain ⟨first_path, first_reached, first_of⟩ := of.exists_path first_mem
  obtain ⟨second_path, second_reached, second_of⟩ := of.exists_path second_mem
  have first_place := (readSheet_eq_ok_iff.mp first_of.readSheet_eq).1
  have second_place := (readSheet_eq_ok_iff.mp second_of.readSheet_eq).1
  obtain rfl := named first_path second_path first_reached second_reached
    (by rw [first_place, second_place, same])
  exact first_of.unique second_of

theorem outcome_of_lineage {lineage : Lineage} (of : lineage.Of tree path)
    (low : lineage.height ≤ tree.top.leafCount) :
    (readMerged tree path).outcome = .ok (overlayAll (lineage.loaded [])) := by
  have enough : lineage.height ≤ tree.top.leafCount + 2 := Nat.le_add_right_of_le low
  obtain ⟨after, run, _⟩ := gives_merge lineage path [] of enough {} fun _ => Iff.rfl
  rw [readMerged, run]

/-- The options of the files that a sheet extends, each loaded on its own, laid over each other in
order, and the sheet's own options on top. -/
def ownOverParents (tree : FileTree) (sheet : Sheet) : Except ConfigError MergedOptions := do
  let inherited ← sheet.parents.mapM fun parent => (readMerged tree parent).outcome
  return (inherited.foldl MergedOptions.overlay []).overlay sheet.own

theorem outcomes_of_lineages {paths : List Path} {parents : List Lineage}
    (all : Lineage.AllOf tree paths parents)
    (low : Lineage.heightOfAll parents ≤ tree.top.leafCount)
    (different : (places (Lineage.visitsOfAll parents)).Nodup) :
    (paths.mapM fun parent => (readMerged tree parent).outcome)
      = .ok (parents.map Lineage.merged) := by
  induction parents generalizing paths with
  | nil =>
      cases paths with
      | nil => rfl
      | cons => exact all.elim
  | cons parent parents ih =>
      cases paths with
      | nil => exact all.elim
      | cons path paths =>
          obtain ⟨of, all⟩ := all
          obtain ⟨parent_low, low⟩ := Nat.max_le.mp low
          rw [Lineage.visitsOfAll, places, List.map_append] at different
          obtain ⟨parent_different, different, _⟩ := List.nodup_append.mp different
          have first := outcome_of_lineage of parent_low
          rw [Lineage.loaded_eq_visits parent_different (List.disjoint_nil_right _),
            ← parent.merged_eq] at first
          rw [List.mapM_cons, first, ih all low different]
          rfl

/-- The options of a file whose references lead in no circle, all files that are reached being
usable: the own options of the files as far as they are not met again, one over the other. They are
those of the files that it extends, each loaded on its own, with its own options on top, as long as
no file is met twice. -/
theorem readMerged_of_acyclic (clean : Clean tree path) (usable : Usable tree path)
    (acyclic : Acyclic tree path) :
    ∃ lineage : Lineage, lineage.Of tree path ∧
      (readMerged tree path).outcome = .ok (overlayAll (lineage.loaded [])) ∧
      ((places lineage.visits).Nodup →
        (readMerged tree path).outcome = .ok lineage.merged ∧
          ownOverParents tree lineage.sheet = .ok lineage.merged) ∧
      (NamedOnce tree path →
        (readMerged tree path).outcome = .ok (overlayAll (keepFirst [] lineage.visits))) := by
  obtain ⟨lineage, of, low⟩ := exists_lineage clean usable acyclic
  have loads := outcome_of_lineage of low
  refine ⟨lineage, of, loads, fun different => ⟨?_, ?_⟩, fun named => ?_⟩
  · rw [loads, lineage.merged_eq, Lineage.loaded_eq_visits different (List.disjoint_nil_right _)]
  · obtain ⟨sheet, parents⟩ := lineage
    rw [Lineage.visits, places, List.map_append] at different
    have parents_low : Lineage.heightOfAll parents ≤ tree.top.leafCount :=
      Nat.le_trans (Nat.le_succ _) low
    have alone := outcomes_of_lineages of.2 parents_low (List.nodup_append.mp different).1
    rw [ownOverParents, Lineage.sheet, alone, Lineage.merged, Lineage.mergedOver_eq_foldl]
    rfl
  · rw [loads, Lineage.loaded_eq_keepFirst (onePlace_of_namedOnce of named)]
    exact fun _ _ seen => absurd seen List.not_mem_nil

/-! ## A file that is met twice -/

/-- A file at the top. -/
def atTop (name : String) : Path :=
  Path.absolute [name]

/-- The configuration extends two files that both extend a third one. -/
def diamond : FileTree where
  top := .directory [
    ("a.json", .file (.ofText
      "\x7b\"extends\":\"./c.json\",\"compilerOptions\":\x7b\"jsx\":\"react\"\x7d\x7d")),
    ("b.json", .file (.ofText "\x7b\"extends\":\"./c.json\"\x7d")),
    ("c.json", .file (.ofText "\x7b\"compilerOptions\":\x7b\"jsx\":\"preserve\"\x7d\x7d")),
    ("tsconfig.json", .file (.ofText "\x7b\"extends\":[\"./a.json\",\"./b.json\"]\x7d"))]

/-- What a sheet says whose options are texts. -/
structure Outline where
  /-- The place of the file. -/
  resolved : Path
  /-- The files that it extends. -/
  parents : List Path
  /-- Its own options. -/
  texts : List (String × String)
deriving DecidableEq

/-- A text option as it is stated. -/
def statedText (option : String × String) : String × OptionValue :=
  (option.1, .stated (.text option.2))

/-- The text of an option. -/
def textOption? : String × OptionValue → Option (String × String)
  | (name, .stated (.text text)) => some (name, text)
  | _ => none

/-- The sheet of an outline. -/
def Outline.sheet (outline : Outline) : Sheet :=
  { resolved := outline.resolved
    parents := outline.parents
    own := outline.texts.map statedText }

/-- The outline of a sheet whose options are texts. -/
def Sheet.outline? (sheet : Sheet) : Option Outline :=
  (sheet.own.mapM textOption?).map fun texts =>
    { resolved := sheet.resolved, parents := sheet.parents, texts }

theorem eq_map_of_mapM_textOption? {options : MergedOptions} {texts : List (String × String)}
    (found : options.mapM textOption? = some texts) : options = texts.map statedText := by
  induction options generalizing texts with
  | nil =>
      obtain rfl := Option.some.inj found
      rfl
  | cons option options ih =>
      rw [List.mapM_cons] at found
      obtain ⟨first, first_eq, found⟩ := Option.bind_eq_some_iff.mp found
      obtain ⟨others, others_eq, found⟩ := Option.bind_eq_some_iff.mp found
      obtain rfl := Option.some.inj found
      rw [List.map_cons, ← ih others_eq]
      refine congrArg (· :: options) ?_
      unfold textOption? at first_eq
      split at first_eq
      · obtain rfl := Option.some.inj first_eq
        rfl
      · exact nomatch first_eq

theorem eq_sheet_of_outline? {sheet : Sheet} {outline : Outline}
    (outlined : sheet.outline? = some outline) : sheet = outline.sheet := by
  obtain ⟨texts, found, rfl⟩ := Option.map_eq_some_iff.mp outlined
  rw [Outline.sheet, ← eq_map_of_mapM_textOption? found]

/-- The outlines of the files in the diamond. -/
def diamondOutlines : List Outline :=
  [{ resolved := atTop "tsconfig.json", parents := [atTop "a.json", atTop "b.json"], texts := [] },
    { resolved := atTop "a.json", parents := [atTop "c.json"], texts := [("jsx", "react")] },
    { resolved := atTop "b.json", parents := [atTop "c.json"], texts := [] },
    { resolved := atTop "c.json", parents := [], texts := [("jsx", "preserve")] }]

theorem readSheet_diamond : ∀ outline ∈ diamondOutlines,
    readSheet diamond outline.resolved = .ok outline.sheet := by
  have outlines : ∀ outline ∈ diamondOutlines,
      (readSheet diamond outline.resolved).toOption.bind Sheet.outline? = some outline := by
    decide +kernel
  intro outline present
  have outlined := outlines outline present
  cases read : readSheet diamond outline.resolved with
  | error fault => rw [read] at outlined; exact nomatch outlined
  | ok sheet => rw [read] at outlined; exact congrArg Except.ok (eq_sheet_of_outline? outlined)

theorem mem_diamondOutlines_of_extends {outline : Outline} {parent : Path}
    (present : outline ∈ diamondOutlines) (extending : Extends diamond outline.resolved parent) :
    ∃ other ∈ diamondOutlines, other.resolved = parent ∧
      diamondOutlines.idxOf outline < diamondOutlines.idxOf other := by
  have later : ∀ outline ∈ diamondOutlines, ∀ parent ∈ outline.parents,
      ∃ other ∈ diamondOutlines, other.resolved = parent ∧
        diamondOutlines.idxOf outline < diamondOutlines.idxOf other := by
    decide +kernel
  obtain ⟨sheet, read, parent_mem⟩ := extending
  obtain rfl := Except.ok.inj ((readSheet_diamond outline present).symm.trans read)
  exact later outline present parent parent_mem

theorem mem_diamondOutlines_of_reaches {file : Path}
    (reaches : Reaches diamond (atTop "tsconfig.json") file) :
    ∃ outline ∈ diamondOutlines, outline.resolved = file := by
  induction reaches with
  | refl => exact ⟨_, List.mem_cons_self, rfl⟩
  | tail _ extending ih =>
      obtain ⟨outline, present, rfl⟩ := ih
      obtain ⟨other, other_mem, same, _⟩ := mem_diamondOutlines_of_extends present extending
      exact ⟨other, other_mem, same⟩

theorem usable_diamond : Usable diamond (atTop "tsconfig.json") := by
  intro file reaches
  obtain ⟨outline, present, rfl⟩ := mem_diamondOutlines_of_reaches reaches
  exact ⟨outline.sheet, readSheet_diamond outline present⟩

theorem acyclic_diamond : Acyclic diamond (atTop "tsconfig.json") := by
  have resolves : ∀ outline ∈ diamondOutlines,
      diamond.resolve outline.resolved = .ok outline.resolved := fun outline present =>
    (readSheet_eq_ok_iff.mp (readSheet_diamond outline present)).1
  intro file other reaches leads
  obtain ⟨outline, present, rfl⟩ := mem_diamondOutlines_of_reaches reaches
  have later : ∃ last ∈ diamondOutlines, last.resolved = other ∧
      diamondOutlines.idxOf outline < diamondOutlines.idxOf last := by
    induction leads with
    | single extending => exact mem_diamondOutlines_of_extends present extending
    | tail _ extending ih =>
        obtain ⟨between, between_mem, rfl, before⟩ := ih
        obtain ⟨last, last_mem, same, after⟩ :=
          mem_diamondOutlines_of_extends between_mem extending
        exact ⟨last, last_mem, same, Nat.lt_trans before after⟩
  obtain ⟨last, last_mem, rfl, before⟩ := later
  rw [resolves outline present, resolves last last_mem]
  intro same
  have apart : ∀ first ∈ diamondOutlines, ∀ second ∈ diamondOutlines,
      first.resolved = second.resolved → first = second := by
    decide +kernel
  obtain rfl := apart outline present last last_mem (Except.ok.inj same)
  exact absurd before (Nat.lt_irrefl _)

/-- The lineage of the configuration that extends two files with one parent. -/
def diamondLineage : Lineage :=
  let shared : Sheet :=
    { resolved := atTop "c.json", parents := [], own := [statedText ("jsx", "preserve")] }
  let first : Sheet :=
    { resolved := atTop "a.json", parents := [shared.resolved]
      own := [statedText ("jsx", "react")] }
  let second : Sheet :=
    { resolved := atTop "b.json", parents := [shared.resolved], own := [] }
  let root : Sheet :=
    { resolved := atTop "tsconfig.json", parents := [first.resolved, second.resolved], own := [] }
  .file root [.file first [.file shared []], .file second [.file shared []]]

theorem diamondLineage_of : diamondLineage.Of diamond (atTop "tsconfig.json") := by
  have sheets := readSheet_diamond
  simp only [diamondOutlines, List.mem_cons, List.not_mem_nil, or_false, forall_eq_or_imp,
    forall_eq] at sheets
  obtain ⟨root, first, second, shared⟩ := sheets
  exact ⟨root, ⟨first, ⟨shared, trivial⟩, trivial⟩,
    ⟨second, ⟨shared, trivial⟩, trivial⟩, trivial⟩

/-- The second file that extends the shared one does not bring its options back. -/
theorem diamond_forgets_second_visit :
    (readMerged diamond (atTop "tsconfig.json")).outcome = .ok [statedText ("jsx", "react")] ∧
      ownOverParents diamond diamondLineage.sheet = .ok [statedText ("jsx", "preserve")] ∧
      diamondLineage.merged = [statedText ("jsx", "preserve")] := by
  have clean : Clean diamond (atTop "tsconfig.json") := by
    unfold Clean
    decide +kernel
  obtain ⟨lineage, of, loads, _⟩ := readMerged_of_acyclic clean usable_diamond acyclic_diamond
  obtain rfl := of.unique diamondLineage_of
  refine ⟨?_, ?_, ?_⟩
  · rw [loads]
    rfl
  · obtain ⟨_, first_of, second_of, _⟩ := diamondLineage_of
    have first := outcome_of_lineage first_of (by decide +kernel)
    have second := outcome_of_lineage second_of (by decide +kernel)
    have alone : [atTop "a.json", atTop "b.json"].mapM (fun parent =>
        (readMerged diamond parent).outcome)
          = .ok [[statedText ("jsx", "react")], [statedText ("jsx", "preserve")]] := by
      rw [List.mapM_cons, first, List.mapM_cons, second]
      rfl
    change ([atTop "a.json", atTop "b.json"].mapM (fun parent =>
      (readMerged diamond parent).outcome) >>= _) = _
    rw [alone]
    rfl
  · rfl

end CompilerOptions

end CodeGraph
