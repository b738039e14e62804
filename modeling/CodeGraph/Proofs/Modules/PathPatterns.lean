import CodeGraph.Proofs.Text.Pieces
import CodeGraph.Modules.Resolution
import Mathlib.Data.List.Basic

/-!
# Path patterns

A pattern matches a specifier as a whole, or its first star stands for what is left between the
texts in front of it and behind it. Matching patterns are tried by falling rank, and patterns of one
rank in written order. The rank of a pattern without a star is beyond that of all others that match
the same specifier, since what stands in front of a star is no longer than the specifier.
-/

namespace CodeGraph

/-! ## Items by falling rank -/

section Falling

variable {α : Type} {key : α → Nat} {left right items : List α} {ranks : List Nat}

/-- The order of falling numbers. -/
abbrev fallingLe (left right : Nat) : Bool :=
  decide (right ≤ left)

theorem fallingLe_trans (first second third : Nat) (above : fallingLe first second = true)
    (below : fallingLe second third = true) : fallingLe first third = true := by
  simp only [fallingLe, decide_eq_true_eq] at *
  exact Nat.le_trans below above

theorem fallingLe_total (first second : Nat) :
    (fallingLe first second || fallingLe second first) = true := by
  simpa [fallingLe] using Nat.le_total second first

theorem mem_iff_of_filter_eq
    (same : ∀ rank, left.filter (key · == rank) = right.filter (key · == rank)) (item : α) :
    item ∈ left ↔ item ∈ right := by
  have here := congrArg (item ∈ ·) (same (key item))
  simpa using here

/-- Lists with falling keys are the same if they agree key by key. -/
theorem eq_of_falling (left_falls : left.Pairwise fun first second => key second ≤ key first)
    (right_falls : right.Pairwise fun first second => key second ≤ key first)
    (same : ∀ rank, left.filter (key · == rank) = right.filter (key · == rank)) :
    left = right := by
  induction left generalizing right with
  | nil =>
      refine (List.eq_nil_iff_forall_not_mem.mpr fun item present => ?_).symm
      exact List.not_mem_nil ((mem_iff_of_filter_eq same item).mpr present)
  | cons first left ih =>
      have members := mem_iff_of_filter_eq same
      cases right with
      | nil => exact absurd ((members first).mp List.mem_cons_self) List.not_mem_nil
      | cons second right =>
          obtain ⟨below_first, left_rest⟩ := List.pairwise_cons.mp left_falls
          obtain ⟨below_second, right_rest⟩ := List.pairwise_cons.mp right_falls
          have first_le : key first ≤ key second := by
            rcases List.mem_cons.mp ((members first).mp List.mem_cons_self) with rfl | later
            · exact Nat.le_refl _
            · exact below_second first later
          have second_le : key second ≤ key first := by
            rcases List.mem_cons.mp ((members second).mpr List.mem_cons_self) with rfl | later
            · exact Nat.le_refl _
            · exact below_first second later
          have keys : key first = key second := Nat.le_antisymm first_le second_le
          have heads := same (key first)
          rw [List.filter_cons_of_pos (by simp), List.filter_cons_of_pos (by simp [keys])] at heads
          obtain ⟨rfl, _⟩ := List.cons.inj heads
          refine congrArg (first :: ·) (ih left_rest right_rest fun rank => ?_)
          have whole := same rank
          by_cases here : key first = rank
          · rw [List.filter_cons_of_pos (by simp [here]),
              List.filter_cons_of_pos (by simp [here])] at whole
            exact (List.cons.inj whole).2
          · rwa [List.filter_cons_of_neg (by simp [here]),
              List.filter_cons_of_neg (by simp [here])] at whole

/-- Sorting keeps the order of the items of one rank. -/
theorem filter_sortOn (key : α → Nat) (items : List α) (rank : Nat) :
    (sortOn fallingLe key items).filter (key · == rank) = items.filter (key · == rank) := by
  have level : (items.filter (key · == rank)).Pairwise
      fun first second => fallingLe (key first) (key second) = true := by
    refine List.pairwise_of_forall_mem_list fun first first_mem second second_mem => ?_
    have first_eq := (List.mem_filter.mp first_mem).2
    have second_eq := (List.mem_filter.mp second_mem).2
    simp only [beq_iff_eq] at first_eq second_eq
    simp [fallingLe, first_eq, second_eq]
  have kept := List.sublist_mergeSort
    (fun first second third => fallingLe_trans (key first) (key second) (key third))
    (fun first second => fallingLe_total (key first) (key second)) level List.filter_sublist
  have fewer := kept.filter (key · == rank)
  rw [List.filter_filter] at fewer
  simp only [Bool.and_self] at fewer
  refine (fewer.eq_of_length ?_).symm
  exact ((sortOn_perm fallingLe key items).filter _).length_eq.symm

theorem flatMap_rank (distinct : ranks.Nodup) (bucket : Nat → List α) (rank : Nat) :
    (ranks.flatMap fun other => if other = rank then bucket other else [])
      = if rank ∈ ranks then bucket rank else [] := by
  induction ranks with
  | nil => simp
  | cons first ranks ih =>
      obtain ⟨fresh, distinct⟩ := List.nodup_cons.mp distinct
      rw [List.flatMap_cons, ih distinct]
      by_cases here : first = rank
      · subst here
        simp [fresh]
      · simp [here, Ne.symm here]

/-- Sorted by falling rank, items stand in the order of the ranks, and items of one rank as they
stood before. -/
theorem sortOn_eq_flatMap (falls : ranks.Pairwise (· > ·))
    (ranked : ∀ item ∈ items, key item ∈ ranks) :
    sortOn fallingLe key items = ranks.flatMap fun rank => items.filter (key · == rank) := by
  have sorted_falls : (sortOn fallingLe key items).Pairwise fun first second =>
      key second ≤ key first := by
    refine (pairwise_sortOn fallingLe key fallingLe_trans fallingLe_total items).imp ?_
    intro first second falling
    simpa [fallingLe] using falling
  refine eq_of_falling sorted_falls ?_ fun rank => ?_
  · refine List.pairwise_flatMap.mpr ⟨fun rank _ => ?_, falls.imp fun above first first_mem second
      second_mem => ?_⟩
    · refine List.pairwise_of_forall_mem_list fun first first_mem second second_mem => ?_
      have first_eq := beq_iff_eq.mp (List.mem_filter.mp first_mem).2
      have second_eq := beq_iff_eq.mp (List.mem_filter.mp second_mem).2
      exact Nat.le_of_eq (second_eq.trans first_eq.symm)
    · have first_eq := beq_iff_eq.mp (List.mem_filter.mp first_mem).2
      have second_eq := beq_iff_eq.mp (List.mem_filter.mp second_mem).2
      rw [first_eq, second_eq]
      exact Nat.le_of_lt above
  · have distinct : ranks.Nodup := falls.imp fun above => Nat.ne_of_gt above
    have buckets : ∀ other, (items.filter (key · == other)).filter (key · == rank)
        = if other = rank then items.filter (key · == other) else [] := by
      intro other
      split
      next same => simp [same]
      next apart =>
        refine List.filter_eq_nil_iff.mpr fun item present => ?_
        have item_eq := beq_iff_eq.mp (List.mem_filter.mp present).2
        simp [item_eq, apart]
    rw [filter_sortOn, List.filter_flatMap]
    simp only [buckets]
    rw [flatMap_rank distinct]
    split
    next => rfl
    next absent =>
      refine List.filter_eq_nil_iff.mpr fun item present same => absent ?_
      exact beq_iff_eq.mp same ▸ ranked item present

end Falling

namespace ModuleResolver

open PathText

variable {pattern specifier front back captured base url fromFile : String} {length rank : Nat}
  {paths : List (String × List String)} {how : PatternMatch} {resolver : ModuleResolver}

/-! ## One pattern -/

/-- The specifier is what becomes of the pattern when its first star, which stands behind `front`,
gives way to `captured`. -/
def Captures (pattern specifier front captured : String) : Prop :=
  '*' ∉ front.toList ∧
    ∃ back, pattern = front ++ "*" ++ back ∧ specifier = front ++ captured ++ back

theorem exists_front (star : '*' ∈ pattern.toList) :
    ∃ front back, pattern = front ++ "*" ++ back ∧ '*' ∉ front.toList := by
  obtain ⟨before, behind, whole, plain⟩ := List.eq_append_cons_of_mem star
  refine ⟨String.ofList before, String.ofList behind, String.toList_inj.mp ?_, by simpa using plain⟩
  simp [whole]

theorem matchPattern?_of_plain (plain : '*' ∉ pattern.toList) :
    matchPattern? pattern specifier
      = if pattern = specifier then some ⟨pattern.length + exactBonus, ""⟩ else none := by
  simp [matchPattern?, plain]

/-- Two texts stand at the ends of a third one without overlapping exactly if it is both of them
around a fourth. -/
theorem exists_middle_iff {front back chars : List Char} :
    (front.isPrefixOf chars && back.isSuffixOf chars
        && decide (front.length + back.length ≤ chars.length)) = true ↔
      ∃ middle, chars = front ++ middle ++ back := by
  simp only [Bool.and_eq_true, List.isPrefixOf_iff_prefix, List.isSuffixOf_iff_suffix,
    decide_eq_true_eq]
  constructor
  · rintro ⟨⟨⟨rest, rfl⟩, ends⟩, room⟩
    have leaves : back <:+ rest := by
      refine List.suffix_of_suffix_length_le ends ⟨front, rfl⟩ ?_
      rw [List.length_append] at room
      omega
    obtain ⟨middle, rfl⟩ := leaves
    exact ⟨middle, (List.append_assoc front middle back).symm⟩
  · rintro ⟨middle, rfl⟩
    refine ⟨⟨⟨middle ++ back, by simp⟩, ⟨front ++ middle, rfl⟩⟩, ?_⟩
    simp only [List.length_append]
    omega

theorem take_drop_middle (front middle back : List Char) :
    ((front ++ middle ++ back).drop front.length).take
      ((front ++ middle ++ back).length - front.length - back.length) = middle := by
  have left : (front ++ middle ++ back).length - front.length - back.length = middle.length := by
    simp only [List.length_append]
    omega
  rw [left]
  simp

/-- A pattern with a star matches exactly the specifiers in which some text stands between the texts
around its first star. -/
theorem matchPattern?_of_star (plain : '*' ∉ front.toList) :
    matchPattern? (front ++ "*" ++ back) specifier = some how ↔
      how.rank = front.length ∧ specifier = front ++ how.captured ++ back := by
  have whole : (front ++ "*" ++ back).toList = front.toList ++ '*' :: back.toList := by simp
  have other : ∀ char ∈ front.toList, (char != '*') = true := by
    intro char present
    simpa using fun same : char = '*' => plain (same ▸ present)
  have before : (front.toList ++ '*' :: back.toList).takeWhile (· != '*') = front.toList := by
    rw [List.takeWhile_append_of_pos other]
    simp
  have behind : ((front.toList ++ '*' :: back.toList).dropWhile (· != '*')).drop 1
      = back.toList := by
    rw [List.dropWhile_append_of_pos other]
    simp
  rw [matchPattern?, whole, before, behind, if_pos (by simp)]
  dsimp only
  constructor
  · intro found
    split at found
    next fits =>
      obtain ⟨middle, around⟩ := exists_middle_iff.mp fits
      obtain rfl := Option.some.inj found
      refine ⟨String.length_toList, String.toList_inj.mp ?_⟩
      rw [around, take_drop_middle]
      simp
    next => exact nomatch found
  · rintro ⟨counts, rfl⟩
    obtain ⟨rank, captured⟩ := how
    obtain rfl : rank = front.length := counts
    have around : (front ++ captured ++ back).toList
        = front.toList ++ captured.toList ++ back.toList := by simp
    rw [if_pos (exists_middle_iff.mpr ⟨captured.toList, around⟩), around, take_drop_middle]
    simp [String.length_toList]

/-- The text that the first star of a pattern stands for in a specifier, where the text in front of
it has the length. -/
def captured? (pattern specifier : String) (length : Nat) : Option String :=
  (matchPattern? pattern specifier).bind fun how =>
    if '*' ∈ pattern.toList ∧ how.rank = length then some how.captured else none

theorem captured?_eq_some_iff : captured? pattern specifier length = some captured ↔
    ∃ front, front.length = length ∧ Captures pattern specifier front captured := by
  constructor
  · intro found
    obtain ⟨how, fits, taken⟩ := Option.bind_eq_some_iff.mp found
    split at taken
    next star =>
      obtain ⟨front, back, rfl, plain⟩ := exists_front star.1
      obtain ⟨counts, whole⟩ := (matchPattern?_of_star plain).mp fits
      obtain rfl := Option.some.inj taken
      exact ⟨front, counts.symm.trans star.2, plain, back, rfl, whole⟩
    next => exact nomatch taken
  · rintro ⟨front, rfl, plain, back, rfl, whole⟩
    have fits : matchPattern? (front ++ "*" ++ back) specifier = some ⟨front.length, captured⟩ :=
      (matchPattern?_of_star plain).mpr ⟨rfl, whole⟩
    rw [captured?, fits, Option.bind_some, if_pos ⟨by simp, rfl⟩]

theorem rank_of_matchPattern? (fits : matchPattern? pattern specifier = some how) :
    how.rank ∈ (specifier.length + exactBonus) :: (List.range (specifier.length + 1)).reverse := by
  by_cases star : '*' ∈ pattern.toList
  · obtain ⟨front, back, rfl, plain⟩ := exists_front star
    obtain ⟨counts, rfl⟩ := (matchPattern?_of_star plain).mp fits
    refine List.mem_cons_of_mem _ (List.mem_reverse.mpr (List.mem_range.mpr ?_))
    simp only [counts, String.length_append]
    omega
  · rw [matchPattern?_of_plain star] at fits
    split at fits
    next same =>
      obtain rfl := Option.some.inj fits
      simp [same]
    next => exact nomatch fits

/-! ## All patterns -/

/-- The paths that the pattern offers that is the specifier and has no star. -/
def exactOffers (paths : List (String × List String)) (base specifier : String) : List String :=
  paths.flatMap fun (pattern, targets) =>
    if '*' ∉ pattern.toList ∧ pattern = specifier then offers base "" targets else []

/-- The paths that the patterns offer whose first star has a text of the length in front of it, in
written order. -/
def starOffers (paths : List (String × List String)) (base specifier : String) (length : Nat) :
    List String :=
  paths.flatMap fun (pattern, targets) =>
    (captured? pattern specifier length).elim [] fun captured => offers base captured targets

/-- The paths that the patterns offer: those of the pattern without a star, then those of the
others, the longest text in front of a star first. -/
def offersInOrder (paths : List (String × List String)) (base specifier : String) : List String :=
  exactOffers paths base specifier
    ++ (List.range (specifier.length + 1)).reverse.flatMap (starOffers paths base specifier)

theorem flatMap_filter_matching (offer : String → List String → List String) :
    ((matching paths specifier).filter (·.1.rank == rank)).flatMap
        (fun (how, targets) => offer how.captured targets)
      = paths.flatMap fun (pattern, targets) =>
          ((matchPattern? pattern specifier).filter (·.rank == rank)).elim []
            fun how => offer how.captured targets := by
  induction paths with
  | nil => rfl
  | cons entry paths ih =>
      obtain ⟨pattern, targets⟩ := entry
      rw [List.flatMap_cons, ← ih, matching, List.filterMap_cons]
      cases fits : matchPattern? pattern specifier with
      | none => simp [matching, fits]
      | some how =>
          by_cases here : how.rank = rank
          · simp [matching, fits, here, Option.filter]
          · simp [matching, fits, here, Option.filter]

theorem offers_of_exact (targets : List String) :
    (((matchPattern? pattern specifier).filter
        (·.rank == specifier.length + exactBonus)).elim [] fun how =>
          offers base how.captured targets)
      = if '*' ∉ pattern.toList ∧ pattern = specifier then offers base "" targets else [] := by
  by_cases star : '*' ∈ pattern.toList
  · rw [if_neg (by simp [star])]
    cases fits : matchPattern? pattern specifier with
    | none => rfl
    | some how =>
        obtain ⟨front, back, rfl, plain⟩ := exists_front star
        obtain ⟨counts, rfl⟩ := (matchPattern?_of_star plain).mp fits
        have apart : ¬ how.rank
            = front.length + how.captured.length + back.length + exactBonus := by
          rw [counts, exactBonus]
          omega
        simp [Option.filter, apart]
  · rw [matchPattern?_of_plain star]
    by_cases same : pattern = specifier
    · simp [same, Option.filter, same ▸ star]
    · simp [same]

theorem offers_of_star (within : length ≤ specifier.length) (targets : List String) :
    (((matchPattern? pattern specifier).filter (·.rank == length)).elim [] fun how =>
          offers base how.captured targets)
      = (captured? pattern specifier length).elim [] fun captured =>
          offers base captured targets := by
  rw [captured?]
  cases fits : matchPattern? pattern specifier with
  | none => rfl
  | some how =>
      by_cases star : '*' ∈ pattern.toList
      · by_cases here : how.rank = length
        · simp [star, here, Option.filter]
        · simp [here, Option.filter]
      · rw [matchPattern?_of_plain star] at fits
        split at fits
        next same =>
          obtain rfl := Option.some.inj fits
          have apart : ¬ pattern.length + exactBonus = length := by
            rw [same, exactBonus]
            omega
          simp [star, apart, Option.filter]
        next => exact nomatch fits

/-- The numeric ranks put the patterns in their order. -/
theorem mapped_eq_offersInOrder
    (based : resolver.options.pathsBase.bind resolver.inside? = some base) :
    resolver.mapped specifier = offersInOrder resolver.options.paths base specifier := by
  have falls : ((specifier.length + exactBonus)
      :: (List.range (specifier.length + 1)).reverse).Pairwise (· > ·) := by
    refine List.pairwise_cons.mpr ⟨fun rank below => ?_, ?_⟩
    · have bound := List.mem_range.mp (List.mem_reverse.mp below)
      rw [exactBonus]
      omega
    · exact List.pairwise_reverse.mpr List.pairwise_lt_range
  have ranked : ∀ item ∈ matching resolver.options.paths specifier, item.1.rank
      ∈ (specifier.length + exactBonus) :: (List.range (specifier.length + 1)).reverse := by
    intro item present
    obtain ⟨entry, _, found⟩ := List.mem_filterMap.mp present
    obtain ⟨how, fits, rfl⟩ := Option.map_eq_some_iff.mp found
    exact rank_of_matchPattern? fits
  simp only [mapped, based]
  rw [sortOn_eq_flatMap falls ranked, List.flatMap_assoc, List.flatMap_cons, offersInOrder]
  congr 1
  · rw [flatMap_filter_matching (offers base), exactOffers]
    exact List.flatMap_congr fun entry _ => offers_of_exact entry.2
  · refine List.flatMap_congr fun length below => ?_
    have within : length ≤ specifier.length :=
      Nat.lt_succ_iff.mp (List.mem_range.mp (List.mem_reverse.mp below))
    rw [flatMap_filter_matching (offers base), starOffers]
    exact List.flatMap_congr fun entry _ => offers_of_star within entry.2

theorem mapped_eq_elim : resolver.mapped specifier
    = (resolver.options.pathsBase.bind resolver.inside?).elim []
        (offersInOrder resolver.options.paths · specifier) := by
  cases based : resolver.options.pathsBase.bind resolver.inside? with
  | none => simp only [mapped, based, Option.elim_none]
  | some base => exact mapped_eq_offersInOrder based

/-- A target with a text in the place of each star. -/
def filled (captured target : String) : String :=
  String.intercalate captured (Text.split '*' target)

theorem offers_eq (targets : List String) :
    offers base captured targets = targets.map fun target => join base (filled captured target) :=
  List.map_congr_left fun target _ =>
    congrArg (join base) (Text.replace_singleton '*' captured target)

/-- A specifier that is no path is looked for at the paths that the patterns offer and then below
the base URL, as far as their directories are inside of the project, and the first file found is the
answer. The pattern without a star that is the specifier comes first, then come those around whose
first star the specifier holds some text, the longest text in front of the star first and equally
long ones in written order, and each offers its targets in written order with that text for every
star. -/
theorem resolve?_bare (resolver : ModuleResolver) (specifier fromFile : String)
    (something : specifier ≠ "") (bare : isRelative specifier = false)
    (rootless : Text.startsWith specifier "/" = false) :
    resolver.resolve? specifier fromFile
        = ((resolver.options.pathsBase.bind resolver.inside?).elim []
              (offersInOrder resolver.options.paths · specifier)
            ++ ((resolver.options.baseUrl.bind resolver.inside?).map (join · specifier)).toList
          ).findSome? resolver.probe? ∧
      (∀ pattern length captured, captured? pattern specifier length = some captured ↔
        ∃ front, front.length = length ∧ Captures pattern specifier front captured) ∧
      ∀ base captured targets, offers base captured targets
        = targets.map fun target => join base (filled captured target) := by
  refine ⟨?_, fun pattern length captured => captured?_eq_some_iff,
    fun base captured targets => offers_eq targets⟩
  rw [resolve?, if_neg (by simpa using something), if_neg (by simp [bare]),
    if_neg (by simp [rootless]), mapped_eq_elim, List.findSome?_append]
  cases ((resolver.options.pathsBase.bind resolver.inside?).elim []
      (offersInOrder resolver.options.paths · specifier)).findSome? resolver.probe? with
  | none => cases resolver.options.baseUrl.bind resolver.inside? <;> simp
  | some file => rw [Option.some_or]

/-- A resolver with overlapping patterns and a file behind each of them. -/
def overlapping : ModuleResolver where
  root := .absolute ["project"]
  options :=
    { paths := [("@app/*", ["app/*"]), ("@app/core/*", ["old/*", "core/*"]),
        ("@app/core/api", ["generated/api"]), ("@app/core*", ["late*"])]
      pathsBase := some (.absolute ["project", "src"])
      baseUrl := some (.absolute ["project"]) }
  files := ["src/app/core/api.ts", "src/core/api.ts", "src/generated/api.ts", "src/core/log.ts",
    "src/app/core/log.ts", "tools/run.ts"]

/-- The pattern without a star wins, then the longest text in front of a star, and what no pattern
finds is found below the base URL. -/
theorem overlapping_resolve :
    overlapping.resolve? "@app/core/api" "main.ts" = some "src/generated/api.ts" ∧
      offersInOrder overlapping.options.paths "src" "@app/core/log"
        = ["src/old/log", "src/core/log", "src/late/log", "src/app/core/log"] ∧
      overlapping.resolve? "@app/core/log" "main.ts" = some "src/core/log.ts" ∧
      overlapping.resolve? "tools/run" "main.ts" = some "tools/run.ts" := by
  have base : overlapping.options.pathsBase.bind overlapping.inside? = some "src" := by
    decide +kernel
  have url : overlapping.options.baseUrl.bind overlapping.inside? = some "" := by decide +kernel
  obtain ⟨api, -⟩ := resolve?_bare overlapping "@app/core/api" "main.ts" (by decide)
    (by decide +kernel) (by decide +kernel)
  obtain ⟨log, -⟩ := resolve?_bare overlapping "@app/core/log" "main.ts" (by decide)
    (by decide +kernel) (by decide +kernel)
  obtain ⟨run, -⟩ := resolve?_bare overlapping "tools/run" "main.ts" (by decide)
    (by decide +kernel) (by decide +kernel)
  rw [api, log, run, base, url]
  decide +kernel

end ModuleResolver

end CodeGraph
