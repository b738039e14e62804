import CodeGraph.Proofs.Files.Normal
import CodeGraph.Proofs.Resolution.Moves

/-!
# Relative specifiers

A relative specifier is joined to the directory of the file that it stands in, and the joined path
is normalised and completed. It never leads out of the project, and it leads to nothing but known
files with code. In the other direction each known file is led to by the relative specifier that
goes up from a file's directory and down again, whatever else is known.
-/

namespace CodeGraph

/-- Two lists are what they have in common in front, and the rest of each. -/
theorem Path.exists_common (left right : List String) :
    ∃ common, left = common ++ (Path.dropCommon left right).1 ∧
      right = common ++ (Path.dropCommon left right).2 := by
  induction left generalizing right with
  | nil => exact ⟨[], by simp [Path.dropCommon]⟩
  | cons first left ih =>
      cases right with
      | nil => exact ⟨[], by simp [Path.dropCommon]⟩
      | cons second right =>
          by_cases same : first = second
          · obtain ⟨common, left_eq, right_eq⟩ := ih right
            refine ⟨first :: common, ?_, ?_⟩
            · simpa [Path.dropCommon, same] using left_eq
            · simpa [Path.dropCommon, same] using right_eq
          · exact ⟨[], by simp [Path.dropCommon, same]⟩

namespace PathText

open CodeGraph.Path (IsName)

variable {path base specifier : String} {names : List String}

/-- The two parts of a path that is cut in front of its extension. -/
theorem splitExtension_append (path : String) :
    (splitExtension path).1 ++ (splitExtension path).2 = path := by
  simp only [splitExtension]
  split
  next visible =>
    have several : Text.beforeLast '.' (fileName path) ≠ "" := by
      intro none
      simp [none] at visible
    obtain ⟨front, whole⟩ := Text.exists_append_lastPiece '/' path
    have name_eq := Text.beforeLast_append_lastPiece '.' several
    generalize stem_eq : front ++ Text.beforeLast '.' (fileName path) = stem
    generalize extension_eq : "." ++ Text.lastPiece '.' (fileName path) = extension
    have cut : path = stem ++ extension := by
      rw [← stem_eq, ← extension_eq, String.append_assoc]
      rw [String.append_assoc] at name_eq
      exact whole.symm.trans (congrArg (front ++ ·) name_eq.symm)
    rw [cut]
    simp only [← String.toList_inj, String.length_append, Nat.add_sub_cancel, String.toList_append,
      String.toList_ofList]
    rw [List.take_left' String.length_toList]
  next => simp

/-! ## Directories and what is joined to them -/

theorem IsAbsolute.of_append {front back : String} (absolute : IsAbsolute (front ++ back))
    (nonempty : front ≠ "") : IsAbsolute front := by
  obtain ⟨char, chars, front_eq⟩ :=
    List.exists_cons_of_ne_nil fun none => nonempty (String.toList_eq_nil_iff.mp none)
  simpa [IsAbsolute, Text.startsWith, front_eq] using absolute

theorem IsAbsolute.append {front : String} (absolute : IsAbsolute front) (back : String) :
    IsAbsolute (front ++ back) := by
  obtain ⟨rest, rfl⟩ := Text.startsWith_iff.mp absolute
  exact Text.startsWith_iff.mpr ⟨rest ++ back, String.append_assoc⟩

/-- The directory of a file with a relative path has a relative path. -/
theorem not_isAbsolute_parent (relative : ¬ IsAbsolute path) : ¬ IsAbsolute (parent path) := by
  simp only [parent]
  split
  next => decide
  next several =>
    have front : (Text.split '/' path).dropLast ≠ [] := by simpa [segments] using several
    have whole := ofSegments_segments path
    rw [segments, Text.split_eq_append_lastPiece, ofSegments,
      String.intercalate_append_of_ne_nil front (by simp), String.append_assoc] at whole
    -- What stands in front of the last slash is not empty, since the path would begin with it.
    have directory_ne : ofSegments (segments path).dropLast ≠ "" := by
      intro empty
      have empty' : String.intercalate "/" (Text.split '/' path).dropLast = "" := empty
      rw [empty', String.empty_append] at whole
      exact relative (Text.startsWith_iff.mpr ⟨_, whole.symm⟩)
    have directory_relative : ¬ IsAbsolute (ofSegments (segments path).dropLast) :=
      fun absolute => relative (whole ▸ absolute.append _)
    split
    next => exact fun absolute => directory_relative (absolute.of_append directory_ne)
    next =>
      intro absolute
      obtain ⟨rest, kept⟩ := List.rdropWhile_prefix (· == '/')
        (ofSegments (segments path).dropLast).toList
      refine directory_relative ?_
      have longer := absolute.append (String.ofList rest)
      rw [← String.ofList_append] at longer
      unfold List.rdropWhile at kept
      rwa [kept, String.ofList_toList] at longer

theorem not_isAbsolute_join (base_relative : ¬ IsAbsolute base)
    (relative : ¬ IsAbsolute specifier) : ¬ IsAbsolute (join base specifier) := by
  intro absolute
  rw [join, if_neg (by simpa [IsAbsolute] using relative)] at absolute
  by_cases empty : base = ""
  · rw [empty] at absolute
    exact relative (by simpa using absolute)
  · split at absolute
    · exact base_relative (absolute.of_append empty)
    · rw [String.append_assoc] at absolute
      exact base_relative (absolute.of_append empty)

/-- A path of names ends in a character that is no slash. -/
theorem exists_last_char (nonempty : names ≠ []) (proper : ∀ name ∈ names, IsName name) :
    ∃ init char, (ofSegments names).toList = init ++ [char] ∧ char ≠ '/' := by
  obtain ⟨front, whole⟩ := Text.exists_append_lastPiece '/' (ofSegments names)
  have pieces : Text.split '/' (ofSegments names) = names :=
    Path.segments_ofSegments nonempty proper
  have last_mem : Text.lastPiece '/' (ofSegments names) ∈ Text.split '/' (ofSegments names) := by
    rw [Text.split_eq_append_lastPiece]
    simp
  rw [pieces] at last_mem
  obtain ⟨not_empty, plain, _⟩ := proper _ last_mem
  obtain ⟨init, char, last_eq⟩ := List.eq_nil_or_concat'
    (Text.lastPiece '/' (ofSegments names)).toList |>.resolve_left
      (mt String.toList_eq_nil_iff.mp not_empty)
  refine ⟨front.toList ++ init, char, ?_, ?_⟩
  · rw [← whole, String.toList_append, last_eq, List.append_assoc]
  · rintro rfl
    exact plain (by simp [last_eq])

/-- The directory of a path of names. -/
theorem parent_ofSegments (nonempty : names ≠ []) (proper : ∀ name ∈ names, IsName name) :
    parent (ofSegments names) = ofSegments names.dropLast := by
  simp only [parent, Path.segments_ofSegments nonempty proper]
  split
  next alone => rw [List.isEmpty_iff.mp alone]; rfl
  next several =>
    have front : names.dropLast ≠ [] := by simpa using several
    obtain ⟨init, char, chars_eq, plain⟩ :=
      exists_last_char front fun name present => proper name (List.dropLast_subset _ present)
    have trimmed : ((ofSegments names.dropLast).toList.reverse.dropWhile (· == '/')).reverse
        = (ofSegments names.dropLast).toList := by
      rw [chars_eq]
      simp [plain]
    rw [trimmed, if_neg (by simp [chars_eq]), String.ofList_toList]

/-- The segments of a specifier that is joined to a path of names. -/
theorem segments_join (proper : ∀ name ∈ names, IsName name) (relative : ¬ IsAbsolute specifier) :
    segments (join (ofSegments names) specifier) = names ++ segments specifier := by
  rw [join, if_neg (by simpa [IsAbsolute] using relative)]
  by_cases none : names = []
  · rw [none, if_pos (by decide)]
    exact congrArg segments String.empty_append
  · obtain ⟨init, char, chars_eq, plain⟩ := exists_last_char none proper
    have open_ended : (ofSegments names).isEmpty = false := by
      simp [← String.toList_eq_nil_iff, chars_eq]
    have slashless : Text.endsWith (ofSegments names) "/" = false := by
      rw [Text.endsWith, chars_eq, Bool.eq_false_iff, Ne, List.isSuffixOf_iff_suffix]
      rintro ⟨front, same⟩
      exact plain (by simpa using (List.append_inj' same rfl).2.symm)
    rw [open_ended, slashless, if_neg (by simp), show "/" = String.singleton '/' from rfl, segments,
      Text.split_append]
    exact congrArg (· ++ _) (Path.segments_ofSegments none proper)

/-! ## The way from one file to another -/

/-- The normalised path that a relative specifier in a file means. -/
def joined (fromFile specifier : String) : String :=
  normalize (join (parent fromFile) specifier)

/-- The specifier that leads from the directory of one file to another file: up to the directory
that both are in, and down from there. -/
def relativeSpecifier (fromFile file : String) : String :=
  let (up, down) := Path.dropCommon (segments fromFile).dropLast (segments file)
  ofSegments ((if up.isEmpty then ["."] else up.map fun _ => "..") ++ down)

/-- A path that is joined from segments begins with the first one. -/
theorem exists_ofSegments_cons (first : String) (rest : List String) :
    ∃ tail, ofSegments (first :: rest) = first ++ tail := by
  by_cases alone : rest = []
  · exact ⟨"", by simp [alone, ofSegments]⟩
  · rw [ofSegments, String.intercalate_cons_of_ne_nil alone, String.append_assoc]
    exact ⟨_, rfl⟩

theorem not_isAbsolute_of_isRelative (relative : ModuleResolver.isRelative specifier = true) :
    ¬ IsAbsolute specifier := by
  obtain ⟨rest, rfl⟩ := Text.startsWith_iff.mp relative
  simp [IsAbsolute, Text.startsWith]

/-- Going up from a directory to one above it. -/
theorem foldl_push_up (anchored : Bool) {common up : List String}
    (proper : ∀ name ∈ up, IsName name) :
    (if up.isEmpty then ["."] else up.map fun _ => "..").foldl (pushSegment anchored)
      (common ++ up).reverse = common.reverse := by
  cases up with
  | nil => simp [pushSegment]
  | cons name up =>
      have back := foldl_push_dots anchored common.reverse
        fun other (present : other ∈ (name :: up).reverse) =>
          proper other (List.mem_reverse.mp present)
      rw [List.map_const', List.length_reverse] at back
      rw [List.reverse_append, if_neg (by simp), List.map_const', back]

/-- A specifier that begins with one dot or two is relative. -/
theorem isRelative_ofSegments {steps : List String} (some_step : steps ≠ [])
    (dots : ∀ step ∈ steps, step = "." ∨ step = "..") (names : List String) :
    ModuleResolver.isRelative (ofSegments (steps ++ names)) = true := by
  obtain ⟨step, steps, rfl⟩ := List.exists_cons_of_ne_nil some_step
  obtain ⟨tail, whole⟩ := exists_ofSegments_cons step (steps ++ names)
  refine Text.startsWith_iff.mpr ?_
  rcases dots step List.mem_cons_self with rfl | rfl
  · exact ⟨tail, whole⟩
  · exact ⟨"." ++ tail, by rw [← String.append_assoc]; exact whole⟩

/-- The specifier from one file to another means the other file. -/
theorem joined_relativeSpecifier {fromFile file : String} (here : IsInside fromFile)
    (there : IsInside file) :
    ModuleResolver.isRelative (relativeSpecifier fromFile file) = true ∧
      joined fromFile (relativeSpecifier fromFile file) = file := by
  obtain ⟨start, start_ne, start_proper, rfl⟩ := here.exists_names
  obtain ⟨goal, goal_ne, goal_proper, rfl⟩ := there.exists_names
  have directory_proper : ∀ name ∈ start.dropLast, IsName name :=
    fun name present => start_proper name (List.dropLast_subset _ present)
  simp only [relativeSpecifier, Path.segments_ofSegments start_ne start_proper,
    Path.segments_ofSegments goal_ne goal_proper]
  obtain ⟨common, directory_eq, goal_eq⟩ := Path.exists_common start.dropLast goal
  generalize (Path.dropCommon start.dropLast goal).1 = up at directory_eq
  generalize (Path.dropCommon start.dropLast goal).2 = down at goal_eq
  have up_proper : ∀ name ∈ up, IsName name := fun name present =>
    directory_proper name (directory_eq ▸ List.mem_append_right _ present)
  have down_proper : ∀ name ∈ down, IsName name := fun name present =>
    goal_proper name (goal_eq ▸ List.mem_append_right _ present)
  generalize steps_eq : (if up.isEmpty then ["."] else up.map fun _ => "..") = steps
  have steps_dots : steps ≠ [] ∧ ∀ step ∈ steps, step = "." ∨ step = ".." := by
    rw [← steps_eq]
    cases up <;> simp
  have plain : ∀ piece ∈ steps ++ down, '/' ∉ piece.toList := by
    intro piece present
    rcases List.mem_append.mp present with step | name
    · rcases steps_dots.2 piece step with rfl | rfl <;> decide
    · exact (down_proper piece name).2.1
  have pieces := segments_ofSegments_of_plain (List.append_ne_nil_of_left_ne_nil steps_dots.1 down)
    plain
  have relative := isRelative_ofSegments steps_dots.1 steps_dots.2 down
  refine ⟨relative, ?_⟩
  have specifier_relative := not_isAbsolute_of_isRelative relative
  have segments_eq : segments (join (parent (ofSegments start)) (ofSegments (steps ++ down)))
      = start.dropLast ++ (steps ++ down) := by
    rw [parent_ofSegments start_ne start_proper, segments_join directory_proper specifier_relative,
      pieces]
  have path_relative :
      ¬ IsAbsolute (join (parent (ofSegments start)) (ofSegments (steps ++ down))) :=
    not_isAbsolute_join (not_isAbsolute_parent here.relative) specifier_relative
  have normal_eq : normalSegments (join (parent (ofSegments start)) (ofSegments (steps ++ down)))
      = goal := by
    rw [normalSegments, segments_eq, List.foldl_append, List.foldl_append,
      foldl_push_names _ _ directory_proper, List.append_nil, directory_eq, ← steps_eq,
      foldl_push_up _ up_proper, foldl_push_names _ _ down_proper, List.reverse_append,
      List.reverse_reverse, List.reverse_reverse, goal_eq]
  rw [joined, normalize_of_relative path_relative, normal_eq, if_neg goal_ne]

end PathText

namespace ModuleResolver

open PathText

variable {resolver : ModuleResolver} {path file specifier fromFile : String}

/-- What the index file of a directory is called, without its extension. -/
def indexOf (path : String) : String :=
  if path = "." then "index" else path ++ "/index"

/-- The ways in which a normalised path is completed to the path of a file. -/
inductive Completes (path : String) : String → Prop
  /-- The path is that of the file. -/
  | self : Completes path path
  /-- The extension in JavaScript stands for one in TypeScript. -/
  | counterpart {stem extension replacement : String} (cut : path = stem ++ extension)
      (behind : replacement ∈ counterparts extension) : Completes path (stem ++ replacement)
  /-- The extension is left out. -/
  | extended {extension : String} (probed : extension ∈ probeExtensions) :
      Completes path (path ++ extension)
  /-- The path is that of the directory with the index file. -/
  | index {extension : String} (probed : extension ∈ probeExtensions) :
      Completes path (indexOf path ++ extension)

theorem completes_of_mem_candidates (nonempty : path ≠ "")
    (listed : file ∈ candidates (if path == "." then "" else path)) : Completes path file := by
  by_cases root : path = "."
  · rw [if_pos (by simpa using root), candidates, if_pos (by decide)] at listed
    obtain ⟨extension, probed, rfl⟩ := List.mem_map.mp listed
    have index : Completes path (indexOf path ++ extension) := .index probed
    rwa [indexOf, if_pos root] at index
  · rw [if_neg (by simpa using root), candidates, if_neg (by simpa using nonempty)] at listed
    simp only [List.mem_append, List.mem_singleton, List.mem_map] at listed
    rcases listed with ((rfl | ⟨replacement, behind, rfl⟩) | ⟨extension, probed, rfl⟩)
      | ⟨extension, probed, rfl⟩
    · exact .self
    · exact .counterpart (splitExtension_append path).symm behind
    · exact .extended probed
    · have index : Completes path (indexOf path ++ extension) := .index probed
      rwa [indexOf, if_neg root] at index

theorem normalize_ne_empty (path : String) : normalize path ≠ "" := by
  rw [PathText.normalize]
  split
  · decide
  next something => simpa using something

/-- What is found at a path completes its normalised form, which stays inside of the project. -/
theorem completes_of_probe? (found : resolver.probe? path = some file) :
    leavesRoot (normalize path) = false ∧ Completes (normalize path) file := by
  simp only [probe?] at found
  split at found
  next => cases found
  next stays =>
    have listed := List.mem_of_find?_eq_some (Option.filter_eq_some_iff.mp found).1
    exact ⟨by simpa using stays, completes_of_mem_candidates (normalize_ne_empty path) listed⟩

theorem resolve?_of_isRelative (relative : isRelative specifier = true) :
    resolver.resolve? specifier fromFile
      = resolver.probe? (join (parent fromFile) specifier) := by
  have something : specifier.isEmpty = false := by
    obtain ⟨rest, rfl⟩ := Text.startsWith_iff.mp relative
    simp
  rw [resolve?, something, if_neg (by simp), if_pos relative]

/-- A known file with code is found at its own path before anything else. -/
theorem probe?_eq_some (inside : IsInside file) (normal : normalize path = file)
    (known : file ∈ resolver.files) (code : Syntax.isDeclarationPath file = false) :
    resolver.probe? path = some file := by
  have nonempty : file.isEmpty = false := by
    simpa [← normal] using normalize_ne_empty path
  have first : (candidates file).find? resolver.files.contains = some file := by
    rw [candidates, if_neg (by simp [nonempty])]
    simp [known]
  simp only [probe?, normal, inside.inside]
  rw [if_neg (by simp), if_neg (by simpa using inside.not_root), first]
  simp [Option.filter, code]

/-- What a specifier leads to is a known file with code, and what a relative one leads to completes
the path that it means, which stays inside of the project. In the other direction the relative
specifier from one file to another leads to the other one, as long as it is known and has code,
whatever else is known. -/
theorem resolve?_relative :
    (∀ (resolver : ModuleResolver) (specifier fromFile file : String),
      resolver.resolve? specifier fromFile = some file →
        file ∈ resolver.files ∧ Syntax.isDeclarationPath file = false ∧
          (isRelative specifier = true →
            ".." ∉ segments (joined fromFile specifier) ∧
              (¬ IsAbsolute fromFile → ¬ IsAbsolute (joined fromFile specifier)) ∧
              Completes (joined fromFile specifier) file)) ∧
    ∀ (resolver : ModuleResolver) (fromFile file : String), IsInside fromFile → IsInside file →
      file ∈ resolver.files → Syntax.isDeclarationPath file = false →
        resolver.resolve? (relativeSpecifier fromFile file) fromFile = some file := by
  constructor
  · intro resolver specifier fromFile file found
    refine ⟨mem_files_of_resolve? found, isDeclarationPath_of_resolve? found, fun relative => ?_⟩
    rw [resolve?_of_isRelative relative] at found
    obtain ⟨inside, completes⟩ := completes_of_probe? found
    refine ⟨dots_not_mem_segments_normalize inside, fun file_relative => ?_, completes⟩
    exact not_isAbsolute_normalize (not_isAbsolute_join (not_isAbsolute_parent file_relative)
      (not_isAbsolute_of_isRelative relative))
  · intro resolver fromFile file here there known code
    obtain ⟨relative, means⟩ := joined_relativeSpecifier here there
    rw [resolve?_of_isRelative relative]
    exact probe?_eq_some there means known code

/-- Files of which some could be taken for others. -/
def crowdedFiles : List String :=
  ["src/app/main.ts", "src/lib/api.js", "src/lib/api.ts", "src/lib/api.js.ts",
    "src/lib/api.js/index.ts", "src/lib/types.d.ts"]

/-- In a crowd the way up and down leads to the file with exactly that path, and a specifier that
leaves the extension out is completed. -/
theorem crowdedFiles_resolve :
    let resolver : ModuleResolver := ⟨.absolute ["project"], {}, crowdedFiles⟩
    relativeSpecifier "src/app/main.ts" "src/lib/api.js" = "../lib/api.js" ∧
      resolver.resolve? "../lib/api.js" "src/app/main.ts" = some "src/lib/api.js" ∧
      resolver.resolve? "../lib/api" "src/app/main.ts" = some "src/lib/api.ts" ∧
      Completes "src/lib/api" "src/lib/api.ts" := by
  intro resolver
  have way : relativeSpecifier "src/app/main.ts" "src/lib/api.js" = "../lib/api.js" := by
    decide +kernel
  have here : IsInside "src/app/main.ts" := by constructor <;> decide +kernel
  have there : IsInside "src/lib/api.js" := by constructor <;> decide +kernel
  have led := resolve?_relative.2 resolver _ _ here there (by decide) (by decide +kernel)
  have short : resolver.resolve? "../lib/api" "src/app/main.ts" = some "src/lib/api.ts" := by
    decide +kernel
  obtain ⟨_, _, means⟩ := resolve?_relative.1 resolver _ _ _ short
  obtain ⟨_, _, completes⟩ := means (by decide +kernel)
  have meant : joined "src/app/main.ts" "../lib/api" = "src/lib/api" := by decide +kernel
  exact ⟨way, way ▸ led, short, meant ▸ completes⟩

end ModuleResolver

end CodeGraph
