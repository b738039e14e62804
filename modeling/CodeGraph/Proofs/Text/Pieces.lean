import CodeGraph.Text.Pieces

/-!
# Cutting and joining

Cutting a text at a separator and joining the pieces again are inverse to each other. A text that
is joined from pieces with separators inside is cut into the pieces of the pieces.
-/

namespace CodeGraph.Text

theorem cut_eq_splitOnP (stop : Char → Bool) (chars : List Char) :
    cut stop chars = chars.splitOnP stop := by
  induction chars with
  | nil => simp
  | cons char rest ih =>
      rw [cut, List.splitOnP_cons_eq_if_modifyHead, ih]
      split
      · rfl
      · cases pieces : rest.splitOnP stop with
        | nil => exact absurd pieces (List.splitOnP_ne_nil stop rest)
        | cons piece others => rfl

variable (separator : Char)

theorem split_eq_splitOn (text : String) :
    split separator text = (text.toList.splitOn separator).map String.ofList := by
  rw [split, cut_eq_splitOnP, List.splitOn_eq_splitOnP]

theorem split_ne_nil (text : String) : split separator text ≠ [] := by
  simp [split_eq_splitOn]

/-- A text without separators is its only piece. -/
theorem split_eq_singleton {text : String} (plain : separator ∉ text.toList) :
    split separator text = [text] := by
  simp [split_eq_splitOn, List.splitOn_eq_singleton plain]

/-- The pieces on both sides of a separator are the pieces of the whole. -/
theorem split_append (before after : String) :
    split separator (before ++ String.singleton separator ++ after)
      = split separator before ++ split separator after := by
  have joined : (before ++ String.singleton separator ++ after).toList
      = before.toList ++ separator :: after.toList := by
    simp
  rw [split_eq_splitOn, joined, List.splitOn_append_cons_self, List.map_append,
    ← split_eq_splitOn, ← split_eq_splitOn]

/-- A text joined from pieces is cut into the pieces of its pieces. -/
theorem split_intercalate {pieces : List String} (nonempty : pieces ≠ []) :
    split separator (String.intercalate (String.singleton separator) pieces)
      = pieces.flatMap (split separator) := by
  induction pieces with
  | nil => exact absurd rfl nonempty
  | cons piece others ih =>
      cases others with
      | nil => simp
      | cons next others =>
          rw [String.intercalate_cons_of_ne_nil (by simp), split_append, ih (by simp)]
          simp only [List.flatMap_cons]

/-- Joining the pieces of a text gives it back. -/
theorem intercalate_split (text : String) :
    String.intercalate (String.singleton separator) (split separator text) = text := by
  refine String.toList_inj.mp ?_
  rw [String.toList_intercalate, String.toList_singleton, split_eq_splitOn, List.map_map]
  simp [Function.comp_def, List.intercalate_splitOn]

/-- A text is determined by its pieces. -/
theorem split_inj {first second : String} :
    split separator first = split separator second ↔ first = second := by
  refine ⟨fun same => ?_, fun same => same ▸ rfl⟩
  rw [← intercalate_split separator first, same, intercalate_split]

/-- No piece holds a separator. -/
theorem not_mem_of_mem_split {piece text : String} (present : piece ∈ split separator text) :
    separator ∉ piece.toList := by
  have plain : ∀ (chars : List Char), ∀ part ∈ cut (· == separator) chars, separator ∉ part := by
    intro chars
    induction chars with
    | nil => simp
    | cons char rest ih =>
        intro part part_mem
        rw [cut] at part_mem
        split at part_mem
        next => exact (List.mem_cons.mp part_mem).elim (fun same => by simp [same]) (ih part)
        next other =>
          have ne : separator ≠ char := fun same => other (by simp [same])
          split at part_mem
          next none => exact absurd none (cut_ne_nil _ rest)
          next first others pieces =>
            rw [pieces] at ih
            rcases List.mem_cons.mp part_mem with rfl | later
            · exact List.not_mem_cons_of_ne_of_not_mem ne (ih first List.mem_cons_self)
            · exact ih part (List.mem_cons_of_mem first later)
  obtain ⟨part, part_mem, rfl⟩ := List.mem_map.mp present
  simpa using plain _ part part_mem

/-- Pieces without separators are the pieces of the text that is joined from them. -/
theorem split_intercalate_of_plain {pieces : List String} (nonempty : pieces ≠ [])
    (plain : ∀ piece ∈ pieces, separator ∉ piece.toList) :
    split separator (String.intercalate (String.singleton separator) pieces) = pieces := by
  rw [split_intercalate separator nonempty, List.flatMap_def,
    List.map_congr_left fun piece present => split_eq_singleton separator (plain piece present),
    ← List.flatMap_def, List.flatMap_singleton']

theorem split_eq_append_lastPiece (text : String) :
    split separator text = (split separator text).dropLast ++ [lastPiece separator text] := by
  have nonempty := split_ne_nil separator text
  rw [lastPiece, List.getLastD_eq_getLast?, List.getLast?_eq_some_getLast nonempty,
    Option.getD_some, List.dropLast_concat_getLast]

/-- A text with a separator is what stands before and behind the last one. -/
theorem beforeLast_append_lastPiece {text : String} (several : beforeLast separator text ≠ "") :
    beforeLast separator text ++ String.singleton separator ++ lastPiece separator text = text := by
  have front : (split separator text).dropLast ≠ [] := by
    intro none
    exact several (by rw [beforeLast, none, String.intercalate_nil])
  have whole := intercalate_split separator text
  rwa [split_eq_append_lastPiece, String.intercalate_append_of_ne_nil front (by simp),
    String.intercalate_singleton] at whole

/-- The last piece ends a text. -/
theorem exists_append_lastPiece (text : String) :
    ∃ front, front ++ lastPiece separator text = text := by
  have whole := intercalate_split separator text
  by_cases front : (split separator text).dropLast = []
  · rw [split_eq_append_lastPiece, front, List.nil_append, String.intercalate_singleton] at whole
    exact ⟨"", by simpa using whole⟩
  · rw [split_eq_append_lastPiece, String.intercalate_append_of_ne_nil front (by simp),
      String.intercalate_singleton] at whole
    exact ⟨_, whole⟩

/-- Replacing a separator joins the pieces with another text. -/
theorem replace_singleton (new text : String) :
    replace (String.singleton separator) new text
      = String.intercalate new (split separator text) := by
  have each : ∀ chars : List Char, replaceFrom [separator] new.toList 0 chars
      = new.toList.intercalate (cut (· == separator) chars) := by
    intro chars
    induction chars with
    | nil => simp [replaceFrom, cut]
    | cons char rest ih =>
        have nonempty := cut_ne_nil (· == separator) rest
        rw [cut]
        by_cases here : char = separator
        · rw [replaceFrom, if_pos (by simp [here]), if_pos (by simp [here]),
            List.intercalate_cons_of_ne_nil nonempty, ← ih]
          rfl
        · rw [replaceFrom, if_neg (by simpa using Ne.symm here), if_neg (by simpa using here), ih]
          cases pieces : cut (· == separator) rest with
          | nil => exact absurd pieces nonempty
          | cons piece others => cases others <;> simp [List.intercalate_cons_cons]
  refine String.toList_inj.mp ?_
  rw [replace, String.toList_ofList, String.toList_singleton, each, String.toList_intercalate,
    split]
  simp [Function.comp_def]

/-! ## Beginnings -/

theorem startsWith_iff {text start : String} :
    startsWith text start = true ↔ ∃ rest, text = start ++ rest := by
  rw [startsWith, List.isPrefixOf_iff_prefix]
  constructor
  · rintro ⟨rest, whole⟩
    refine ⟨String.ofList rest, String.toList_inj.mp ?_⟩
    rw [String.toList_append, String.toList_ofList, whole]
  · rintro ⟨rest, rfl⟩
    exact ⟨rest.toList, String.toList_append.symm⟩

/-- A text begins with a piece and a separator exactly if this is the first of several pieces. -/
theorem startsWith_piece_iff {text piece : String} (plain : separator ∉ piece.toList) :
    startsWith text (piece ++ String.singleton separator) = true ↔
      ∃ rest, rest ≠ [] ∧ split separator text = piece :: rest := by
  rw [startsWith_iff]
  constructor
  · rintro ⟨rest, rfl⟩
    refine ⟨split separator rest, split_ne_nil separator rest, ?_⟩
    rw [split_append, split_eq_singleton separator plain, List.singleton_append]
  · rintro ⟨rest, nonempty, pieces⟩
    refine ⟨String.intercalate (String.singleton separator) rest, ?_⟩
    rw [← intercalate_split separator text, pieces, String.intercalate_cons_of_ne_nil nonempty]

end CodeGraph.Text
