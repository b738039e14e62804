import CodeGraph.Proofs.Json.Reading
import CodeGraph.Proofs.Model.Canonical
import CodeGraph.Proofs.Text.Pieces
import CodeGraph.Report.Markdown

/-!
# Rows of the table of findings

The Markdown form of a report ends with a table of all findings. A finding makes one line of it that
splits into its four cells as long as its texts keep within the row: the message may hold bars,
which are escaped, but a line feed breaks the row wherever it stands, and so does a bar in the name
of the file.
-/

namespace CodeGraph

/-! ## The order of findings -/

theorem Finding.keyLe_total (left right : String × String × String) :
    (keyLe left right || keyLe right left) = true := by
  by_cases same : left.1 = right.1
  · simpa [keyLe, same] using pairLe_total left.2 right.2
  · simpa [keyLe, same, Ne.symm same] using textLe_total left.1 right.1

theorem Finding.keyLe_trans (left middle right : String × String × String)
    (first : keyLe left middle = true) (second : keyLe middle right = true) :
    keyLe left right = true := by
  by_cases low : left.1 = middle.1 <;> by_cases high : middle.1 = right.1
  · simp only [keyLe, low, high, beq_self_eq_true, ↓reduceIte] at *
    exact pairLe_trans _ _ _ first second
  · simpa [keyLe, low, high] using second
  · have apart : left.1 ≠ right.1 := high ▸ low
    simpa [keyLe, low, high, apart] using first
  · simp only [keyLe, low, high, beq_iff_eq, ↓reduceIte] at first second
    have apart : left.1 ≠ right.1 := fun same =>
      low (textLe_antisymm first (same ▸ second))
    simpa [keyLe, apart] using textLe_trans _ _ _ first second

namespace Report

/-! ## Cutting a row at its bars -/

/-- The stretches of a table row between its bars. A bar right behind a backslash is escaped and
belongs to a cell; `escaped` says that a backslash stands in front. -/
def cutBars : (escaped : Bool) → List Char → List (List Char)
  | _, [] => [[]]
  | escaped, char :: rest =>
      if char = '|' ∧ escaped = false then [] :: cutBars false rest
      else (cutBars (char == '\\') rest).modifyHead (char :: ·)

/-- The stretches of a table row between its bars, an escaped bar standing for a bar. -/
def rowPieces (line : String) : List String :=
  (cutBars false line.toList).map fun piece => Text.replace "\\|" "|" (String.ofList piece)

/-- The line is the table row of these cells: bars stand at both ends and between two cells, and a
space on both sides of each cell. -/
def IsRowOf (cells : List String) (line : String) : Prop :=
  rowPieces line = [""] ++ cells.map (fun cell => " " ++ cell ++ " ") ++ [""]

instance (cells : List String) (line : String) : Decidable (IsRowOf cells line) :=
  inferInstanceAs (Decidable (_ = _))

variable {escaped : Bool} {chars : List Char}

theorem cutBars_ne_nil (escaped : Bool) (chars : List Char) : cutBars escaped chars ≠ [] := by
  induction chars generalizing escaped with
  | nil => simp [cutBars]
  | cons char rest ih =>
      rw [cutBars]
      split
      · simp
      · simpa using ih (char == '\\')

/-- A bar behind a space cuts the row in two. -/
theorem cutBars_append (escaped : Bool) (front back : List Char) :
    cutBars escaped (front ++ ' ' :: '|' :: back)
      = cutBars escaped (front ++ [' ']) ++ cutBars false back := by
  induction front generalizing escaped with
  | nil => simp [cutBars]
  | cons char front ih =>
      rw [List.cons_append, List.cons_append, cutBars, cutBars]
      split
      · rw [ih, List.cons_append]
      · obtain ⟨piece, pieces, cut⟩ :=
          List.exists_cons_of_ne_nil (cutBars_ne_nil (char == '\\') (front ++ [' ']))
        rw [ih, cut]
        rfl

theorem cutBars_of_not_mem (absent : '|' ∉ chars) : cutBars escaped chars = [chars] := by
  induction chars generalizing escaped with
  | nil => rfl
  | cons char rest ih =>
      rw [List.mem_cons, not_or] at absent
      rw [cutBars, if_neg (fun bar => absent.1 bar.1.symm), ih absent.2]
      rfl

/-- A stretch that is not cut is the whole. -/
theorem eq_of_cutBars_eq {piece : List Char} (uncut : cutBars escaped chars = [piece]) :
    piece = chars := by
  induction chars generalizing escaped piece with
  | nil => exact (List.cons.inj uncut).1.symm
  | cons char rest ih =>
      obtain ⟨first, others, cut⟩ :=
        List.exists_cons_of_ne_nil (cutBars_ne_nil (char == '\\') rest)
      rw [cutBars] at uncut
      split at uncut
      next => exact absurd (List.cons.inj uncut).2 (cutBars_ne_nil false rest)
      next =>
        rw [cut] at uncut
        obtain ⟨rfl, rfl⟩ := List.cons.inj uncut
        rw [ih cut]

/-! ## Escaped bars -/

/-- A character as it stands in a cell. -/
def cellChars (char : Char) : List Char :=
  if char = '|' then ['\\', '|'] else [char]

theorem toList_escapeCell (text : String) :
    (escapeCell text).toList = text.toList.flatMap cellChars := by
  have each : ∀ chars : List Char,
      Text.replaceFrom ['|'] ['\\', '|'] 0 chars = chars.flatMap cellChars := by
    intro chars
    induction chars with
    | nil => rfl
    | cons char rest ih =>
        rw [Text.replaceFrom, List.flatMap_cons, cellChars, ← ih]
        by_cases bar : char = '|'
        · simp [bar]
        · simp [bar, Ne.symm bar]
  rw [escapeCell, Text.replace, String.toList_ofList]
  exact each text.toList

/-- No bar of an escaped text cuts the row. -/
theorem cutBars_flatMap_cellChars (chars : List Char) (escaped : Bool) :
    cutBars escaped (chars.flatMap cellChars ++ [' ']) = [chars.flatMap cellChars ++ [' ']] := by
  induction chars generalizing escaped with
  | nil => simp [cutBars]
  | cons char rest ih =>
      rw [List.flatMap_cons, List.append_assoc, cellChars]
      split
      · simp [cutBars, ih]
      next other => simp [cutBars, other, ih]

/-- Escaped bars of a list of characters stand for bars. -/
def withBars (chars : List Char) : List Char :=
  Text.replaceFrom ['\\', '|'] ['|'] 0 chars

theorem withBars_escaped (rest : List Char) :
    withBars ('\\' :: '|' :: rest) = '|' :: withBars rest := rfl

theorem withBars_cons {char : Char} {rest : List Char}
    (plain : ¬ (char = '\\' ∧ rest.head? = some '|')) :
    withBars (char :: rest) = char :: withBars rest := by
  rw [withBars, Text.replaceFrom, if_neg]
  · rfl
  · intro start
    obtain ⟨more, opens⟩ := List.isPrefixOf_iff_prefix.mp start
    obtain ⟨rfl, rfl⟩ := List.cons.inj opens
    exact plain ⟨rfl, rfl⟩

theorem withBars_of_not_mem (absent : '|' ∉ chars) : withBars chars = chars := by
  induction chars with
  | nil => rfl
  | cons char rest ih =>
      rw [List.mem_cons, not_or] at absent
      rw [withBars_cons fun escape => absent.2 (List.mem_of_mem_head? escape.2), ih absent.2]

/-- Escaping a text for a cell is undone. -/
theorem withBars_flatMap_cellChars (chars : List Char) :
    withBars (chars.flatMap cellChars ++ [' ']) = chars ++ [' '] := by
  induction chars with
  | nil => rfl
  | cons char rest ih =>
      have head : (rest.flatMap cellChars ++ [' ']).head? ≠ some '|' := by
        cases rest with
        | nil => decide
        | cons next rest =>
            rw [List.flatMap_cons, cellChars]
            split
            · simp
            next other => simpa using other
      rw [List.flatMap_cons, List.append_assoc, cellChars]
      split
      next bar => rw [List.cons_append, List.singleton_append, withBars_escaped, ih, bar]; rfl
      next => rw [List.singleton_append, withBars_cons fun escape => head escape.2, ih]; rfl

/-- A stretch that is not cut and stands for itself holds no bar, unless it begins with one behind a
backslash. -/
theorem head?_eq_bar (uncut : cutBars escaped chars = [chars]) (plain : withBars chars = chars)
    (present : '|' ∈ chars) : escaped = true ∧ chars.head? = some '|' := by
  induction chars generalizing escaped with
  | nil => exact nomatch present
  | cons char rest ih =>
      rw [cutBars] at uncut
      split at uncut
      next => exact nomatch uncut
      next kept =>
        by_cases bar : char = '|'
        · exact ⟨by simpa [bar] using kept, by rw [bar]; rfl⟩
        · obtain ⟨piece, pieces, cut⟩ :=
            List.exists_cons_of_ne_nil (cutBars_ne_nil (char == '\\') rest)
          rw [cut] at uncut
          obtain ⟨_, rfl⟩ := List.cons.inj uncut
          rw [eq_of_cutBars_eq cut] at cut
          have present : '|' ∈ rest := (List.mem_cons.mp present).resolve_left (Ne.symm bar)
          -- The bar behind this character would be escaped by it, but then it would not stand for
          -- itself.
          have unescaped : ¬ (char = '\\' ∧ rest.head? = some '|') := by
            rintro ⟨rfl, head⟩
            obtain ⟨more, rfl⟩ := List.head?_eq_some_iff.mp head
            rw [withBars_escaped] at plain
            exact absurd (List.cons.inj plain).1 (by decide)
          rw [withBars_cons unescaped] at plain
          obtain ⟨escape, head⟩ := ih cut (List.cons.inj plain).2 present
          exact absurd ⟨by simpa using escape, head⟩ unescaped

/-! ## The row of a finding -/

/-- The characters of a cell with the spaces around it. -/
def padded (cell : String) : List Char :=
  ' ' :: cell.toList ++ [' ']

/-- What it takes to be a row, character by character. -/
theorem isRowOf_iff {cells : List String} {line : String} :
    IsRowOf cells line ↔
      (cutBars false line.toList).map withBars = [[]] ++ cells.map padded ++ [[]] := by
  have read : rowPieces line = ((cutBars false line.toList).map withBars).map String.ofList := by
    rw [rowPieces, List.map_map]
    refine List.map_congr_left fun piece _ => ?_
    exact congrArg (fun chars => String.ofList (withBars chars)) String.toList_ofList
  have spaced : [""] ++ cells.map (fun cell => " " ++ cell ++ " ") ++ [""]
      = ([[]] ++ cells.map padded ++ [[]]).map String.ofList := by
    have each (cell : String) : " " ++ cell ++ " " = String.ofList (padded cell) := by
      simp [← String.toList_inj, padded, String.toList_append]
    simp [each]
  rw [IsRowOf, read, spaced, List.map_inj_right fun _ _ => String.ofList_inj.mp]

/-- A row is cut at the bars that it is made with, and inside of cells. -/
theorem cutBars_row {cells : List String} (nonempty : cells ≠ []) :
    cutBars false (row cells).toList
      = [[]] ++ cells.flatMap (fun cell => cutBars false (padded cell)) ++ [[]] := by
  have inner : cutBars false (' ' :: (String.intercalate " | " cells).toList ++ [' ', '|'])
      = cells.flatMap (fun cell => cutBars false (padded cell)) ++ [[]] := by
    induction cells with
    | nil => exact absurd rfl nonempty
    | cons cell others ih =>
        cases others with
        | nil => simpa [padded, cutBars] using cutBars_append false (' ' :: cell.toList) []
        | cons next others =>
            have cut := cutBars_append false (' ' :: cell.toList)
              (' ' :: (String.intercalate " | " (next :: others)).toList ++ [' ', '|'])
            rw [ih (by simp)] at cut
            rw [String.intercalate_cons_of_ne_nil (by simp), List.flatMap_cons, List.append_assoc]
            simpa [padded, String.toList_append] using cut
  have chars : (row cells).toList
      = '|' :: (' ' :: (String.intercalate " | " cells).toList ++ [' ', '|']) := by
    simp [row, String.toList_append]
  rw [chars, cutBars, if_pos ⟨rfl, rfl⟩, inner]
  rfl

end Report

namespace Finding

/-- The cells of a finding's row. -/
def cells (finding : Finding) : List String :=
  [finding.severity.label, finding.kind.label, finding.placeText, finding.message]

/-- The texts of the finding keep within one row of the table: no line feed in the message or in the
name of the file, and no bar in the name of the file. -/
structure FitsRow (finding : Finding) : Prop where
  message_line : '\n' ∉ finding.message.toList
  file_line : ∀ place ∈ finding.place, '\n' ∉ place.file.toList
  file_bar : ∀ place ∈ finding.place, '|' ∉ place.file.toList

variable {finding : Finding}

/-- The text of a place has the characters of the file's name beside those of a number. -/
theorem mem_placeText_iff {char : Char} (no_digit : char.isDigit = false) (no_sign : char ≠ '-')
    (no_colon : char ≠ ':') :
    char ∈ finding.placeText.toList ↔ ∃ place ∈ finding.place, char ∈ place.file.toList := by
  have no_number : ∀ line : Int, char ∉ (toString line).toList := by
    intro line present
    have digit (value : Nat) : char ∉ Nat.toDigits 10 value := fun present => by
      have := Json.isDigit_of_toDigits value present
      simp [no_digit] at this
    cases line with
    | ofNat value => exact digit value (Json.toList_toString_natCast value ▸ present)
    | negSucc value =>
        rw [Json.toList_toString_negSucc] at present
        exact (List.mem_cons.mp present).elim no_sign (digit (value + 1))
  rw [placeText]
  cases finding.place with
  | none => simp
  | some place =>
      simp only [Option.map_some, Option.getD_some, Option.mem_def, Option.some.injEq,
        exists_eq_left', FindingPlace.text]
      split
      next line _ =>
        split
        · rfl
        · rw [String.toList_append, String.toList_append, List.mem_append, List.mem_append,
            or_iff_left (no_number line), or_iff_left]
          exact fun colon => no_colon (List.mem_singleton.mp colon)
      next => rfl

theorem bar_not_mem_label (finding : Finding) :
    '|' ∉ finding.severity.label.toList ∧ '|' ∉ finding.kind.label.toList := by
  constructor
  · cases finding.severity <;> decide
  · cases finding.kind <;> decide

end Finding

namespace Report

open Finding

variable {finding : Finding} {report : Report}

/-- The row of a finding splits into its cells exactly if there is no bar in its place. -/
theorem isRowOf_findingRow :
    IsRowOf finding.cells (findingRow finding) ↔ '|' ∉ finding.placeText.toList := by
  obtain ⟨severity_plain, kind_plain⟩ := bar_not_mem_label finding
  have whole (cell : String) (absent : '|' ∉ cell.toList) :
      cutBars false (padded cell) = [padded cell] ∧ withBars (padded cell) = padded cell := by
    have absent : '|' ∉ padded cell := by simpa [padded] using absent
    exact ⟨cutBars_of_not_mem absent, withBars_of_not_mem absent⟩
  have message_cut : cutBars false (padded (escapeCell finding.message))
      = [padded (escapeCell finding.message)] := by
    have uncut := cutBars_flatMap_cellChars (' ' :: finding.message.toList) false
    simpa [padded, toList_escapeCell, cellChars] using uncut
  have message_read : withBars (padded (escapeCell finding.message))
      = padded finding.message := by
    have undone := withBars_flatMap_cellChars (' ' :: finding.message.toList)
    simpa [padded, toList_escapeCell, cellChars] using undone
  have pieces : (cutBars false (findingRow finding).toList).map withBars
      = [[], padded finding.severity.label, padded finding.kind.label]
        ++ (cutBars false (padded finding.placeText)).map withBars
        ++ [padded finding.message, []] := by
    rw [findingRow, cutBars_row (by simp)]
    simp [whole _ severity_plain, whole _ kind_plain, message_cut, message_read]
    rfl
  rw [isRowOf_iff, pieces]
  constructor
  · intro read present
    have read : (cutBars false (padded finding.placeText)).map withBars
        = [padded finding.placeText] := by
      have front : [[], padded finding.severity.label, padded finding.kind.label]
          ++ (cutBars false (padded finding.placeText)).map withBars
        = [[], padded finding.severity.label, padded finding.kind.label]
          ++ [padded finding.placeText] := List.append_cancel_right read
      exact List.append_cancel_left front
    obtain ⟨piece, cut, stands⟩ := List.map_eq_singleton_iff.mp read
    obtain rfl := eq_of_cutBars_eq cut
    have held : '|' ∈ padded finding.placeText := by simp [padded, present]
    exact absurd (head?_eq_bar cut stands held).1 (by decide)
  · intro absent
    rw [(whole _ absent).1, List.map_singleton, (whole _ absent).2]
    rfl

/-! ## The lines of the table -/

theorem mem_flatMap_cellChars (char : Char) (no_bar : char ≠ '|') (no_escape : char ≠ '\\')
    (chars : List Char) : char ∈ chars.flatMap cellChars ↔ char ∈ chars := by
  induction chars with
  | nil => rfl
  | cons first rest ih =>
      rw [List.flatMap_cons, List.mem_append, ih, List.mem_cons, cellChars]
      split
      next bar => simp [no_bar, no_escape, bar]
      next => simp

/-- A row holds a line feed exactly if the place or the message does. -/
theorem lineFeed_mem_findingRow :
    '\n' ∈ (findingRow finding).toList ↔
      '\n' ∈ finding.placeText.toList ∨ '\n' ∈ finding.message.toList := by
  have severity_plain : '\n' ∉ finding.severity.label.toList := by
    cases finding.severity <;> decide
  have kind_plain : '\n' ∉ finding.kind.label.toList := by
    cases finding.kind <;> decide
  have escaped := mem_flatMap_cellChars '\n' (by decide) (by decide) finding.message.toList
  rw [← toList_escapeCell] at escaped
  simp [findingRow, row, String.toList_append, severity_plain, kind_plain, escaped]

/-- A finding makes one line that splits into its cells exactly if its texts fit into a row. -/
theorem exists_line_iff :
    (∃ line, Text.split '\n' (findingRow finding) = [line] ∧ IsRowOf finding.cells line) ↔
      finding.FitsRow := by
  have lineFeed : '\n' ∈ finding.placeText.toList ↔
      ∃ place ∈ finding.place, '\n' ∈ place.file.toList :=
    mem_placeText_iff rfl (by decide) (by decide)
  have bar : '|' ∈ finding.placeText.toList ↔
      ∃ place ∈ finding.place, '|' ∈ place.file.toList :=
    mem_placeText_iff rfl (by decide) (by decide)
  constructor
  · rintro ⟨line, alone, is_row⟩
    obtain rfl : line = findingRow finding := by
      rw [← Text.intercalate_split '\n' (findingRow finding), alone]
      rfl
    have one_line : '\n' ∉ (findingRow finding).toList :=
      Text.not_mem_of_mem_split '\n' (alone ▸ List.mem_singleton_self _)
    rw [lineFeed_mem_findingRow, not_or, lineFeed] at one_line
    rw [isRowOf_findingRow, bar] at is_row
    exact
      { message_line := one_line.2
        file_line := fun place present held => one_line.1 ⟨place, present, held⟩
        file_bar := fun place present held => is_row ⟨place, present, held⟩ }
  · intro fits
    refine ⟨findingRow finding, Text.split_eq_singleton '\n' ?_, isRowOf_findingRow.mpr ?_⟩
    · rw [lineFeed_mem_findingRow, lineFeed]
      rintro (⟨place, present, held⟩ | held)
      · exact fits.file_line place present held
      · exact fits.message_line held
    · rw [bar]
      rintro ⟨place, present, held⟩
      exact fits.file_bar place present held

/-- Where every item has a list that is not empty, these lists put together match the items one by
one exactly if each of them is a single match of its item. -/
theorem forall₂_flatMap_iff {α β : Type} {related : β → α → Prop} {lines : α → List β}
    (nonempty : ∀ item, lines item ≠ []) {items : List α} :
    List.Forall₂ related (items.flatMap lines) items ↔
      ∀ item ∈ items, ∃ line, lines item = [line] ∧ related line item := by
  have at_least : ∀ items : List α, items.length ≤ (items.flatMap lines).length := by
    intro items
    induction items with
    | nil => exact Nat.le_refl _
    | cons item items ih =>
        have first := List.length_pos_of_ne_nil (nonempty item)
        rw [List.flatMap_cons, List.length_append, List.length_cons]
        omega
  induction items with
  | nil => simp
  | cons item items ih =>
      rw [List.forall_mem_cons, List.flatMap_cons]
      constructor
      · intro matched
        have lengths := matched.length_eq
        rw [List.length_append, List.length_cons] at lengths
        have first := List.length_pos_of_ne_nil (nonempty item)
        have others := at_least items
        obtain ⟨line, alone⟩ := List.length_eq_one_iff.mp (by omega : (lines item).length = 1)
        rw [alone, List.singleton_append, List.forall₂_cons] at matched
        exact ⟨⟨line, alone, matched.1⟩, ih.mp matched.2⟩
      · rintro ⟨⟨line, alone, here⟩, later⟩
        rw [alone, List.singleton_append]
        exact .cons here (ih.mpr later)

/-- The heading of the table of all findings with its two header lines. -/
def findingsHeading : List String :=
  ["## All findings", "", "| Severity | Kind | Location | Message |", "|---|---|---|---|"]

/-- The lines that findings make in the table, in the order of the table. -/
def tableLines (findings : List Finding) : List String :=
  (Finding.sorted findings).flatMap fun finding => Text.split '\n' (findingRow finding)

theorem exists_split_toMarkdown (found : report.findings ≠ []) :
    ∃ front, Text.split '\n' report.toMarkdown
      = front ++ findingsHeading ++ tableLines report.findings ++ [""] := by
  obtain ⟨front, whole⟩ : ∃ front, report.markdownLines = front ++ findingLines report.findings :=
    ⟨_, rfl⟩
  have section_lines : (findingLines report.findings).flatMap (Text.split '\n')
      = findingsHeading ++ tableLines report.findings ++ [""] := by
    have heading : findingsHeading.flatMap (Text.split '\n') = findingsHeading := by decide
    have listed : report.findings.isEmpty = false := by simpa using found
    simp only [findingLines, listed, Bool.false_eq_true, if_false, List.flatMap_append]
    rw [← findingsHeading, heading, tableLines, List.flatMap_map]
    rfl
  have nonempty : report.markdownLines ≠ [] := by simp [markdownLines]
  refine ⟨front.flatMap (Text.split '\n'), ?_⟩
  have cut := Text.split_intercalate '\n' nonempty
  rw [whole, List.flatMap_append, section_lines] at cut
  rw [toMarkdown, whole, List.append_assoc, List.append_assoc, ← List.append_assoc findingsHeading]
  exact cut

/-- The table of all findings ends the Markdown form of a report. Below its header each finding
makes its lines, in the order in which findings are sorted, and an empty line is the last one. There
is one line for each finding, and this line splits into the finding's four cells, exactly as long as
the texts of all findings fit into rows. -/
theorem toMarkdown_lists_findings (found : report.findings ≠ []) :
    (∃ front, Text.split '\n' report.toMarkdown
        = front ++ findingsHeading ++ tableLines report.findings ++ [""]) ∧
      (Finding.sorted report.findings).Perm report.findings ∧
      (Finding.sorted report.findings).Pairwise (fun earlier later =>
        keyLe earlier.sortKey later.sortKey = true) ∧
      (List.Forall₂ (fun line finding => IsRowOf finding.cells line)
          (tableLines report.findings) (Finding.sorted report.findings) ↔
        ∀ finding ∈ report.findings, finding.FitsRow) := by
  refine ⟨exists_split_toMarkdown found, sortOn_perm keyLe sortKey report.findings,
    pairwise_sortOn keyLe sortKey keyLe_trans keyLe_total report.findings, ?_⟩
  rw [tableLines, forall₂_flatMap_iff fun finding => Text.split_ne_nil '\n' (findingRow finding)]
  simp only [exists_line_iff, Finding.sorted, mem_sortOn]

/-- A report with a single finding. -/
def oneFinding (file message : String) : Report where
  tool := ⟨"frontend-ir", "0.1.0"⟩
  projectRoot := "/project"
  startedAt := ""
  finishedAt := ""
  filesScanned := 1
  filesProcessed := 1
  classifiersByKind := []
  relationsByKind := []
  findings := [Finding.atLine .note message file 3 []]

/-- Bars and backslashes in a message stay within its cell, while a bar in the name of a file makes
one more cell, and a line feed in a message makes one more line. -/
theorem toMarkdown_oneFinding :
    List.Forall₂ (fun line finding => IsRowOf finding.cells line)
        (tableLines (oneFinding "a.ts" "left \\| right \\").findings)
        (Finding.sorted (oneFinding "a.ts" "left \\| right \\").findings) ∧
      tableLines (oneFinding "a|b.ts" "remark").findings
        = ["| warning | note | a|b.ts:3 | remark |"] ∧
      ¬ List.Forall₂ (fun line finding => IsRowOf finding.cells line)
        (tableLines (oneFinding "a|b.ts" "remark").findings)
        (Finding.sorted (oneFinding "a|b.ts" "remark").findings) ∧
      tableLines (oneFinding "a.ts" "two\nlines").findings
        = ["| warning | note | a.ts:3 | two", "lines |"] := by
  have found (file message : String) : (oneFinding file message).findings ≠ [] := nofun
  refine ⟨?_, by decide +kernel, fun told => ?_, by decide +kernel⟩
  · refine (toMarkdown_lists_findings (found "a.ts" "left \\| right \\")).2.2.2.mpr ?_
    refine List.forall_mem_singleton.mpr ⟨by decide, ?_, ?_⟩
    · rintro place ⟨⟩
      decide
    · rintro place ⟨⟩
      decide
  · have fits := (toMarkdown_lists_findings (found "a|b.ts" "remark")).2.2.2.mp told
    exact (fits _ List.mem_cons_self).file_bar _ rfl (by decide)

end Report

end CodeGraph
