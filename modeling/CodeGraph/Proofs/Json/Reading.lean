import CodeGraph.Json.Printer
import CodeGraph.Proofs.Json.Tokens
import Mathlib.Data.List.Basic
import Mathlib.Tactic.SplitIfs

/-!
# The stable layout is read back

A value without numbers that have a point or an exponent, whose objects name each member once, is
read back from its stable layout, its members sorted by name. The reader is followed through the
layout in the order in which the layout is written: the characters of a string, the digits of a
number, the items between brackets. What follows a value decides where a number ends, so the
statements are about a layout with something behind it.
-/

namespace CodeGraph

namespace Json

-- Reader and printer are followed one token at a time, so `simp` opens them on what comes next.
attribute [local simp] readString readNumber readScalar readValue renderAt

/-! ## String literals -/

theorem unit?_of_control {code : Nat} (control : code < 0x20) :
    unit? '0' '0' (Digest.hexDigit (code / 16)) (Digest.hexDigit (code % 16)) = some code := by
  have all : ∀ code < 0x20,
      unit? '0' '0' (Digest.hexDigit (code / 16)) (Digest.hexDigit (code % 16)) = some code := by
    decide
  exact all code control

/-- A one-letter escape is read as what it stands for. -/
theorem readString_letter {letter char : Char} (named : escaped? letter = some char)
    (rest : List Char) :
    readString none ('\\' :: letter :: rest)
      = (readString none rest).map fun (chars, left) => (char :: chars, left) := by
  have no_unit : letter ≠ 'u' := by
    rintro rfl
    simp [escaped?] at named
  simp [no_unit, named]

/-- A control character that is spelled by its code is read back. -/
theorem readString_control {char : Char} (control : char.toNat < 0x20) (rest : List Char) :
    readString none
        (['\\', 'u', '0', '0', Digest.hexDigit (char.toNat / 16),
          Digest.hexDigit (char.toNat % 16)] ++ rest)
      = (readString none rest).map fun (chars, left) => (char :: chars, left) := by
  have no_surrogate : ¬ (0xD800 ≤ char.toNat) := by omega
  have unit_char : Text.charOfUnit char.toNat = char := by
    simp [Text.charOfUnit, Text.isSurrogateUnit, no_surrogate]
  simp [unit?_of_control control, no_surrogate, unit_char]

/-- An escaped character is read back. -/
theorem readString_escapeChar (char : Char) (rest : List Char) :
    readString none (escapeChar char ++ rest)
      = (readString none rest).map fun (chars, left) => (char :: chars, left) := by
  simp only [escapeChar, beq_iff_eq]
  split_ifs with quote slash lineFeed return_ tab formFeed backspace control
  · subst quote
    exact readString_letter (by decide) rest
  · subst slash
    exact readString_letter (by decide) rest
  · exact lineFeed ▸ readString_letter (by decide) rest
  · exact return_ ▸ readString_letter (by decide) rest
  · exact tab ▸ readString_letter (by decide) rest
  · exact formFeed ▸ readString_letter (by decide) rest
  · exact backspace ▸ readString_letter (by decide) rest
  · exact readString_control control rest
  · simp [quote, slash, control]

/-- The inside of a string literal is read back up to the closing quote. -/
theorem readString_flatMap_escapeChar (chars rest : List Char) :
    readString none (chars.flatMap escapeChar ++ '\x22' :: rest) = some (chars, rest) := by
  induction chars with
  | nil => simp
  | cons char chars ih =>
      rw [List.flatMap_cons, List.append_assoc, readString_escapeChar, ih]
      rfl

/-! ## Numbers -/

/-- What follows a value in a layout: a comma or the end of the line. -/
def Separates (rest : List Char) : Prop :=
  ∃ char tail, rest = char :: tail ∧ (char = ',' ∨ char = '\n')

theorem digitsValue_toDigits (value : Nat) : digitsValue (Nat.toDigits 10 value) = value := by
  have digit_value : ∀ digit < 10, (Nat.digitChar digit).toNat - 0x30 = digit := by decide
  induction value using Nat.strongRecOn with
  | ind value ih =>
      rw [Nat.toDigits_eq_if (by decide)]
      split
      next small => simp [digitsValue, digit_value value small]
      next large =>
        have front := ih (value / 10) (by omega)
        rw [digitsValue] at front ⊢
        rw [List.foldl_append, front, List.foldl_cons, List.foldl_nil, digit_value _ (by omega)]
        omega

/-- A number is not spelled with a zero in front of another digit. -/
theorem toDigits_eq_cons (value : Nat) :
    ∃ first more, Nat.toDigits 10 value = first :: more ∧ (first = '0' → more = []) := by
  induction value using Nat.strongRecOn with
  | ind value ih =>
      rw [Nat.toDigits_eq_if (by decide)]
      split
      next small => exact ⟨_, _, rfl, fun _ => rfl⟩
      next large =>
        obtain ⟨first, more, front, lone⟩ := ih (value / 10) (by omega)
        refine ⟨first, more ++ [Nat.digitChar (value % 10)], by rw [front]; rfl, ?_⟩
        rintro rfl
        have spelled := digitsValue_toDigits (value / 10)
        rw [front, lone rfl] at spelled
        have zero : value / 10 = 0 := by simpa [digitsValue] using spelled.symm
        omega

theorem isDigit_of_toDigits (value : Nat) {digit : Char}
    (present : digit ∈ Nat.toDigits 10 value) : digit.isDigit = true :=
  Nat.isDigit_of_mem_toDigits (by decide) (by decide) present

theorem Separates.no_digit {rest : List Char} (separates : Separates rest) :
    ∀ first ∈ rest.head?, first.isDigit = false := by
  obtain ⟨char, tail, rfl, rfl | rfl⟩ := separates <;> rintro _ ⟨⟩ <;> rfl

theorem readNumber_toDigits (negative : Bool) (value : Nat) {rest : List Char}
    (separates : Separates rest) :
    readNumber {} negative (Nat.toDigits 10 value ++ rest)
      = .ok (.int (if negative then -(value : Int) else value), rest) := by
  have fraction : readFraction rest = (none, rest) := by
    obtain ⟨char, tail, rfl, rfl | rfl⟩ := separates <;> rfl
  have exponent : readExponent rest = (none, rest) := by
    obtain ⟨char, tail, rfl, rfl | rfl⟩ := separates <;> rfl
  have span := spanDigits_append (fun _ => isDigit_of_toDigits value) separates.no_digit
  have spelled := digitsValue_toDigits value
  obtain ⟨first, more, digits_eq, lone⟩ := toDigits_eq_cons value
  rw [digits_eq] at span spelled ⊢
  by_cases zero : first = '0'
  · obtain rfl := lone zero
    subst zero
    simp [fraction, exponent, Limits.excludesDigits, spelled]
  · rw [List.cons_append] at span ⊢
    simp [zero, span, fraction, exponent, Limits.excludesDigits, spelled]

theorem toList_toString_natCast (value : Nat) :
    (toString (value : Int)).toList = Nat.toDigits 10 value := by
  change (Nat.repr value).toList = _
  simp [Nat.repr]

theorem toList_toString_negSucc (value : Nat) :
    (toString (Int.negSucc value)).toList = '-' :: Nat.toDigits 10 (value + 1) := by
  change ("-" ++ Nat.repr (value + 1)).toList = _
  simp [Nat.repr]

/-- An integer is read back. -/
theorem readScalar_toString (value : Int) {rest : List Char} (separates : Separates rest) :
    readScalar {} ((toString value).toList ++ rest) = .ok (.int value, rest) := by
  cases value with
  | ofNat value =>
      have number := readNumber_toDigits false value separates
      obtain ⟨first, more, digits_eq, _⟩ := toDigits_eq_cons value
      have digit : first.isDigit = true :=
        isDigit_of_toDigits value (digits_eq ▸ List.mem_cons_self)
      rw [Int.ofNat_eq_natCast, toList_toString_natCast]
      rw [digits_eq, List.cons_append] at number ⊢
      rw [readScalar_digit {} digit, number]
      rfl
  | negSucc value =>
      have number := readNumber_toDigits true (value + 1) separates
      obtain ⟨first, more, digits_eq, _⟩ := toDigits_eq_cons (value + 1)
      have digit : first.isDigit = true :=
        isDigit_of_toDigits (value + 1) (digits_eq ▸ List.mem_cons_self)
      rw [toList_toString_negSucc]
      rw [digits_eq, List.cons_append] at number ⊢
      rw [List.cons_append, readScalar_minus {} digit, number]
      rfl

/-- An integer is spelled with a digit or a sign in front. -/
theorem toString_eq_cons (value : Int) :
    ∃ first tail, (toString value).toList = first :: tail ∧
      (first.isDigit = true ∨ first = '-') := by
  cases value with
  | ofNat value =>
      obtain ⟨first, more, digits_eq, _⟩ := toDigits_eq_cons value
      refine ⟨first, more, (toList_toString_natCast value).trans digits_eq, .inl ?_⟩
      exact isDigit_of_toDigits value (digits_eq ▸ List.mem_cons_self)
  | negSucc value => exact ⟨'-', _, toList_toString_negSucc value, .inr rfl⟩

/-! ## The lines of a layout -/

/-- The start of a line at a level. -/
def lineStart (level : Nat) : List Char :=
  '\n' :: List.replicate (2 * level) ' '

/-- The characters begin with a token that is no closing bracket or brace. -/
def Opens (chars : List Char) : Prop :=
  ∃ first tail, chars = first :: tail ∧ isSpace first = false ∧ first ≠ ']' ∧ first ≠ '\x7d'

theorem Opens.append {chars : List Char} (opens : Opens chars) (rest : List Char) :
    Opens (chars ++ rest) := by
  obtain ⟨first, tail, rfl, facts⟩ := opens
  exact ⟨first, tail ++ rest, rfl, facts⟩

theorem Opens.skipSpace_eq {chars : List Char} (opens : Opens chars) : skipSpace chars = chars := by
  obtain ⟨first, tail, rfl, token, _⟩ := opens
  exact skipSpace_cons first token tail

@[simp]
theorem skipSpace_lineStart (level : Nat) (chars : List Char) :
    skipSpace (lineStart level ++ chars) = skipSpace chars := by
  have blanks : ∀ char ∈ lineStart level, isSpace char = true := by
    intro char present
    rcases List.mem_cons.mp present with rfl | indent
    · rfl
    · rw [List.eq_of_mem_replicate indent]
      rfl
  rw [skipSpace, List.dropWhile_append_of_pos blanks, skipSpace]

theorem separates_lineStart (level : Nat) (chars : List Char) :
    Separates (lineStart level ++ chars) :=
  ⟨'\n', _, rfl, .inr rfl⟩

theorem separates_comma (chars : List Char) : Separates (',' :: chars) :=
  ⟨',', chars, rfl, .inl rfl⟩

/-- Items with commas between them, each but the first on a new line. -/
def commaLines (level : Nat) (items : List (List Char)) : List Char :=
  List.intercalate (',' :: lineStart level) items

@[simp]
theorem commaLines_singleton (level : Nat) (item : List Char) : commaLines level [item] = item :=
  List.intercalate_singleton

theorem commaLines_cons_cons (level : Nat) (item next : List Char) (items : List (List Char)) :
    commaLines level (item :: next :: items)
      = item ++ ',' :: (lineStart level ++ commaLines level (next :: items)) := by
  rw [commaLines, List.intercalate_cons_cons, List.append_assoc]
  rfl

theorem opens_commaLines {item : List Char} (opens : Opens item) (level : Nat)
    (items : List (List Char)) : Opens (commaLines level (item :: items)) := by
  cases items with
  | nil => rwa [commaLines_singleton]
  | cons next items =>
      rw [commaLines_cons_cons]
      exact opens.append _

theorem block_cons (opening closing : Char) (level : Nat) (item : List Char)
    (items : List (List Char)) :
    block opening closing level (item :: items)
      = opening :: (lineStart (level + 1) ++ commaLines (level + 1) (item :: items)
        ++ lineStart level ++ [closing]) := rfl

theorem opens_block (opening closing : Char) (level : Nat) (items : List (List Char))
    (token : isSpace opening = false ∧ opening ≠ ']' ∧ opening ≠ '\x7d') :
    Opens (block opening closing level items) := by
  cases items with
  | nil => exact ⟨opening, _, rfl, token⟩
  | cons item items => exact ⟨opening, _, rfl, token⟩

theorem isSpace_of_isDigit {first : Char} (digit : first.isDigit = true) :
    isSpace first = false := by
  simp only [isSpace, Bool.or_eq_false_iff, beq_eq_false_iff_ne]
  refine ⟨⟨⟨?_, ?_⟩, ?_⟩, ?_⟩ <;> exact (ne_of_isDigit digit (by decide)).symm

theorem opens_toString (value : Int) : Opens (toString value).toList := by
  obtain ⟨first, tail, spelled, digit | rfl⟩ := toString_eq_cons value
  · exact ⟨first, tail, spelled, isSpace_of_isDigit digit,
      (ne_of_isDigit digit (by decide)).symm, (ne_of_isDigit digit (by decide)).symm⟩
  · exact ⟨'-', tail, spelled, by decide⟩

/-! ## Values -/

mutual

/-- The value with the members of every object sorted by name. -/
def sorted : Json → Json
  | .list items => .list (sortedItems items)
  | .object members => .object ((sortedMembers members).mergeSort nameOrder)
  | value => value

/-- The items, each sorted. -/
def sortedItems : List Json → List Json
  | [] => []
  | item :: items => sorted item :: sortedItems items

/-- The members, each value sorted. -/
def sortedMembers : List (String × Json) → List (String × Json)
  | [] => []
  | (name, value) :: members => (name, sorted value) :: sortedMembers members

end

/-- The value has no number with a point or an exponent, and its objects name each member once. -/
inductive Plain : Json → Prop
  /-- The null value is plain. -/
  | null : Plain .null
  /-- A truth value is plain. -/
  | bool (value : Bool) : Plain (.bool value)
  /-- An integer is plain. -/
  | int (value : Int) : Plain (.int value)
  /-- A string is plain. -/
  | text (value : String) : Plain (.text value)
  /-- An array of plain values is plain. -/
  | list {items : List Json} (plain : ∀ item ∈ items, Plain item) : Plain (.list items)
  /-- An object of plain values with different names is plain. -/
  | object {members : List (String × Json)} (names : (members.map (·.1)).Nodup)
      (plain : ∀ member ∈ members, Plain member.2) : Plain (.object members)

theorem sortedItems_eq_map (items : List Json) : sortedItems items = items.map sorted := by
  induction items with
  | nil => rfl
  | cons item items ih => rw [sortedItems, ih, List.map_cons]

theorem sortedMembers_eq_map (members : List (String × Json)) :
    sortedMembers members = members.map fun member => (member.1, member.2.sorted) := by
  induction members with
  | nil => rfl
  | cons member members ih => rw [sortedMembers, ih, List.map_cons]

theorem renderItems_eq_map (level : Nat) (items : List Json) :
    renderItems level items = items.map (renderAt level) := by
  induction items with
  | nil => rfl
  | cons item items ih => rw [renderItems, ih, List.map_cons]

theorem renderMembers_eq_map (level : Nat) (members : List (String × Json)) :
    renderMembers level members
      = members.map fun member => (member.1, renderAt level member.2) := by
  induction members with
  | nil => rfl
  | cons member members ih => rw [renderMembers, ih, List.map_cons]

/-- The line of a member. -/
def memberLine (level : Nat) (member : String × Json) : List Char :=
  quote member.1 ++ ':' :: ' ' :: renderAt level member.2

/-- Changing the values of members commutes with sorting them by name. -/
theorem mergeSort_map_value {α β : Type} (change : α → β) (members : List (String × α)) :
    (members.map fun member => (member.1, change member.2)).mergeSort nameOrder
      = (members.mergeSort nameOrder).map fun member => (member.1, change member.2) := by
  rw [List.map_mergeSort]
  exact fun _ _ _ _ => rfl

theorem renderAt_object (level : Nat) (members : List (String × Json)) :
    renderAt level (.object members)
      = block '\x7b' '\x7d' level
        ((members.mergeSort nameOrder).map (memberLine (level + 1))) := by
  rw [renderAt, renderMembers_eq_map, mergeSort_map_value, List.map_map]
  rfl

/-- A layout begins with a token. -/
theorem opens_renderAt (level : Nat) {value : Json} (plain : Plain value) :
    Opens (renderAt level value) := by
  cases plain with
  | null => exact ⟨'n', _, rfl, by decide⟩
  | bool value =>
      cases value
      · exact ⟨'f', _, rfl, by decide⟩
      · exact ⟨'t', _, rfl, by decide⟩
  | int value => exact opens_toString value
  | text value => exact ⟨'\x22', _, rfl, by decide⟩
  | list plain =>
      rw [renderAt]
      exact opens_block '[' ']' level _ (by decide)
  | object names plain =>
      rw [renderAt_object]
      exact opens_block '\x7b' '\x7d' level _ (by decide)

/-- The value's layout is read back, whatever follows it in a layout. -/
def Reads (value : Json) : Prop :=
  ∀ fuel depth level rest, (renderAt level value).length ≤ fuel → Separates rest →
    readValue {} fuel depth (renderAt level value ++ rest) = .ok (value.sorted, rest)

/-! ## Arrays -/

/-- What comes after the last item of an array or the last member of an object. -/
theorem skipSpace_closing (closing : Char) (token : isSpace closing = false) (level : Nat)
    (rest : List Char) :
    skipSpace (lineStart level ++ closing :: rest) = closing :: rest := by
  rw [skipSpace_lineStart, skipSpace_cons closing token]

/-- Items on lines of their own are read back up to the closing bracket. -/
theorem readItems_commaLines (depth level outer : Nat) (rest : List Char) {item : Json}
    {items : List Json} (plain : ∀ entry ∈ item :: items, Plain entry)
    (reads : ∀ entry ∈ item :: items, Reads entry) (fuel : Nat)
    (enough : (commaLines level ((item :: items).map (renderAt level))).length < fuel) :
    readItems {} fuel depth
        (commaLines level ((item :: items).map (renderAt level))
          ++ (lineStart outer ++ ']' :: rest))
      = .ok ((item :: items).map sorted, rest) := by
  induction items generalizing item fuel with
  | nil =>
      have positive : fuel ≠ 0 := by omega
      obtain ⟨fuel, rfl⟩ := Nat.exists_eq_add_one_of_ne_zero positive
      rw [List.map_singleton, commaLines_singleton] at enough ⊢
      have value := reads item List.mem_cons_self fuel depth level _ (by omega)
        (separates_lineStart outer (']' :: rest))
      rw [readItems, value]
      simp only [skipSpace_closing ']' (by decide)]
      rfl
  | cons next items ih =>
      have positive : fuel ≠ 0 := by omega
      obtain ⟨fuel, rfl⟩ := Nat.exists_eq_add_one_of_ne_zero positive
      rw [List.map_cons, List.map_cons, commaLines_cons_cons, ← List.map_cons] at enough ⊢
      rw [List.length_append, List.length_cons, List.length_append] at enough
      have later := ih (fun entry present => plain entry (List.mem_cons_of_mem item present))
        (fun entry present => reads entry (List.mem_cons_of_mem item present)) fuel
        (by omega)
      have opens : Opens (commaLines level ((next :: items).map (renderAt level))) :=
        opens_commaLines (opens_renderAt level (plain next (by simp))) _ _
      have value := reads item List.mem_cons_self fuel depth level _ (by omega)
        (separates_comma (lineStart level ++ commaLines level ((next :: items).map (renderAt level))
          ++ (lineStart outer ++ ']' :: rest)))
      rw [List.append_assoc, List.cons_append, readItems, value]
      simp only [skipSpace_cons ',' (by decide), List.append_assoc, skipSpace_lineStart,
        (opens.append _).skipSpace_eq, later]
      rfl

theorem readValue_bracket {inside : List Char} (opens : Opens inside) (level fuel depth : Nat) :
    readValue {} (fuel + 1) depth ('[' :: (lineStart level ++ inside))
      = (readItems {} fuel (depth + 1) inside).map fun (items, left) => (.list items, left) := by
  have skipped : skipSpace (lineStart level ++ inside) = inside := by
    rw [skipSpace_lineStart, opens.skipSpace_eq]
  obtain ⟨first, tail, rfl, _, open_, _⟩ := opens
  simp [Limits.excludesDepth, skipped, open_]

/-- An array of values that are read back is read back. -/
theorem reads_list {items : List Json} (plain : ∀ item ∈ items, Plain item)
    (reads : ∀ item ∈ items, Reads item) : Reads (.list items) := by
  intro fuel depth level rest enough separates
  rw [renderAt, renderItems_eq_map] at enough ⊢
  rw [sorted, sortedItems_eq_map]
  have positive : fuel ≠ 0 := by cases items <;> simp [block] at enough <;> omega
  obtain ⟨fuel, rfl⟩ := Nat.exists_eq_add_one_of_ne_zero positive
  cases items with
  | nil => rfl
  | cons item items =>
      rw [List.map_cons, block_cons, ← List.map_cons] at enough ⊢
      have opens : Opens (commaLines (level + 1) ((item :: items).map (renderAt (level + 1)))) :=
        opens_commaLines (opens_renderAt _ (plain item List.mem_cons_self)) _ _
      have inside := readItems_commaLines (depth + 1) (level + 1) level rest plain reads
        fuel (by simp at enough ⊢; omega)
      simp only [List.cons_append, List.append_assoc, List.nil_append]
      rw [readValue_bracket (opens.append _), inside]
      rfl

/-! ## Objects -/

theorem quote_append (name : String) (rest : List Char) :
    quote name ++ rest = '\x22' :: (name.toList.flatMap escapeChar ++ '\x22' :: rest) := by
  simp [quote]

/-- Reads on behind a member: either nothing more or, behind a comma, further members. -/
def readBehind (fuel depth : Nat) (member : String × Json) (rest : List Char) :
    ReadResult (List (String × Json)) :=
  match skipSpace rest with
  | '\x7d' :: left => .ok ([member], left)
  | ',' :: more =>
      (readMembers {} fuel depth (skipSpace more)).map fun (members, left) =>
        (member :: members, left)
  | _ => .error .malformed

/-- The line of one member is read back; what follows it decides whether there are more. -/
theorem readMembers_memberLine {member : String × Json} (plain : Plain member.2)
    (reads : Reads member.2) (depth level : Nat) {fuel : Nat}
    (enough : (memberLine level member).length ≤ fuel) {rest : List Char}
    (separates : Separates rest) :
    readMembers {} (fuel + 1) depth (memberLine level member ++ rest)
      = readBehind fuel depth (member.1, member.2.sorted) rest := by
  rw [memberLine, List.length_append, List.length_cons, List.length_cons] at enough
  have value := reads fuel depth level rest (by omega) separates
  have blank : skipSpace (' ' :: (renderAt level member.2 ++ rest))
      = renderAt level member.2 ++ rest :=
    ((opens_renderAt level plain).append rest).skipSpace_eq
  rw [memberLine, List.append_assoc, quote_append, readMembers]
  simp only [readString_flatMap_escapeChar, List.cons_append,
    skipSpace_cons ':' (by decide), blank, value, String.ofList_toList]
  rfl

/-- Members on lines of their own are read back up to the closing brace. -/
theorem readMembers_commaLines (depth level outer : Nat) (rest : List Char)
    {member : String × Json} {members : List (String × Json)}
    (plain : ∀ entry ∈ member :: members, Plain entry.2)
    (reads : ∀ entry ∈ member :: members, Reads entry.2) (fuel : Nat)
    (enough : (commaLines level ((member :: members).map (memberLine level))).length < fuel) :
    readMembers {} fuel depth
        (commaLines level ((member :: members).map (memberLine level))
          ++ (lineStart outer ++ '\x7d' :: rest))
      = .ok ((member :: members).map fun member => (member.1, member.2.sorted), rest) := by
  have head_plain := plain member List.mem_cons_self
  have head_reads := reads member List.mem_cons_self
  induction members generalizing member fuel with
  | nil =>
      have positive : fuel ≠ 0 := by omega
      obtain ⟨fuel, rfl⟩ := Nat.exists_eq_add_one_of_ne_zero positive
      rw [List.map_singleton, commaLines_singleton] at enough ⊢
      rw [readMembers_memberLine head_plain head_reads depth level (by omega)
        (separates_lineStart outer _), readBehind, skipSpace_closing '\x7d' (by decide)]
      rfl
  | cons next members ih =>
      have positive : fuel ≠ 0 := by omega
      obtain ⟨fuel, rfl⟩ := Nat.exists_eq_add_one_of_ne_zero positive
      rw [List.map_cons, List.map_cons, commaLines_cons_cons, ← List.map_cons] at enough ⊢
      rw [List.length_append, List.length_cons, List.length_append] at enough
      have later := ih (fun entry present => plain entry (List.mem_cons_of_mem member present))
        (fun entry present => reads entry (List.mem_cons_of_mem member present))
        fuel (by omega) (plain next (by simp)) (reads next (by simp))
      have opens : Opens (commaLines level ((next :: members).map (memberLine level))) :=
        opens_commaLines ⟨'\x22', _, rfl, by decide⟩ _ _
      rw [List.append_assoc, List.cons_append,
        readMembers_memberLine head_plain head_reads depth level (by omega) (separates_comma _),
        readBehind, skipSpace_cons ',' (by decide)]
      simp only [List.append_assoc, skipSpace_lineStart, (opens.append _).skipSpace_eq, later]
      rfl

theorem readValue_brace {inside : List Char} (opens : Opens inside) (level fuel depth : Nat) :
    readValue {} (fuel + 1) depth ('\x7b' :: (lineStart level ++ inside))
      = (readMembers {} fuel (depth + 1) inside).map fun (members, left) =>
          (ofMembers members, left) := by
  have skipped : skipSpace (lineStart level ++ inside) = inside := by
    rw [skipSpace_lineStart, opens.skipSpace_eq]
  obtain ⟨first, tail, rfl, _, _, open_⟩ := opens
  simp [Limits.excludesDepth, skipped, open_]

/-- An object whose values are read back is read back in the order of its members' names. -/
theorem reads_object {members : List (String × Json)} (names : (members.map (·.1)).Nodup)
    (plain : ∀ member ∈ members, Plain member.2) (reads : ∀ member ∈ members, Reads member.2) :
    Reads (.object members) := by
  intro fuel depth level rest enough separates
  have perm := List.mergeSort_perm members nameOrder
  rw [renderAt_object] at enough ⊢
  rw [sorted, sortedMembers_eq_map, mergeSort_map_value]
  replace names : ((members.mergeSort nameOrder).map (·.1)).Nodup :=
    (perm.map _).nodup_iff.mpr names
  replace plain : ∀ member ∈ members.mergeSort nameOrder, Plain member.2 :=
    fun member present => plain member (perm.mem_iff.mp present)
  replace reads : ∀ member ∈ members.mergeSort nameOrder, Reads member.2 :=
    fun member present => reads member (perm.mem_iff.mp present)
  -- From here on the order of the members does not matter.
  clear perm
  generalize members.mergeSort nameOrder = members at *
  have positive : fuel ≠ 0 := by cases members <;> simp [block] at enough <;> omega
  obtain ⟨fuel, rfl⟩ := Nat.exists_eq_add_one_of_ne_zero positive
  cases members with
  | nil => rfl
  | cons member members =>
      rw [List.map_cons, block_cons, ← List.map_cons] at enough ⊢
      have opens :
          Opens (commaLines (level + 1) ((member :: members).map (memberLine (level + 1)))) :=
        opens_commaLines ⟨'\x22', _, rfl, by decide⟩ _ _
      have inside := readMembers_commaLines (depth + 1) (level + 1) level rest plain reads
        fuel (by simp at enough ⊢; omega)
      have table : ofMembers ((member :: members).map fun member => (member.1, member.2.sorted))
          = .object ((member :: members).map fun member => (member.1, member.2.sorted)) := by
        rw [ofMembers, Ordered.setAll_of_nodup, List.nil_append]
        simpa [Ordered.keys, Function.comp_def] using names
      simp only [List.cons_append, List.append_assoc, List.nil_append]
      rw [readValue_brace (opens.append _), inside, ← table]
      rfl

/-! ## Whole texts -/

theorem reads_int (value : Int) : Reads (.int value) := by
  intro fuel depth level rest enough separates
  have number := readScalar_toString value separates
  rw [renderAt] at enough ⊢
  obtain ⟨first, tail, spelled, leading⟩ := toString_eq_cons value
  rw [spelled, List.cons_append] at number ⊢
  rw [spelled, List.length_cons] at enough
  have no_opening : first ∉ ['\x22', '[', '\x7b'] := by
    intro opening
    simp only [List.mem_cons, List.not_mem_nil, or_false] at opening
    rcases opening with rfl | rfl | rfl <;> rcases leading with digit | sign <;> contradiction
  rw [readValue_scalar {} first no_opening (by omega), number]
  rfl

theorem reads_null : Reads .null := by
  intro fuel depth level rest enough _
  have positive : 0 < fuel := by
    simp at enough
    omega
  have word : readScalar {} (['n', 'u', 'l', 'l'] ++ rest) = .ok (.null, rest) := by
    simp [literals]
    rfl
  exact (readValue_scalar {} 'n' (by decide) positive depth _).trans word

theorem reads_bool (value : Bool) : Reads (.bool value) := by
  intro fuel depth level rest enough _
  have positive : 0 < fuel := by
    cases value <;> simp at enough <;> omega
  cases value with
  | false =>
      have word : readScalar {} (['f', 'a', 'l', 's', 'e'] ++ rest) = .ok (.bool false, rest) := by
        simp [literals]
        rfl
      exact (readValue_scalar {} 'f' (by decide) positive depth _).trans word
  | true =>
      have word : readScalar {} (['t', 'r', 'u', 'e'] ++ rest) = .ok (.bool true, rest) := by
        simp [literals]
        rfl
      exact (readValue_scalar {} 't' (by decide) positive depth _).trans word

theorem reads_text (value : String) : Reads (.text value) := by
  intro fuel depth level rest enough _
  rw [renderAt] at enough ⊢
  have positive : fuel ≠ 0 := by simp [quote] at enough; omega
  obtain ⟨fuel, rfl⟩ := Nat.exists_eq_add_one_of_ne_zero positive
  rw [quote_append, readValue, readString_flatMap_escapeChar]
  simp [sorted]

/-- The layout of every plain value is read back. -/
theorem Plain.reads {value : Json} (plain : Plain value) : Reads value := by
  induction plain with
  | null => exact reads_null
  | bool value => exact reads_bool value
  | int value => exact reads_int value
  | text value => exact reads_text value
  | list plain reads => exact reads_list plain reads
  | object names plain reads => exact reads_object names plain reads

/-- A plain value is read back from its text, its members sorted by name. -/
theorem parse?_render {value : Json} (plain : Plain value) :
    parse? value.render = some value.sorted := by
  have read := plain.reads ((renderAt 0 value ++ ['\n']).length + 1) 0 0 ['\n']
    (by simp; omega) ⟨'\n', [], rfl, .inr rfl⟩
  have start := ((opens_renderAt 0 plain).append ['\n']).skipSpace_eq
  rw [parse?, parse, render, String.toList_ofList, parseChars, start, read]
  rfl

end Json

end CodeGraph
