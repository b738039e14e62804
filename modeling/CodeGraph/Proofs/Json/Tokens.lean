import CodeGraph.Json.Parser
import CodeGraph.Proofs.Outcomes
import Mathlib.Data.List.TakeWhile

/-!
# The tokens of JSON texts

What the reader takes for a string literal, a word or a number is a part of the text that it takes
again whatever follows: a literal is a row of marks between quotes, and a number goes on until a
character comes that no number has.
-/

namespace CodeGraph

namespace Json

/-! ## String literals -/

/-- What stands for one character or one code unit inside a string literal. -/
inductive Mark where
  /-- A code unit spelled by four hexadecimal digits. -/
  | unit (first second third fourth : Char) (code : Nat)
      (spelled : unit? first second third fourth = some code)
  /-- A character named by a letter. -/
  | escape (letter char : Char) (named : escaped? letter = some char)
  /-- A character that stands for itself. -/
  | plain (char : Char) (ordinary : char ≠ '\x22' ∧ char ≠ '\\' ∧ 0x20 ≤ char.toNat)

namespace Mark

/-- The mark as it is written. -/
def chars : Mark → List Char
  | unit first second third fourth _ _ => ['\\', 'u', first, second, third, fourth]
  | escape letter _ _ => ['\\', letter]
  | plain char _ => [char]

theorem length_chars_pos (mark : Mark) : 0 < mark.chars.length := by
  cases mark <;> simp [chars]

/-- Marks as they are written. -/
def spell (marks : List Mark) : List Char :=
  marks.flatMap chars

@[simp]
theorem spell_nil : spell [] = [] := rfl

@[simp]
theorem spell_cons (mark : Mark) (marks : List Mark) :
    spell (mark :: marks) = mark.chars ++ spell marks := rfl

/-- The offset of a mark among the high surrogates, if it is one. -/
def highOffset : Mark → Option Nat
  | unit _ _ _ _ code _ =>
      if 0xD800 ≤ code && code ≤ 0xDBFF then some (code - 0xD800) else none
  | escape _ _ _ | plain _ _ => none

/-- The characters that are settled by a mark, where `high` is the offset of a high surrogate in
front of it. -/
def settled (high : Option Nat) : Mark → List Char
  | unit _ _ _ _ code _ =>
      match high with
      | some offset =>
          if 0xDC00 ≤ code && code ≤ 0xDFFF then
            [Char.ofNat (0x10000 + offset * 0x400 + (code - 0xDC00))]
          else if 0xD800 ≤ code && code ≤ 0xDBFF then [loneHigh offset]
          else [loneHigh offset, Text.charOfUnit code]
      | none => if 0xD800 ≤ code && code ≤ 0xDBFF then [] else [Text.charOfUnit code]
  | escape _ char _ | plain char _ => (high.map loneHigh).toList ++ [char]

/-- The characters that marks stand for, where `high` is the offset of a high surrogate in front of
them. -/
def decode (high : Option Nat) : List Mark → List Char
  | [] => (high.map loneHigh).toList
  | mark :: marks => mark.settled high ++ decode mark.highOffset marks

end Mark

open Mark

/-- Reading goes on behind a mark. -/
theorem readString_mark (high : Option Nat) (mark : Mark) (rest : List Char) :
    readString high (mark.chars ++ rest)
      = (readString mark.highOffset rest).map fun (chars, left) =>
          (mark.settled high ++ chars, left) := by
  cases mark with
  | unit first second third fourth code spelled =>
      by_cases low : 0xDC00 ≤ code ∧ code ≤ 0xDFFF
      · have no_high : ¬ (0xD800 ≤ code ∧ code ≤ 0xDBFF) := by omega
        cases high <;> simp [readString, chars, spelled, settled, highOffset, low, no_high]
      · by_cases upper : 0xD800 ≤ code ∧ code ≤ 0xDBFF
        · cases high <;> simp [readString, chars, spelled, settled, highOffset, low, upper]
        · cases high <;> simp [readString, chars, spelled, settled, highOffset, low, upper]
  | escape letter char named =>
      have no_unit : letter ≠ 'u' := by
        rintro rfl
        simp [escaped?] at named
      simp [readString, chars, no_unit, named, settled, highOffset]
  | plain char ordinary =>
      obtain ⟨no_quote, no_slash, no_control⟩ := ordinary
      have above : ¬ char.toNat < 0x20 := by omega
      simp [readString, chars, no_quote, no_slash, above, settled, highOffset]

/-- The inside of a string literal is read as what its marks stand for. -/
theorem readString_spell (high : Option Nat) (marks : List Mark) (rest : List Char) :
    readString high (spell marks ++ '\x22' :: rest) = some (decode high marks, rest) := by
  induction marks generalizing high with
  | nil => simp [readString, decode]
  | cons mark marks ih =>
      rw [spell_cons, List.append_assoc, readString_mark, ih]
      rfl

/-- Where a string literal is read, it ends or a mark stands. -/
theorem closes_or_marks_of_readString {high : Option Nat} {text chars rest : List Char}
    (read : readString high text = some (chars, rest)) :
    text = '\x22' :: rest ∨ ∃ (mark : Mark) (more : List Char), text = mark.chars ++ more := by
  unfold readString at read
  split at read
  · contradiction
  next first second third fourth more =>
    split at read
    · contradiction
    next code spelled => exact .inr ⟨.unit first second third fourth code spelled, more, rfl⟩
  next letter more _ =>
    split at read
    · contradiction
    next char named => exact .inr ⟨.escape letter char named, more, rfl⟩
  next char more no_unit no_escape =>
    split at read
    next quote =>
      rw [beq_iff_eq.mp quote]
      simp_all
    next no_quote =>
      split at read
      · contradiction
      next ordinary =>
        refine .inr ⟨.plain char ?_, more, rfl⟩
        simp_all

/-- The inside of a string literal that is read consists of marks. -/
theorem exists_marks_of_readString {high : Option Nat} {text chars rest : List Char}
    (read : readString high text = some (chars, rest)) :
    ∃ marks, text = spell marks ++ '\x22' :: rest ∧ decode high marks = chars := by
  induction length_eq : text.length using Nat.strongRecOn generalizing high text chars with
  | ind length ih =>
      rcases closes_or_marks_of_readString read with rfl | ⟨mark, more, rfl⟩
      · exact ⟨[], rfl, by simpa [readString, decode] using read⟩
      · rw [readString_mark, Option.map_eq_some_iff] at read
        obtain ⟨⟨later, left⟩, read, same⟩ := read
        obtain ⟨rfl, rfl⟩ := Prod.mk.inj same
        have shorter : more.length < length := by
          rw [← length_eq, List.length_append]
          have written := mark.length_chars_pos
          omega
        obtain ⟨marks, rfl, rfl⟩ := ih more.length shorter read rfl
        exact ⟨mark :: marks, by simp, rfl⟩

/-! ## Words and numbers -/

/-- The character may stand in a word or in a number. -/
def isScalarChar (char : Char) : Bool :=
  char.isAlphanum || char == '+' || char == '-' || char == '.'

/-- What comes next goes on with no number. -/
def EndsNumber (chars : List Char) : Prop :=
  ∀ first ∈ chars.head?, isScalarChar first = false

theorem isScalarChar_of_isDigit {char : Char} (digit : char.isDigit = true) :
    isScalarChar char = true := by
  simp [isScalarChar, Char.isAlphanum, digit]

theorem EndsNumber.no_digit {chars : List Char} (ends : EndsNumber chars) :
    ∀ first ∈ chars.head?, first.isDigit = false := by
  intro first present
  have no_scalar := ends first present
  by_contra digit
  rw [isScalarChar_of_isDigit (by simpa using digit)] at no_scalar
  exact nomatch no_scalar

/-- Digits in front are taken as far as they go. -/
theorem spanDigits_append {digits rest : List Char}
    (all : ∀ digit ∈ digits, digit.isDigit = true)
    (ends : ∀ first ∈ rest.head?, first.isDigit = false) :
    spanDigits (digits ++ rest) = (digits, rest) := by
  rw [spanDigits, List.takeWhile_append_of_pos all, List.dropWhile_append_of_pos all]
  cases rest with
  | nil => simp
  | cons first rest =>
      have no_digit : first.isDigit = false := ends first rfl
      simp [no_digit]

theorem eq_append_of_spanDigits {text digits left : List Char}
    (span : spanDigits text = (digits, left)) :
    text = digits ++ left ∧ ∀ digit ∈ digits, digit.isDigit = true := by
  obtain ⟨rfl, rfl⟩ := Prod.mk.inj span
  exact ⟨List.takeWhile_append_dropWhile.symm, fun digit => List.mem_takeWhile_imp⟩

/-- The part that is read is the same whatever follows it, as long as what follows `ends` it. -/
structure Taken {γ : Type} (read wrap : List Char → γ) (ends : List Char → Prop)
    (part : List Char) : Prop where
  chars : ∀ char ∈ part, isScalarChar char = true
  read_append : ∀ rest, ends rest → read (part ++ rest) = wrap rest

theorem taken_fraction {text left : List Char} {fraction : Option (List Char)}
    (read : readFraction text = (fraction, left)) :
    ∃ part, text = part ++ left ∧ (∀ first ∈ part.head?, first = '.') ∧
      Taken readFraction (fun rest => (fraction, rest))
        (fun rest => ∀ first ∈ rest.head?, first.isDigit = false ∧ first ≠ '.') part := by
  have nothing : ∀ rest : List Char, (∀ first ∈ rest.head?, first.isDigit = false ∧ first ≠ '.') →
      readFraction rest = (none, rest) := by
    intro rest ends
    cases rest with
    | nil => rfl
    | cons first rest => simp [readFraction, (ends first rfl).2]
  unfold readFraction at read
  split at read
  next more =>
    split at read
    · obtain ⟨rfl, rfl⟩ := Prod.mk.inj read
      exact ⟨[], rfl, by simp, by simp, nothing⟩
    next digits _ some_digit span =>
      obtain ⟨rfl, rfl⟩ := Prod.mk.inj read
      obtain ⟨rfl, all⟩ := eq_append_of_spanDigits span
      refine ⟨'.' :: digits, rfl, by simp, ?_, fun rest ends => ?_⟩
      · refine List.forall_mem_cons.mpr ⟨rfl, fun digit present => ?_⟩
        exact isScalarChar_of_isDigit (all digit present)
      · have again := spanDigits_append all fun first present => (ends first present).1
        simp only [List.cons_append, readFraction, again]
  next =>
    obtain ⟨rfl, rfl⟩ := Prod.mk.inj read
    exact ⟨[], rfl, by simp, by simp, nothing⟩

/-- The sign of an exponent, true for a minus, and what follows it. -/
def exponentSign (chars : List Char) : Bool × List Char :=
  match chars with
  | '-' :: rest => (true, rest)
  | '+' :: rest => (false, rest)
  | _ => (false, chars)

theorem readExponent_mark {mark : Char} (is_mark : mark = 'e' ∨ mark = 'E') (chars : List Char) :
    readExponent (mark :: chars)
      = match spanDigits (exponentSign chars).2 with
        | ([], _) => (none, mark :: chars)
        | (digits, left) =>
            (some (if (exponentSign chars).1 then -(digitsValue digits : Int)
              else digitsValue digits), left) := by
  have tested : (mark == 'e' || mark == 'E') = true := by simpa using is_mark
  unfold readExponent
  dsimp only
  rw [if_pos tested]
  rfl

theorem exists_sign (chars : List Char) :
    ∃ sign, chars = sign ++ (exponentSign chars).2 ∧
      (∀ char ∈ sign, isScalarChar char = true) ∧
      ∀ first rest, first.isDigit = true →
        exponentSign (sign ++ first :: rest) = ((exponentSign chars).1, first :: rest) := by
  unfold exponentSign
  split
  next rest => exact ⟨['-'], rfl, List.forall_mem_singleton.mpr rfl, fun _ _ _ => rfl⟩
  next rest => exact ⟨['+'], rfl, List.forall_mem_singleton.mpr rfl, fun _ _ _ => rfl⟩
  next =>
    refine ⟨[], rfl, by simp, fun first rest digit => ?_⟩
    rw [List.nil_append]
    split <;> simp_all

theorem taken_exponent {text left : List Char} {exponent : Option Int}
    (read : readExponent text = (exponent, left)) :
    ∃ part, text = part ++ left ∧ (∀ first ∈ part.head?, first = 'e' ∨ first = 'E') ∧
      Taken readExponent (fun rest => (exponent, rest)) EndsNumber part := by
  have nothing : ∀ rest : List Char, EndsNumber rest → readExponent rest = (none, rest) := by
    intro rest ends
    cases rest with
    | nil => rfl
    | cons first rest =>
        have no_mark : ¬ (first = 'e' ∨ first = 'E') := by
          rintro (rfl | rfl) <;> exact absurd (ends _ rfl) (by decide)
        simp [readExponent, no_mark]
  have empty : (none, text) = (exponent, left) →
      ∃ part, text = part ++ left ∧ (∀ first ∈ part.head?, first = 'e' ∨ first = 'E') ∧
        Taken readExponent (fun rest => (exponent, rest)) EndsNumber part := by
    rintro ⟨⟩
    exact ⟨[], rfl, by simp, by simp, nothing⟩
  cases text with
  | nil => exact empty read
  | cons mark chars =>
      by_cases is_mark : mark = 'e' ∨ mark = 'E'
      · rw [readExponent_mark is_mark] at read
        split at read
        · exact empty read
        next digits _ some_digit span =>
          obtain ⟨rfl, rfl⟩ := Prod.mk.inj read
          obtain ⟨sign, chars_eq, sign_chars, sign_append⟩ := exists_sign chars
          obtain ⟨left_eq, all⟩ := eq_append_of_spanDigits span
          refine ⟨mark :: (sign ++ digits), ?_, by simpa using is_mark, ?_, fun rest ends => ?_⟩
          · rw [List.cons_append, List.append_assoc, ← left_eq, ← chars_eq]
          · refine List.forall_mem_cons.mpr ⟨?_, List.forall_mem_append.mpr ⟨sign_chars, ?_⟩⟩
            · rcases is_mark with rfl | rfl <;> rfl
            · exact fun digit present => isScalarChar_of_isDigit (all digit present)
          · obtain ⟨first, digits, rfl⟩ := List.exists_cons_of_ne_nil some_digit
            have again := spanDigits_append all ends.no_digit
            have signed := sign_append first (digits ++ rest) (all first List.mem_cons_self)
            rw [List.cons_append, List.append_assoc, readExponent_mark is_mark, List.cons_append,
              signed, ← List.cons_append, again]
      · refine empty ?_
        rw [← read]
        simp [readExponent, is_mark]

/-- The digits in front of point and exponent: a zero stands alone. -/
def spanWhole (chars : List Char) : List Char × List Char :=
  match chars with
  | '0' :: rest => (['0'], rest)
  | _ => spanDigits chars

/-- The number that digits, decimals and an exponent spell. -/
def numberOf (limits : Limits) (negative : Bool) (digits : List Char)
    (fraction : Option (List Char)) (exponent : Option Int) : Except ReadFault Json :=
  match fraction, exponent with
  | none, none =>
      if limits.excludesDigits digits.length then
        .error .longNumber
      else
        let value : Int := digitsValue digits
        .ok (.int (if negative then -value else value))
  | _, _ =>
      let decimals := fraction.getD []
      .ok (.real (.finite negative (digitsValue (digits ++ decimals))
        (exponent.getD 0 - decimals.length)))

theorem readNumber_eq (limits : Limits) (negative : Bool) (chars : List Char) :
    readNumber limits negative chars
      = match spanWhole chars with
        | ([], _) => .error .malformed
        | (digits, afterDigits) =>
            let (fraction, afterFraction) := readFraction afterDigits
            let (exponent, rest) := readExponent afterFraction
            (numberOf limits negative digits fraction exponent).map fun value => (value, rest) := by
  change (match spanWhole chars with
    | ([], _) => _
    | (digits, afterDigits) => _) = _
  obtain ⟨digits, afterDigits⟩ := spanWhole chars
  cases digits with
  | nil => rfl
  | cons first digits =>
      dsimp only
      cases (readFraction afterDigits).1 with
      | some fraction => rfl
      | none =>
          cases (readExponent (readFraction afterDigits).2).1 with
          | some exponent => rfl
          | none =>
              simp only [numberOf]
              split <;> rfl

theorem spanWhole_spec {chars digits rest : List Char}
    (whole : spanWhole chars = (digits, rest)) :
    chars = digits ++ rest ∧ (∀ digit ∈ digits, digit.isDigit = true) ∧
      (digits ≠ [] → ∀ rest, (∀ first ∈ rest.head?, first.isDigit = false) →
        spanWhole (digits ++ rest) = (digits, rest)) := by
  unfold spanWhole at whole
  split at whole
  · obtain ⟨rfl, rfl⟩ := Prod.mk.inj whole
    exact ⟨rfl, List.forall_mem_singleton.mpr rfl, fun _ _ _ => rfl⟩
  next no_zero =>
    obtain ⟨rfl, all⟩ := eq_append_of_spanDigits whole
    refine ⟨rfl, all, fun some_digit rest ends => ?_⟩
    obtain ⟨first, digits, rfl⟩ := List.exists_cons_of_ne_nil some_digit
    have again := spanDigits_append all ends
    have first_ne : first ≠ '0' := by
      rintro rfl
      exact no_zero _ rfl
    unfold spanWhole
    split
    next same => exact absurd (List.cons.inj same).1 first_ne
    next => exact again

theorem forall_head_append {test : Char → Prop} {part rest : List Char}
    (front : ∀ first ∈ part.head?, test first) (back : ∀ first ∈ rest.head?, test first) :
    ∀ first ∈ (part ++ rest).head?, test first := by
  cases part with
  | nil => exact back
  | cons first part => exact front

/-- A number that is read is read from the same part whatever follows it. -/
theorem taken_number {limits : Limits} {negative : Bool} {text left : List Char} {value : Json}
    (read : readNumber limits negative text = .ok (value, left)) :
    ∃ first part, text = first :: part ++ left ∧ first.isDigit = true ∧
      Taken (readNumber limits negative) (fun rest => .ok (value, rest)) EndsNumber
        (first :: part) := by
  obtain ⟨digits, afterDigits, whole⟩ :
      ∃ digits afterDigits, spanWhole text = (digits, afterDigits) := ⟨_, _, rfl⟩
  obtain ⟨fraction, afterFraction, decimals⟩ :
      ∃ fraction afterFraction, readFraction afterDigits = (fraction, afterFraction) := ⟨_, _, rfl⟩
  obtain ⟨exponent, rest, power⟩ :
      ∃ exponent rest, readExponent afterFraction = (exponent, rest) := ⟨_, _, rfl⟩
  rw [readNumber_eq, whole] at read
  obtain ⟨rfl, all, whole_append⟩ := spanWhole_spec whole
  cases digits with
  | nil => exact nomatch read
  | cons first digits =>
      simp only [decimals, power] at read
      obtain ⟨fractionPart, rfl, point, fraction_taken⟩ := taken_fraction decimals
      obtain ⟨exponentPart, rfl, mark, exponent_taken⟩ := taken_exponent power
      obtain ⟨number, number_eq, same⟩ := map_eq_ok_iff.mp read
      obtain ⟨rfl, rfl⟩ := Prod.mk.inj same
      refine ⟨first, digits ++ (fractionPart ++ exponentPart), by simp,
        all first List.mem_cons_self, ?_, fun rest ends => ?_⟩
      · rw [← List.cons_append]
        refine List.forall_mem_append.mpr ⟨?_, List.forall_mem_append.mpr
          ⟨fraction_taken.chars, exponent_taken.chars⟩⟩
        exact fun digit present => isScalarChar_of_isDigit (all digit present)
      · have after_decimals : ∀ next ∈ (exponentPart ++ rest).head?,
            next.isDigit = false ∧ next ≠ '.' :=
          forall_head_append
            (fun next present => by rcases mark next present with rfl | rfl <;> decide)
            (fun next present => ⟨ends.no_digit next present, by
              rintro rfl
              exact absurd (ends _ present) (by decide)⟩)
        have after_digits : ∀ next ∈ (fractionPart ++ (exponentPart ++ rest)).head?,
            next.isDigit = false :=
          forall_head_append
            (fun next present => by rw [point next present]; decide)
            (fun next present => (after_decimals next present).1)
        have digits_again := whole_append (List.cons_ne_nil first digits) _ after_digits
        have fraction_again := fraction_taken.read_append _ after_decimals
        have exponent_again := exponent_taken.read_append rest ends
        rw [← List.cons_append, List.append_assoc, List.append_assoc, readNumber_eq, digits_again]
        simp only [fraction_again, exponent_again, number_eq]
        rfl

theorem literals_spelled : ∀ entry ∈ literals,
    entry.1.toList ≠ [] ∧ entry.1.toList.all isScalarChar = true := by
  decide

theorem readScalar_word (limits : Limits) {word : String} {value : Json}
    (known : (word, value) ∈ literals) (rest : List Char) :
    readScalar limits (word.toList ++ rest) = .ok (value, rest) := by
  simp only [literals, List.mem_cons, List.not_mem_nil, or_false, Prod.mk.injEq] at known
  rcases known with ⟨rfl, rfl⟩ | ⟨rfl, rfl⟩ | ⟨rfl, rfl⟩ | ⟨rfl, rfl⟩ | ⟨rfl, rfl⟩ | ⟨rfl, rfl⟩ <;>
    rfl

theorem ne_of_isDigit {first other : Char} (digit : first.isDigit = true)
    (no_digit : other.isDigit = false) : other ≠ first := by
  rintro rfl
  simp [digit] at no_digit

theorem readScalar_digit (limits : Limits) {first : Char} (digit : first.isDigit = true)
    (chars : List Char) :
    readScalar limits (first :: chars) = readNumber limits false (first :: chars) := by
  have no_sign : first ≠ '-' := (ne_of_isDigit digit (by decide)).symm
  simp [readScalar, literals, ne_of_isDigit digit, no_sign]

theorem readScalar_minus (limits : Limits) {first : Char} (digit : first.isDigit = true)
    (chars : List Char) :
    readScalar limits ('-' :: first :: chars) = readNumber limits true (first :: chars) := by
  simp [readScalar, literals, ne_of_isDigit digit]

/-- A word or a number that is read is read from the same part whatever follows it. -/
theorem taken_scalar {limits : Limits} {text left : List Char} {value : Json}
    (read : readScalar limits text = .ok (value, left)) :
    ∃ part, text = part ++ left ∧ part ≠ [] ∧
      Taken (readScalar limits) (fun rest => .ok (value, rest)) EndsNumber part := by
  unfold readScalar at read
  split at read
  next word value' found =>
    obtain ⟨rfl, rfl⟩ := Prod.mk.inj (Except.ok.inj read)
    have known := List.mem_of_find?_eq_some found
    have leads : word.toList.isPrefixOf text = true := by
      simpa only using List.find?_some found
    obtain ⟨rest, rfl⟩ := List.isPrefixOf_iff_prefix.mp leads
    obtain ⟨some_char, chars⟩ := literals_spelled (word, value') known
    refine ⟨word.toList, ?_, some_char, List.all_eq_true.mp chars, fun rest _ => ?_⟩
    · rw [← String.length_toList, List.drop_left]
    · exact readScalar_word limits known rest
  next =>
    split at read
    next text =>
      obtain ⟨first, part, rfl, digit, taken⟩ := taken_number read
      refine ⟨'-' :: first :: part, rfl, List.cons_ne_nil _ _, ?_, fun rest ends => ?_⟩
      · exact List.forall_mem_cons.mpr ⟨rfl, taken.chars⟩
      · exact (readScalar_minus limits digit _).trans (taken.read_append rest ends)
    next =>
      obtain ⟨first, part, rfl, digit, taken⟩ := taken_number read
      refine ⟨first :: part, rfl, List.cons_ne_nil _ _, taken.chars, fun rest ends => ?_⟩
      exact (readScalar_digit limits digit _).trans (taken.read_append rest ends)

/-! ## Blanks between tokens -/

/-- Characters that may stand between tokens. -/
abbrev Blanks := { chars : List Char // ∀ char ∈ chars, isSpace char = true }

theorem skipSpace_blanks (blanks : Blanks) (rest : List Char) :
    skipSpace (blanks.1 ++ rest) = skipSpace rest := by
  rw [skipSpace, List.dropWhile_append_of_pos blanks.2, skipSpace]

theorem exists_blanks (text : List Char) : ∃ blanks : Blanks, text = blanks.1 ++ skipSpace text :=
  ⟨⟨text.takeWhile isSpace, fun _ => List.mem_takeWhile_imp⟩,
    List.takeWhile_append_dropWhile.symm⟩

theorem skipSpace_cons (first : Char) (token : isSpace first = false) (chars : List Char) :
    skipSpace (first :: chars) = first :: chars := by
  rw [skipSpace, List.dropWhile_cons_of_neg (by simp [token])]

/-- A value may begin with the character. -/
def isLeading (char : Char) : Bool :=
  isScalarChar char || char == '\x22' || char == '[' || char == '\x7b'

theorem eq_of_isSpace {char : Char} (space : isSpace char = true) :
    char = ' ' ∨ char = '\t' ∨ char = '\n' ∨ char = '\r' := by
  simpa only [isSpace, Bool.or_eq_true, beq_iff_eq, or_assoc] using space

theorem isSpace_of_isLeading {char : Char} (leading : isLeading char = true) :
    isSpace char = false := by
  by_contra space
  rw [Bool.not_eq_false] at space
  rcases eq_of_isSpace space with rfl | rfl | rfl | rfl <;> exact absurd leading (by decide)

theorem skipSpace_of_isLeading {first : Char} (leading : isLeading first = true)
    (chars : List Char) : skipSpace (first :: chars) = first :: chars :=
  skipSpace_cons first (isSpace_of_isLeading leading) chars

theorem endsNumber_cons (first : Char) (no_scalar : isScalarChar first = false)
    (chars : List Char) : EndsNumber (first :: chars) := by
  rintro _ ⟨⟩
  exact no_scalar

theorem endsNumber_blanks (blanks : Blanks) {rest : List Char} (ends : EndsNumber rest) :
    EndsNumber (blanks.1 ++ rest) := by
  refine forall_head_append (fun first present => ?_) ends
  have space := blanks.2 first (List.mem_of_mem_head? present)
  rcases eq_of_isSpace space with rfl | rfl | rfl | rfl <;> rfl

/-- A value that begins with none of the three opening characters is a word or a number. -/
theorem readValue_scalar (limits : Limits) (first : Char)
    (no_opening : first ∉ ['\x22', '[', '\x7b']) {fuel : Nat} (enough : 0 < fuel) (depth : Nat)
    (chars : List Char) :
    readValue limits fuel depth (first :: chars) = readScalar limits (first :: chars) := by
  have positive : fuel ≠ 0 := by omega
  obtain ⟨fuel, rfl⟩ := Nat.exists_eq_add_one_of_ne_zero positive
  simp only [List.mem_cons, List.not_mem_nil, or_false, not_or] at no_opening
  simp [readValue, no_opening]

end Json

end CodeGraph
