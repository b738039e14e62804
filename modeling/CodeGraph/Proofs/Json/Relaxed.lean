import CodeGraph.Json.Relaxed
import CodeGraph.Proofs.Json.Grammar
import CodeGraph.Proofs.Tables

/-!
# What the relaxed reader makes of JSON

On a text that is JSON already, the relaxed reader finds no comment to drop. It drops commas in
front of closing brackets and braces, and it does so inside of string literals, too. What it reads
is the tree of the text with such commas gone from the literals, so it agrees with the strict reader
on the texts whose literals have none.
-/

namespace CodeGraph

namespace Json

/-- The text without comments and without the commas in front of closing brackets and braces. -/
def relax (chars : List Char) : List Char :=
  dropTrailingCommas (stripFrom .code chars)

/-! ## Commas inside of literals -/

namespace Mark

/-- The mark is a comma that only blanks keep from a closing bracket or brace. -/
def trails (mark : Mark) (marks : List Mark) : Bool :=
  mark.chars == [','] && closesNext (spell marks)

/-- The marks without the commas in front of a closing bracket or brace. -/
def bare : List Mark → List Mark
  | [] => []
  | mark :: marks => if mark.trails marks then bare marks else mark :: bare marks

/-- Some comma among the marks stands in front of a closing bracket or brace. -/
def HoldsTrailingComma (marks : List Mark) : Prop :=
  ∃ before mark after, marks = before ++ mark :: after ∧ mark.trails after = true

variable {mark : Mark} {marks : List Mark}

theorem bare_sublist (marks : List Mark) : (bare marks).Sublist marks := by
  induction marks with
  | nil => exact .refl []
  | cons mark marks ih =>
      rw [bare]
      split
      · exact ih.cons mark
      · exact ih.cons_cons mark

theorem bare_eq_self_iff : bare marks = marks ↔ ¬ HoldsTrailingComma marks := by
  induction marks with
  | nil => simp [bare, HoldsTrailingComma]
  | cons mark marks ih =>
      have split_iff : HoldsTrailingComma (mark :: marks) ↔
          mark.trails marks = true ∨ HoldsTrailingComma marks := by
        constructor
        · rintro ⟨before, comma, after, marks_eq, trails⟩
          rcases List.cons_eq_append_iff.mp marks_eq with ⟨rfl, same⟩ | ⟨front, rfl, rfl⟩
          · obtain ⟨rfl, rfl⟩ := List.cons.inj same
            exact .inl trails
          · exact .inr ⟨front, comma, after, rfl, trails⟩
        · rintro (trails | ⟨before, comma, after, rfl, trails⟩)
          · exact ⟨[], mark, marks, rfl, trails⟩
          · exact ⟨mark :: before, comma, after, rfl, trails⟩
      rw [split_iff, bare]
      split
      next trails =>
        have shorter : bare marks ≠ mark :: marks := by
          intro same
          have le := (bare_sublist marks).length_le
          rw [same, List.length_cons] at le
          omega
        simp [trails, shorter]
      next trails => simp [trails, ih]

/-- A mark that comes behind a comma which is dropped is a character that stands for itself. -/
theorem exists_plain_of_closesNext (closes : closesNext (spell marks) = true) :
    ∃ char ordinary more, marks = .plain char ordinary :: more := by
  cases marks with
  | nil => exact absurd closes (by decide)
  | cons mark marks =>
      cases mark with
      | plain char ordinary => exact ⟨char, ordinary, marks, rfl⟩
      | unit | escape =>
          exact absurd closes (by simp [chars, closesNext, Text.isBlank, Text.blankIntervals])

theorem highOffset_of_trails (trails : mark.trails marks = true) : mark.highOffset = none := by
  cases mark with
  | unit => simp [Mark.trails, chars] at trails
  | escape | plain => rfl

theorem length_settled_of_trails (trails : mark.trails marks = true) (high : Option Nat) :
    (mark.settled high).length = high.toList.length + 1 := by
  cases mark with
  | unit => simp [Mark.trails, chars] at trails
  | escape | plain => cases high <;> rfl

/-- In front of a character that stands for itself, a high surrogate stands alone. -/
theorem length_decode_of_closesNext (closes : closesNext (spell marks) = true) (high : Option Nat) :
    (decode high marks).length = high.toList.length + (decode none marks).length := by
  obtain ⟨char, ordinary, more, rfl⟩ := exists_plain_of_closesNext closes
  cases high with
  | none => simp
  | some offset => simp [decode, Mark.settled, Nat.add_comm]

/-- A dropped mark takes its own character away and no other one. -/
theorem length_decode_bare (high : Option Nat) (marks : List Mark) :
    (decode high (bare marks)).length + marks.length
      = (decode high marks).length + (bare marks).length := by
  induction marks generalizing high with
  | nil => rfl
  | cons mark marks ih =>
      rw [bare]
      split
      next trails =>
        have closes : closesNext (spell marks) = true := by
          simp only [Mark.trails, Bool.and_eq_true] at trails
          exact trails.2
        have later := ih high
        rw [length_decode_of_closesNext closes high] at later
        rw [decode, highOffset_of_trails trails, List.length_append, List.length_cons,
          length_settled_of_trails trails high]
        omega
      next =>
        have later := ih mark.highOffset
        simp only [decode, List.length_append, List.length_cons]
        omega

/-- A literal keeps its text exactly if no comma is dropped from it. -/
theorem decode_bare_iff : decode none (bare marks) = decode none marks ↔ bare marks = marks := by
  refine ⟨fun same => (bare_sublist marks).eq_of_length ?_, fun same => by rw [same]⟩
  have lengths := length_decode_bare none marks
  rw [same] at lengths
  omega

end Mark

/-! ## The text around literals -/

/-- Characters that stay wherever they stand, and change nothing for those behind them, stay
together. -/
theorem stripFrom_append {mode : CommentMode} {chars : List Char}
    (stay : ∀ char ∈ chars, ∀ rest, stripFrom mode (char :: rest) = char :: stripFrom mode rest)
    (rest : List Char) : stripFrom mode (chars ++ rest) = chars ++ stripFrom mode rest := by
  induction chars with
  | nil => rfl
  | cons first chars ih =>
      obtain ⟨stays, stay⟩ := List.forall_mem_cons.mp stay
      rw [List.cons_append, stays, ih stay, List.cons_append]

theorem stripFrom_code_append {chars : List Char}
    (plain : ∀ char ∈ chars, char ≠ '\x22' ∧ char ≠ '/') (rest : List Char) :
    stripFrom .code (chars ++ rest) = chars ++ stripFrom .code rest := by
  refine stripFrom_append (fun char present rest => ?_) rest
  obtain ⟨no_quote, no_slash⟩ := plain char present
  rw [stripFrom] <;> simp_all

theorem dropTrailingCommas_append {chars : List Char} (no_comma : ',' ∉ chars) (rest : List Char) :
    dropTrailingCommas (chars ++ rest) = chars ++ dropTrailingCommas rest := by
  induction chars with
  | nil => rfl
  | cons first chars ih =>
      obtain ⟨no_comma, later⟩ := not_or.mp (List.mem_cons.not.mp no_comma)
      simp [dropTrailingCommas, Ne.symm no_comma, ih later]

/-- Characters that begin no literal and no comment and are no commas stay. -/
theorem relax_append {chars : List Char}
    (plain : ∀ char ∈ chars, char ≠ '\x22' ∧ char ≠ '/' ∧ char ≠ ',') (rest : List Char) :
    relax (chars ++ rest) = chars ++ relax rest := by
  have no_comma : ',' ∉ chars := fun present => (plain _ present).2.2 rfl
  rw [relax, stripFrom_code_append fun char present => ⟨(plain char present).1,
    (plain char present).2.1⟩, dropTrailingCommas_append no_comma, relax]

theorem isBlank_of_isSpace {char : Char} (space : isSpace char = true) :
    Text.isBlank char = true := by
  rcases eq_of_isSpace space with rfl | rfl | rfl | rfl <;> decide

theorem isBlank_of_isLeading {char : Char} (leading : isLeading char = true) :
    Text.isBlank char = false := by
  have code : 0x22 ≤ char.toNat ∧ char.toNat ≤ 0x7B := by
    simp only [isLeading, isScalarChar] at leading
    delta Char.isAlphanum Char.isAlpha Char.isUpper Char.isLower Char.isDigit at leading
    simp only [Bool.or_eq_true, Bool.and_eq_true, decide_eq_true_eq, beq_iff_eq,
      UInt32.le_iff_toNat_le] at leading
    rcases leading with
      (((((((⟨low, high⟩ | ⟨low, high⟩) | ⟨low, high⟩) | rfl) | rfl) | rfl) | rfl) | rfl) | rfl
    iterate 3 exact ⟨Nat.le_trans (by decide) low, Nat.le_trans high (by decide)⟩
    all_goals decide
  by_contra blank
  simp only [Bool.not_eq_false, Text.isBlank, Text.blankIntervals, List.any_cons, List.any_nil,
    Bool.or_false, Bool.or_eq_true, Bool.and_eq_true, decide_eq_true_eq] at blank
  omega

theorem relax_blanks (blanks : Blanks) (rest : List Char) :
    relax (blanks.1 ++ rest) = blanks.1 ++ relax rest := by
  refine relax_append (fun char present => ?_) rest
  rcases eq_of_isSpace (blanks.2 char present) with rfl | rfl | rfl | rfl <;> decide

theorem relax_scalar {chars : List Char} (scalar : ∀ char ∈ chars, isScalarChar char = true)
    (rest : List Char) : relax (chars ++ rest) = chars ++ relax rest := by
  refine relax_append (fun char present => ?_) rest
  have kind := scalar char present
  refine ⟨?_, ?_, ?_⟩ <;> rintro rfl <;> exact absurd kind (by decide)

/-- A comma in front of another item or member stays. -/
theorem relax_comma (before : Blanks) {inside : List Char}
    (leads : ∃ first tail, inside = first :: tail ∧ isLeading first = true) (rest : List Char) :
    relax (',' :: (before.1 ++ (inside ++ rest)))
      = ',' :: (before.1 ++ relax (inside ++ rest)) := by
  have blanks_plain : ∀ char ∈ before.1, char ≠ '\x22' ∧ char ≠ '/' := by
    intro char present
    rcases eq_of_isSpace (before.2 char present) with rfl | rfl | rfl | rfl <;> decide
  obtain ⟨first, tail, rfl, leading⟩ := leads
  obtain ⟨more, stripped⟩ : ∃ more, stripFrom .code (first :: tail ++ rest) = first :: more := by
    by_cases quote : first = '\x22'
    · subst quote
      exact ⟨_, rfl⟩
    · have no_slash : first ≠ '/' := by
        rintro rfl
        exact absurd leading (by decide)
      have alone : ∀ char ∈ [first], char ≠ '\x22' ∧ char ≠ '/' := by
        simpa using ⟨quote, no_slash⟩
      exact ⟨_, stripFrom_code_append alone (tail ++ rest)⟩
  have opens : closesNext (before.1 ++ first :: more) = false := by
    have blank := fun char present => isBlank_of_isSpace (before.2 char present)
    have no_closing : first ≠ '\x7d' ∧ first ≠ ']' := by
      constructor <;> rintro rfl <;> exact absurd leading (by decide)
    rw [closesNext, List.dropWhile_append_of_pos blank, List.dropWhile_cons_of_neg]
    · simp [no_closing]
    · simp [isBlank_of_isLeading leading]
  have stays : stripFrom .code (',' :: (before.1 ++ (first :: tail ++ rest)))
      = ',' :: (before.1 ++ first :: more) := by
    rw [← stripped, ← stripFrom_code_append blanks_plain]
    rfl
  have no_comma : ',' ∉ before.1 := fun present =>
    absurd (before.2 ',' present) (by decide)
  rw [relax, stays, dropTrailingCommas, opens, Bool.and_false, if_neg (by decide),
    dropTrailingCommas_append no_comma, relax, stripped]

/-! ## The text of literals -/

theorem isSome_hexValue?_of_unit? {first second third fourth : Char} {code : Nat}
    (spelled : unit? first second third fourth = some code) :
    ∀ digit ∈ [first, second, third, fourth], (hexValue? digit).isSome := by
  simp only [unit?, Option.bind_eq_bind, Option.bind_eq_some_iff] at spelled
  obtain ⟨_, first_eq, _, second_eq, _, third_eq, _, fourth_eq, _⟩ := spelled
  simp [first_eq, second_eq, third_eq, fourth_eq]

namespace Mark

theorem chars_eq_comma_or (mark : Mark) : mark.chars = [','] ∨ ',' ∉ mark.chars := by
  cases mark with
  | unit first second third fourth code spelled =>
      refine .inr fun present => ?_
      rcases List.mem_cons.mp present with slash | present
      · exact absurd slash (by decide)
      · rcases List.mem_cons.mp present with letter | digit
        · exact absurd letter (by decide)
        · exact absurd (isSome_hexValue?_of_unit? spelled ',' digit) (by decide)
  | escape letter char named =>
      refine .inr fun present => ?_
      simp only [chars, List.mem_cons, List.not_mem_nil, or_false] at present
      rcases present with slash | rfl
      · exact absurd slash (by decide)
      · exact absurd named (by simp [escaped?])
  | plain char ordinary =>
      by_cases comma : char = ','
      · exact .inl (by rw [chars, comma])
      · exact .inr (by simpa [chars] using Ne.symm comma)

theorem stripFrom_literal_append {chars : List Char}
    (plain : ∀ char ∈ chars, char ≠ '\x22' ∧ char ≠ '\\') (rest : List Char) :
    stripFrom .literal (chars ++ rest) = chars ++ stripFrom .literal rest := by
  refine stripFrom_append (fun char present rest => ?_) rest
  obtain ⟨no_quote, no_slash⟩ := plain char present
  rw [stripFrom] <;> simp_all

theorem stripFrom_literal_chars (mark : Mark) (rest : List Char) :
    stripFrom .literal (mark.chars ++ rest) = mark.chars ++ stripFrom .literal rest := by
  cases mark with
  | unit first second third fourth code spelled =>
      have digits : ∀ digit ∈ [first, second, third, fourth], digit ≠ '\x22' ∧ digit ≠ '\\' := by
        intro digit present
        have hex := isSome_hexValue?_of_unit? spelled digit present
        constructor <;> rintro rfl <;> exact absurd hex (by decide)
      exact congrArg ('\\' :: 'u' :: ·) (stripFrom_literal_append digits rest)
  | escape letter char named => rfl
  | plain char ordinary =>
      have plain : ∀ other ∈ [char], other ≠ '\x22' ∧ other ≠ '\\' := by
        simpa using ⟨ordinary.1, ordinary.2.1⟩
      exact stripFrom_literal_append plain rest

theorem stripFrom_literal_spell (marks : List Mark) (rest : List Char) :
    stripFrom .literal (spell marks ++ '\x22' :: rest)
      = spell marks ++ '\x22' :: stripFrom .code rest := by
  induction marks with
  | nil => simp [stripFrom]
  | cons mark marks ih =>
      rw [spell_cons, List.append_assoc, stripFrom_literal_chars, ih, List.append_assoc]

theorem closesNext_append_quote (chars rest : List Char) :
    closesNext (chars ++ '\x22' :: rest) = closesNext chars := by
  induction chars with
  | nil => rfl
  | cons first chars ih =>
      unfold closesNext at ih ⊢
      cases blank : Text.isBlank first with
      | true =>
          rw [List.cons_append, List.dropWhile_cons_of_pos blank, List.dropWhile_cons_of_pos blank,
            ih]
      | false => simp [blank]

theorem dropTrailingCommas_spell (marks : List Mark) (rest : List Char) :
    dropTrailingCommas (spell marks ++ '\x22' :: rest)
      = spell (bare marks) ++ '\x22' :: dropTrailingCommas rest := by
  induction marks with
  | nil => rfl
  | cons mark marks ih =>
      rcases mark.chars_eq_comma_or with comma | no_comma
      · rw [spell_cons, comma, List.append_assoc, List.singleton_append, dropTrailingCommas,
          closesNext_append_quote, bare, Mark.trails, comma]
        simp only [beq_self_eq_true, Bool.true_and]
        split
        · exact ih
        · rw [ih, spell_cons, comma]
          rfl
      · have stays : mark.trails marks = false := by
          have ne : mark.chars ≠ [','] := fun same => no_comma (by simp [same])
          simp [Mark.trails, ne]
        rw [spell_cons, List.append_assoc, dropTrailingCommas_append no_comma, ih, bare, stays,
          if_neg (by decide), spell_cons, List.append_assoc]

end Mark

/-- A literal loses its commas in front of closing brackets and braces. -/
theorem relax_quoted (marks : List Mark) (rest : List Char) :
    relax (quoted marks ++ rest) = quoted (Mark.bare marks) ++ relax rest := by
  rw [quoted_append, quoted_append, relax, stripFrom, Mark.stripFrom_literal_spell,
    dropTrailingCommas, Mark.dropTrailingCommas_spell]
  rfl

/-! ## The tree without commas inside of literals -/

variable {limits : Limits}

namespace Written

mutual

/-- The value as it is written, without the commas in its literals that are dropped. -/
def bare : Written limits → Written limits
  | scalar word => scalar word
  | literal marks => literal (Mark.bare marks)
  | emptyList inside => emptyList inside
  | list before items => list before items.bare
  | emptyObject inside => emptyObject inside
  | object before members => object before members.bare

/-- The items without the commas in their literals that are dropped. -/
def Items.bare : Items limits → Items limits
  | .last item after => .last item.bare after
  | .more item after before items => .more item.bare after before items.bare

/-- The members without the commas in their literals that are dropped. -/
def Members.bare : Members limits → Members limits
  | .last name value after => .last { name with marks := Mark.bare name.marks } value.bare after
  | .more name value after before members =>
      .more { name with marks := Mark.bare name.marks } value.bare after before members.bare

end

mutual

/-- The string literals in the order in which they are written, member names among them. -/
def literals : Written limits → List (List Mark)
  | scalar _ | emptyList _ | emptyObject _ => []
  | literal marks => [marks]
  | list _ items => items.literals
  | object _ members => members.literals

/-- The string literals of items. -/
def Items.literals : Items limits → List (List Mark)
  | .last item _ => item.literals
  | .more item _ _ items => item.literals ++ items.literals

/-- The string literals of members. -/
def Members.literals : Members limits → List (List Mark)
  | .last name value _ => name.marks :: value.literals
  | .more name value _ _ members => name.marks :: (value.literals ++ members.literals)

end

mutual

/-- No object names a member twice. -/
def NamesOnce : Written limits → Prop
  | scalar _ | literal _ | emptyList _ | emptyObject _ => True
  | list _ items => items.NamesOnce
  | object _ members => (Ordered.keys members.entries).Nodup ∧ members.NamesOnce

/-- No object in the items names a member twice. -/
def Items.NamesOnce : Items limits → Prop
  | .last item _ => item.NamesOnce
  | .more item _ _ items => item.NamesOnce ∧ items.NamesOnce

/-- No object in the values of the members names a member twice. -/
def Members.NamesOnce : Members limits → Prop
  | .last _ value _ => value.NamesOnce
  | .more _ value _ _ members => value.NamesOnce ∧ members.NamesOnce

end

mutual

theorem nesting_bare : ∀ written : Written limits, written.bare.nesting = written.nesting
  | scalar _ | literal _ | emptyList _ | emptyObject _ => rfl
  | list _ items => congrArg (· + 1) items.nesting_bare
  | object _ members => congrArg (· + 1) members.nesting_bare

theorem Items.nesting_bare : ∀ items : Items limits, items.bare.nesting = items.nesting
  | .last item _ => item.nesting_bare
  | .more item _ _ items => congrArg₂ max item.nesting_bare items.nesting_bare

theorem Members.nesting_bare : ∀ members : Members limits, members.bare.nesting = members.nesting
  | .last _ value _ => value.nesting_bare
  | .more _ value _ _ members => congrArg₂ max value.nesting_bare members.nesting_bare

end

end Written

theorem relax_token (token : Char) (plain : token ≠ '\x22' ∧ token ≠ '/' ∧ token ≠ ',')
    (rest : List Char) : relax (token :: rest) = token :: relax rest := by
  have alone : ∀ char ∈ [token], char ≠ '\x22' ∧ char ≠ '/' ∧ char ≠ ',' := by simpa using plain
  exact relax_append alone rest

theorem relax_name (name : MemberName) (rest : List Char) :
    relax (name.chars ++ rest)
      = MemberName.chars { name with marks := Mark.bare name.marks } ++ relax rest := by
  simp only [MemberName.chars, List.append_assoc, List.cons_append, relax_quoted, relax_blanks,
    relax_token ':' (by decide)]

mutual

/-- The relaxed reader sees a value without the commas in its literals that it drops. -/
theorem relax_chars : ∀ (written : Written limits) (rest : List Char),
    relax (written.chars ++ rest) = written.bare.chars ++ relax rest
  | .scalar word, rest => relax_scalar word.taken.chars rest
  | .literal marks, rest => relax_quoted marks rest
  | .emptyList inside, rest => by
      simp only [Written.chars, Written.bare, List.cons_append, List.append_assoc, List.nil_append,
        relax_token '[' (by decide), relax_blanks, relax_token ']' (by decide)]
  | .list before items, rest => by
      simp only [Written.chars, Written.bare, List.cons_append, List.append_assoc,
        relax_token '[' (by decide), relax_blanks, relax_chars_items items rest]
  | .emptyObject inside, rest => by
      simp only [Written.chars, Written.bare, List.cons_append, List.append_assoc, List.nil_append,
        relax_token '\x7b' (by decide), relax_blanks, relax_token '\x7d' (by decide)]
  | .object before members, rest => by
      simp only [Written.chars, Written.bare, List.cons_append, List.append_assoc,
        relax_token '\x7b' (by decide), relax_blanks, relax_chars_members members rest]

theorem relax_chars_items : ∀ (items : Written.Items limits) (rest : List Char),
    relax (items.chars ++ rest) = items.bare.chars ++ relax rest
  | .last item after, rest => by
      simp only [Written.Items.chars, Written.Items.bare, List.cons_append, List.append_assoc,
        List.nil_append, relax_chars item, relax_blanks, relax_token ']' (by decide)]
  | .more item after before items, rest => by
      simp only [Written.Items.chars, Written.Items.bare, List.cons_append, List.append_assoc,
        relax_chars item, relax_blanks, relax_comma before items.exists_leading rest,
        relax_chars_items items rest]

theorem relax_chars_members : ∀ (members : Written.Members limits) (rest : List Char),
    relax (members.chars ++ rest) = members.bare.chars ++ relax rest
  | .last name value after, rest => by
      simp only [Written.Members.chars, Written.Members.bare, List.cons_append, List.append_assoc,
        List.nil_append, relax_name, relax_chars value, relax_blanks,
        relax_token '\x7d' (by decide)]
  | .more name value after before members, rest => by
      simp only [Written.Members.chars, Written.Members.bare, List.cons_append, List.append_assoc,
        relax_name, relax_chars value, relax_blanks, relax_comma before members.exists_leading rest,
        relax_chars_members members rest]

end

mutual

theorem Written.bare_eq_self : ∀ {written : Written limits},
    (∀ literal ∈ written.literals, Mark.bare literal = literal) → written.bare = written
  | .scalar _, _ | .emptyList _, _ | .emptyObject _, _ => rfl
  | .literal marks, kept => congrArg Written.literal (kept marks List.mem_cons_self)
  | .list before _, kept => congrArg (Written.list before) (Written.Items.bare_eq_self kept)
  | .object before _, kept => congrArg (Written.object before) (Written.Members.bare_eq_self kept)

theorem Written.Items.bare_eq_self : ∀ {items : Written.Items limits},
    (∀ literal ∈ items.literals, Mark.bare literal = literal) → items.bare = items
  | .last item after, kept => congrArg (Written.Items.last · after) (Written.bare_eq_self kept)
  | .more item after before items, kept => by
      obtain ⟨item_kept, items_kept⟩ := List.forall_mem_append.mp kept
      rw [Written.Items.bare, Written.bare_eq_self item_kept, Written.Items.bare_eq_self items_kept]

theorem Written.Members.bare_eq_self : ∀ {members : Written.Members limits},
    (∀ literal ∈ members.literals, Mark.bare literal = literal) → members.bare = members
  | .last name value after, kept => by
      obtain ⟨name_kept, value_kept⟩ := List.forall_mem_cons.mp kept
      rw [Written.Members.bare, name_kept, Written.bare_eq_self value_kept]
  | .more name value after before members, kept => by
      obtain ⟨name_kept, kept⟩ := List.forall_mem_cons.mp kept
      obtain ⟨value_kept, members_kept⟩ := List.forall_mem_append.mp kept
      rw [Written.Members.bare, name_kept, Written.bare_eq_self value_kept,
        Written.Members.bare_eq_self members_kept]

end

theorem Written.Members.length_entries_bare : ∀ members : Written.Members limits,
    members.bare.entries.length = members.entries.length
  | .last _ _ _ => rfl
  | .more _ _ _ _ members => congrArg (· + 1) members.length_entries_bare

theorem unquoted_bare_iff {marks : List Mark} :
    unquoted (Mark.bare marks) = unquoted marks ↔ Mark.bare marks = marks := by
  rw [unquoted, unquoted, String.ofList_inj, Mark.decode_bare_iff]

-- A member whose name comes to clash with another one's would make the object shorter, so the
-- members can be compared one by one.
mutual

theorem Written.literals_kept : ∀ {written : Written limits}, written.NamesOnce →
    written.bare.value = written.value → ∀ literal ∈ written.literals, Mark.bare literal = literal
  | .scalar _, _, _ | .emptyList _, _, _ | .emptyObject _, _, _ => fun _ present => nomatch present
  | .literal marks, _, same => by
      have kept := unquoted_bare_iff.mp (Json.text.inj same)
      simpa [Written.literals] using kept
  | .list _ items, once, same => Written.Items.literals_kept once (Json.list.inj same)
  | .object _ members, ⟨names, once⟩, same => by
      have entries_eq : Ordered.setAll [] members.entries = members.entries :=
        Ordered.setAll_of_nodup names
      have bare_eq : Ordered.setAll [] members.bare.entries = members.entries :=
        (Json.object.inj same).trans entries_eq
      have added : Ordered.setAll [] members.bare.entries = members.bare.entries :=
        Ordered.setAll_eq_append_of_length <| by
          rw [bare_eq, ← members.length_entries_bare, List.length_nil, Nat.zero_add]
      exact Written.Members.literals_kept once (added.symm.trans bare_eq)

theorem Written.Items.literals_kept : ∀ {items : Written.Items limits}, items.NamesOnce →
    items.bare.values = items.values → ∀ literal ∈ items.literals, Mark.bare literal = literal
  | .last _ _, once, same => Written.literals_kept once (List.cons.inj same).1
  | .more _ _ _ _, ⟨item_once, items_once⟩, same => by
      obtain ⟨item_same, items_same⟩ := List.cons.inj same
      exact List.forall_mem_append.mpr ⟨Written.literals_kept item_once item_same,
        Written.Items.literals_kept items_once items_same⟩

theorem Written.Members.literals_kept : ∀ {members : Written.Members limits}, members.NamesOnce →
    members.bare.entries = members.entries →
    ∀ literal ∈ members.literals, Mark.bare literal = literal
  | .last _ _ _, once, same => by
      obtain ⟨name_same, value_same⟩ := Prod.mk.inj (List.cons.inj same).1
      exact List.forall_mem_cons.mpr
        ⟨unquoted_bare_iff.mp name_same, Written.literals_kept once value_same⟩
  | .more _ _ _ _ _, ⟨value_once, members_once⟩, same => by
      obtain ⟨first_same, members_same⟩ := List.cons.inj same
      obtain ⟨name_same, value_same⟩ := Prod.mk.inj first_same
      exact List.forall_mem_cons.mpr ⟨unquoted_bare_iff.mp name_same, List.forall_mem_append.mpr
        ⟨Written.literals_kept value_once value_same,
          Written.Members.literals_kept members_once members_same⟩⟩

end

namespace Document

/-- The text without the commas in its literals that are dropped. -/
def bare (document : Document limits) : Document limits :=
  { document with
    root := document.root.bare
    fits := by rw [document.root.nesting_bare]; exact document.fits }

theorem relax_chars (document : Document limits) : relax document.chars = document.bare.chars := by
  have behind : relax document.after.1 = document.after.1 := by
    simpa [relax, stripFrom, dropTrailingCommas] using relax_blanks document.after []
  rw [chars, relax_blanks, Json.relax_chars, behind]
  rfl

end Document

/-- On a JSON text, the relaxed reader gives what the text says without the commas that stand in its
literals in front of a closing bracket or brace. It agrees with the strict reader if no literal has
such a comma, and in a text without repeated member names only then. -/
theorem parseRelaxed_of_parse {text : String} {value : Json}
    (parsed : parse limits text = .ok value) :
    (∃ document : Document limits, document.chars = text.toList) ∧
      ∀ document : Document limits, document.chars = text.toList →
        document.value = value ∧ parseRelaxed limits text = .ok document.bare.value ∧
          ((∀ literal ∈ document.root.literals, ¬ Mark.HoldsTrailingComma literal) →
            parseRelaxed limits text = .ok value) ∧
          (document.root.NamesOnce → parseRelaxed limits text = .ok value →
            ∀ literal ∈ document.root.literals, ¬ Mark.HoldsTrailingComma literal) := by
  obtain ⟨written, chars_eq, _⟩ := parseChars_eq_ok_iff.mp parsed
  refine ⟨⟨written, chars_eq⟩, fun document spelled => ?_⟩
  have value_eq : document.value = value := by
    have read := parseChars_document document
    rw [spelled] at read
    exact Except.ok.inj (read.symm.trans parsed)
  have relaxed : parseRelaxed limits text = .ok document.bare.value := by
    have read := parseChars_document document.bare
    rwa [← document.relax_chars, spelled] at read
  refine ⟨value_eq, relaxed, fun free => ?_, fun once agrees literal present => ?_⟩
  · have root_eq : document.root.bare = document.root :=
      Written.bare_eq_self fun literal present => Mark.bare_eq_self_iff.mpr (free literal present)
    rw [relaxed, ← value_eq, Document.value, Document.value]
    exact congrArg (Except.ok ·.value) root_eq
  · have same : document.root.bare.value = document.root.value := by
      rw [relaxed, ← value_eq] at agrees
      exact Except.ok.inj agrees
    exact Mark.bare_eq_self_iff.mp (Written.literals_kept once same literal present)

/-- A comma and a bracket in a literal: the strict reader keeps both, and the relaxed one does not.
-/
theorem parseRelaxed_loses_comma :
    parse {} "[\",]\"]" = .ok (.list [.text ",]"]) ∧
      parseRelaxed {} "[\",]\"]" = .ok (.list [.text "]"]) ∧
      ∃ document : Document {}, document.chars = "[\",]\"]".toList ∧
        ∃ literal ∈ document.root.literals, Mark.HoldsTrailingComma literal := by
  have parsed : parse {} "[\",]\"]" = .ok (.list [.text ",]"]) := by rfl
  have relaxed : parseRelaxed {} "[\",]\"]" = .ok (.list [.text "]"]) := by rfl
  obtain ⟨⟨document, spelled⟩, described⟩ := parseRelaxed_of_parse parsed
  refine ⟨parsed, relaxed, document, spelled, ?_⟩
  by_contra free
  simp only [not_exists, not_and] at free
  have agrees := (described document spelled).2.2.1 free
  rw [relaxed] at agrees
  simp at agrees

end Json

end CodeGraph
