import CodeGraph.Proofs.Json.Tokens

/-!
# The grammar of JSON texts

A JSON text is spelled by a tree that keeps what the value forgets: the blanks, the marks of the
string literals, and the members that a later one of the same name replaces. The reader accepts
just the texts that such a tree spells, and gives the value of the tree.
-/

namespace CodeGraph

namespace Json

/-! ## Texts as trees -/

/-- A word or a number as it is written. -/
structure Scalar (limits : Limits) where
  chars : List Char
  value : Json
  some_char : chars ≠ []
  taken : Taken (readScalar limits) (fun rest => .ok (value, rest)) EndsNumber chars

/-- What stands in front of the value of a member: its name in quotes, and a colon. -/
structure MemberName where
  marks : List Mark
  behindName : Blanks
  behindColon : Blanks

/-- A string literal as it is written. -/
def quoted (marks : List Mark) : List Char :=
  '\x22' :: (Mark.spell marks ++ ['\x22'])

/-- The text of a string literal. -/
def unquoted (marks : List Mark) : String :=
  String.ofList (Mark.decode none marks)

/-- The name and the colon as they are written. -/
def MemberName.chars (name : MemberName) : List Char :=
  quoted name.marks ++ (name.behindName.1 ++ ':' :: name.behindColon.1)

mutual

/-- A value as it is written. -/
inductive Written (limits : Limits) where
  | scalar (scalar : Scalar limits)
  | literal (marks : List Mark)
  | emptyList (inside : Blanks)
  | list (before : Blanks) (items : Written.Items limits)
  | emptyObject (inside : Blanks)
  | object (before : Blanks) (members : Written.Members limits)

/-- The items of an array as they are written, up to the closing bracket. -/
inductive Written.Items (limits : Limits) where
  | last (item : Written limits) (after : Blanks)
  | more (item : Written limits) (after before : Blanks) (items : Written.Items limits)

/-- The members of an object as they are written, up to the closing brace. -/
inductive Written.Members (limits : Limits) where
  | last (name : MemberName) (value : Written limits) (after : Blanks)
  | more (name : MemberName) (value : Written limits) (after before : Blanks)
      (members : Written.Members limits)

end

variable {limits : Limits}

namespace Written

mutual

/-- The characters of a written value. -/
def chars : Written limits → List Char
  | scalar word => word.chars
  | literal marks => quoted marks
  | emptyList inside => '[' :: (inside.1 ++ [']'])
  | list before items => '[' :: (before.1 ++ items.chars)
  | emptyObject inside => '\x7b' :: (inside.1 ++ ['\x7d'])
  | object before members => '\x7b' :: (before.1 ++ members.chars)

/-- The characters of written items and of the closing bracket. -/
def Items.chars : Items limits → List Char
  | .last item after => item.chars ++ (after.1 ++ [']'])
  | .more item after before items => item.chars ++ (after.1 ++ ',' :: (before.1 ++ items.chars))

/-- The characters of written members and of the closing brace. -/
def Members.chars : Members limits → List Char
  | .last name value after => name.chars ++ (value.chars ++ (after.1 ++ ['\x7d']))
  | .more name value after before members =>
      name.chars ++ (value.chars ++ (after.1 ++ ',' :: (before.1 ++ members.chars)))

end

mutual

/-- The value that is written. -/
def value : Written limits → Json
  | scalar word => word.value
  | literal marks => .text (unquoted marks)
  | emptyList _ => .list []
  | list _ items => .list items.values
  | emptyObject _ => .object []
  | object _ members => ofMembers members.entries

/-- The values of written items. -/
def Items.values : Items limits → List Json
  | .last item _ => [item.value]
  | .more item _ _ items => item.value :: items.values

/-- The names and the values of written members. -/
def Members.entries : Members limits → List (String × Json)
  | .last name value _ => [(unquoted name.marks, value.value)]
  | .more name value _ _ members => (unquoted name.marks, value.value) :: members.entries

end

mutual

/-- How many arrays and objects stand inside of each other. -/
def nesting : Written limits → Nat
  | scalar _ | literal _ => 0
  | emptyList _ | emptyObject _ => 1
  | list _ items => items.nesting + 1
  | object _ members => members.nesting + 1

/-- How many arrays and objects stand inside of each other in an item. -/
def Items.nesting : Items limits → Nat
  | .last item _ => item.nesting
  | .more item _ _ items => max item.nesting items.nesting

/-- How many arrays and objects stand inside of each other in a member. -/
def Members.nesting : Members limits → Nat
  | .last _ value _ => value.nesting
  | .more _ value _ _ members => max value.nesting members.nesting

end

end Written

/-! ## What is read is written -/

theorem excludesDepth_of_le {inner outer : Nat} (le : inner ≤ outer)
    (fits : limits.excludesDepth outer = false) : limits.excludesDepth inner = false := by
  unfold Limits.excludesDepth at fits ⊢
  cases depth_eq : limits.depth with
  | none => rfl
  | some depth =>
      simp only [depth_eq, Option.any_some, decide_eq_false_iff_not] at fits ⊢
      omega

theorem excludesDepth_max {depth inner outer : Nat}
    (inner_fits : limits.excludesDepth (depth + inner) = false)
    (outer_fits : limits.excludesDepth (depth + outer) = false) :
    limits.excludesDepth (depth + max inner outer) = false := by
  rcases Nat.le_total inner outer with le | le
  · rwa [Nat.max_eq_right le]
  · rwa [Nat.max_eq_left le]

/-- A name that is read, and the colon behind it, are written. -/
theorem exists_memberName_of_readString {name rest afterName afterColon : List Char}
    (name_read : readString none rest = some (name, afterName))
    (colon : skipSpace afterName = ':' :: afterColon) :
    ∃ head : MemberName, '\x22' :: rest = head.chars ++ skipSpace afterColon ∧
      Mark.decode none head.marks = name := by
  obtain ⟨marks, rest_eq, name_eq⟩ := exists_marks_of_readString name_read
  obtain ⟨behindName, afterName_eq⟩ := exists_blanks afterName
  obtain ⟨behindColon, afterColon_eq⟩ := exists_blanks afterColon
  rw [colon, afterColon_eq] at afterName_eq
  refine ⟨⟨marks, behindName, behindColon⟩, ?_, name_eq⟩
  simp [MemberName.chars, quoted, rest_eq, afterName_eq]

mutual

theorem written_of_readValue : ∀ {fuel depth : Nat} {text left : List Char} {value : Json},
    limits.excludesDepth depth = false → readValue limits fuel depth text = .ok (value, left) →
    ∃ written : Written limits, text = written.chars ++ left ∧ written.value = value ∧
      limits.excludesDepth (depth + written.nesting) = false
  | 0, _, _, _, _, _, read => nomatch read
  | fuel + 1, depth, _, left, value, fits, read => by
      unfold readValue at read
      split at read
      next rest =>
        split at read
        next value' left' literal =>
          obtain ⟨rfl, rfl⟩ := Prod.mk.inj (Except.ok.inj read)
          obtain ⟨marks, rfl, rfl⟩ := exists_marks_of_readString literal
          exact ⟨.literal marks, by simp [Written.chars, quoted], rfl, fits⟩
        next => exact nomatch read
      next rest =>
        split at read
        next => exact nomatch read
        next deeper =>
          rw [Bool.not_eq_true] at deeper
          obtain ⟨blanks, rest_eq⟩ := exists_blanks rest
          split at read
          next left' inside_eq =>
            obtain ⟨rfl, rfl⟩ := Prod.mk.inj (Except.ok.inj read)
            rw [inside_eq] at rest_eq
            exact ⟨.emptyList blanks, by simp [Written.chars, rest_eq], rfl, deeper⟩
          next =>
            obtain ⟨⟨items, left⟩, inside_read, same⟩ := map_eq_ok_iff.mp read
            obtain ⟨rfl, rfl⟩ := Prod.mk.inj same
            obtain ⟨written, text_eq, rfl, fits⟩ := written_of_readItems deeper inside_read
            rw [text_eq] at rest_eq
            refine ⟨.list blanks written, by simp [Written.chars, rest_eq], rfl, ?_⟩
            rwa [Written.nesting, Nat.add_comm written.nesting, ← Nat.add_assoc]
      next rest =>
        split at read
        next => exact nomatch read
        next deeper =>
          rw [Bool.not_eq_true] at deeper
          obtain ⟨blanks, rest_eq⟩ := exists_blanks rest
          split at read
          next left' inside_eq =>
            obtain ⟨rfl, rfl⟩ := Prod.mk.inj (Except.ok.inj read)
            rw [inside_eq] at rest_eq
            exact ⟨.emptyObject blanks, by simp [Written.chars, rest_eq], rfl, deeper⟩
          next =>
            obtain ⟨⟨members, left⟩, inside_read, same⟩ := map_eq_ok_iff.mp read
            obtain ⟨rfl, rfl⟩ := Prod.mk.inj same
            obtain ⟨written, text_eq, rfl, fits⟩ := written_of_readMembers deeper inside_read
            rw [text_eq] at rest_eq
            refine ⟨.object blanks written, by simp [Written.chars, rest_eq], rfl, ?_⟩
            rwa [Written.nesting, Nat.add_comm written.nesting, ← Nat.add_assoc]
      next =>
        obtain ⟨part, rfl, some_char, taken⟩ := taken_scalar read
        exact ⟨.scalar ⟨part, value, some_char, taken⟩, rfl, rfl, fits⟩

theorem written_of_readItems : ∀ {fuel depth : Nat} {text left : List Char} {values : List Json},
    limits.excludesDepth depth = false → readItems limits fuel depth text = .ok (values, left) →
    ∃ written : Written.Items limits, text = written.chars ++ left ∧ written.values = values ∧
      limits.excludesDepth (depth + written.nesting) = false
  | 0, _, _, _, _, _, read => nomatch read
  | fuel + 1, depth, _, left, values, fits, read => by
      unfold readItems at read
      split at read
      next => exact nomatch read
      next item rest item_read =>
        obtain ⟨first, rfl, rfl, first_fits⟩ := written_of_readValue fits item_read
        obtain ⟨after, rest_eq⟩ := exists_blanks rest
        split at read
        next left' closing =>
          obtain ⟨rfl, rfl⟩ := Prod.mk.inj (Except.ok.inj read)
          rw [closing] at rest_eq
          exact ⟨.last first after, by simp [Written.Items.chars, rest_eq], rfl, first_fits⟩
        next more comma =>
          obtain ⟨before, more_eq⟩ := exists_blanks more
          obtain ⟨⟨others, left⟩, inside_read, same⟩ := map_eq_ok_iff.mp read
          obtain ⟨rfl, rfl⟩ := Prod.mk.inj same
          obtain ⟨written, text_eq, rfl, others_fit⟩ := written_of_readItems fits inside_read
          rw [text_eq] at more_eq
          rw [comma, more_eq] at rest_eq
          exact ⟨.more first after before written, by simp [Written.Items.chars, rest_eq], rfl,
            excludesDepth_max first_fits others_fit⟩
        next => exact nomatch read

theorem written_of_readMembers : ∀ {fuel depth : Nat} {text left : List Char}
    {entries : List (String × Json)},
    limits.excludesDepth depth = false → readMembers limits fuel depth text = .ok (entries, left) →
    ∃ written : Written.Members limits, text = written.chars ++ left ∧ written.entries = entries ∧
      limits.excludesDepth (depth + written.nesting) = false
  | 0, _, _, _, _, _, read => nomatch read
  | fuel + 1, depth, _, left, entries, fits, read => by
      unfold readMembers at read
      split at read
      next rest =>
        split at read
        next => exact nomatch read
        next name afterName name_read =>
          split at read
          next afterColon colon =>
            obtain ⟨head, head_eq, rfl⟩ := exists_memberName_of_readString name_read colon
            split at read
            next => exact nomatch read
            next value rest value_read =>
              obtain ⟨first, value_eq, rfl, first_fits⟩ := written_of_readValue fits value_read
              rw [value_eq] at head_eq
              obtain ⟨after, rest_eq⟩ := exists_blanks rest
              split at read
              next left' closing =>
                obtain ⟨rfl, rfl⟩ := Prod.mk.inj (Except.ok.inj read)
                rw [closing] at rest_eq
                exact ⟨.last head first after, by simp [Written.Members.chars, head_eq, rest_eq],
                  rfl, first_fits⟩
              next more comma =>
                obtain ⟨before, more_eq⟩ := exists_blanks more
                obtain ⟨⟨others, left⟩, inside_read, same⟩ := map_eq_ok_iff.mp read
                obtain ⟨rfl, rfl⟩ := Prod.mk.inj same
                obtain ⟨written, text_eq, rfl, others_fit⟩ :=
                  written_of_readMembers fits inside_read
                rw [text_eq] at more_eq
                rw [comma, more_eq] at rest_eq
                exact ⟨.more head first after before written,
                  by simp [Written.Members.chars, head_eq, rest_eq], rfl,
                  excludesDepth_max first_fits others_fit⟩
              next => exact nomatch read
          next => exact nomatch read
      next => exact nomatch read

end

/-! ## What is written is read -/

theorem quoted_append (marks : List Mark) (rest : List Char) :
    quoted marks ++ rest = '\x22' :: (Mark.spell marks ++ '\x22' :: rest) := by
  simp [quoted]

theorem Written.exists_leading (written : Written limits) :
    ∃ first tail, written.chars = first :: tail ∧ isLeading first = true := by
  cases written with
  | scalar word =>
      obtain ⟨first, tail, chars_eq⟩ := List.exists_cons_of_ne_nil word.some_char
      have scalar := word.taken.chars first (chars_eq ▸ List.mem_cons_self)
      exact ⟨first, tail, chars_eq, by simp [isLeading, scalar]⟩
  | literal | emptyList | list | emptyObject | object => exact ⟨_, _, rfl, rfl⟩

theorem Written.Items.exists_leading (items : Written.Items limits) :
    ∃ first tail, items.chars = first :: tail ∧ isLeading first = true := by
  cases items with
  | last item | more item =>
      obtain ⟨first, tail, chars_eq, leading⟩ := item.exists_leading
      exact ⟨first, _, by rw [Written.Items.chars, chars_eq]; rfl, leading⟩

theorem Written.Members.exists_leading (members : Written.Members limits) :
    ∃ first tail, members.chars = first :: tail ∧ isLeading first = true := by
  cases members <;> exact ⟨_, _, rfl, rfl⟩

theorem skipSpace_leading {chars : List Char}
    (leads : ∃ first tail, chars = first :: tail ∧ isLeading first = true) (rest : List Char) :
    skipSpace (chars ++ rest) = chars ++ rest := by
  obtain ⟨first, tail, rfl, leading⟩ := leads
  exact skipSpace_of_isLeading leading _

variable {fuel depth : Nat} {inside rest : List Char}

theorem readValue_bracket_of_leading (deeper : limits.excludesDepth (depth + 1) = false)
    (before : Blanks) (leads : ∃ first tail, inside = first :: tail ∧ isLeading first = true) :
    readValue limits (fuel + 1) depth ('[' :: (before.1 ++ (inside ++ rest)))
      = (readItems limits fuel (depth + 1) (inside ++ rest)).map fun (items, left) =>
          (.list items, left) := by
  have skipped := skipSpace_leading leads rest
  obtain ⟨first, tail, rfl, leading⟩ := leads
  simp only [List.cons_append] at skipped ⊢
  simp only [readValue, deeper, Bool.false_eq_true, if_false, skipSpace_blanks, skipped]
  split
  next same =>
    obtain ⟨rfl, _⟩ := List.cons.inj same
    exact absurd leading (by decide)
  next => rfl

theorem readValue_brace_of_leading (deeper : limits.excludesDepth (depth + 1) = false)
    (before : Blanks) (leads : ∃ first tail, inside = first :: tail ∧ isLeading first = true) :
    readValue limits (fuel + 1) depth ('\x7b' :: (before.1 ++ (inside ++ rest)))
      = (readMembers limits fuel (depth + 1) (inside ++ rest)).map fun (members, left) =>
          (ofMembers members, left) := by
  have skipped := skipSpace_leading leads rest
  obtain ⟨first, tail, rfl, leading⟩ := leads
  simp only [List.cons_append] at skipped ⊢
  simp only [readValue, deeper, Bool.false_eq_true, if_false, skipSpace_blanks, skipped]
  split
  next same =>
    obtain ⟨rfl, _⟩ := List.cons.inj same
    exact absurd leading (by decide)
  next => rfl

mutual

theorem readValue_chars : ∀ (written : Written limits) (fuel depth : Nat) (rest : List Char),
    written.chars.length ≤ fuel → limits.excludesDepth (depth + written.nesting) = false →
    EndsNumber rest →
    readValue limits fuel depth (written.chars ++ rest) = .ok (written.value, rest)
  | .scalar word, fuel, depth, rest, enough, _, ends => by
      have read := word.taken.read_append rest ends
      obtain ⟨first, tail, chars_eq⟩ := List.exists_cons_of_ne_nil word.some_char
      have scalar := word.taken.chars first (chars_eq ▸ List.mem_cons_self)
      have no_opening : first ∉ ['\x22', '[', '\x7b'] := by
        intro opening
        simp only [List.mem_cons, List.not_mem_nil, or_false] at opening
        rcases opening with rfl | rfl | rfl <;> exact absurd scalar (by decide)
      rw [Written.chars] at enough ⊢
      rw [chars_eq, List.cons_append] at read ⊢
      rw [chars_eq, List.length_cons] at enough
      rw [readValue_scalar limits first no_opening (by omega), read]
      rfl
  | .literal marks, fuel + 1, depth, rest, _, _, _ => by
      simp only [Written.chars, quoted_append, readValue, readString_spell]
      rfl
  | .emptyList inside, fuel + 1, depth, rest, _, fits, _ => by
      simp only [Written.nesting] at fits
      have closing := skipSpace_cons ']' rfl rest
      simp [Written.chars, readValue, fits, skipSpace_blanks, closing, Written.value]
  | .list before items, fuel + 1, depth, rest, enough, fits, _ => by
      simp only [Written.chars, List.length_cons, List.length_append] at enough
      rw [Written.nesting, Nat.add_comm items.nesting, ← Nat.add_assoc] at fits
      have deeper := excludesDepth_of_le (Nat.le_add_right _ _) fits
      have read := readItems_chars items fuel _ rest (by omega) fits
      rw [Written.chars, List.cons_append, List.append_assoc,
        readValue_bracket_of_leading deeper before items.exists_leading, read]
      rfl
  | .emptyObject inside, fuel + 1, depth, rest, _, fits, _ => by
      simp only [Written.nesting] at fits
      have closing := skipSpace_cons '\x7d' rfl rest
      simp [Written.chars, readValue, fits, skipSpace_blanks, closing, Written.value]
  | .object before members, fuel + 1, depth, rest, enough, fits, _ => by
      simp only [Written.chars, List.length_cons, List.length_append] at enough
      rw [Written.nesting, Nat.add_comm members.nesting, ← Nat.add_assoc] at fits
      have deeper := excludesDepth_of_le (Nat.le_add_right _ _) fits
      have read := readMembers_chars members fuel _ rest (by omega) fits
      rw [Written.chars, List.cons_append, List.append_assoc,
        readValue_brace_of_leading deeper before members.exists_leading, read]
      rfl

theorem readItems_chars : ∀ (items : Written.Items limits) (fuel depth : Nat) (rest : List Char),
    items.chars.length ≤ fuel → limits.excludesDepth (depth + items.nesting) = false →
    readItems limits fuel depth (items.chars ++ rest) = .ok (items.values, rest)
  | .last _ _, 0, _, _, enough, _ | .more _ _ _ _, 0, _, _, enough, _ => by
      simp [Written.Items.chars] at enough
  | .last item after, fuel + 1, depth, rest, enough, fits => by
      simp only [Written.Items.chars, List.length_append, List.length_cons] at enough
      have closing := skipSpace_cons ']' rfl rest
      have ends := endsNumber_blanks after (endsNumber_cons ']' rfl rest)
      have read := readValue_chars item fuel _ _ (by omega) fits ends
      simp only [Written.Items.chars, List.append_assoc, List.cons_append, List.nil_append,
        readItems, read, skipSpace_blanks, closing]
      rfl
  | .more item after before items, fuel + 1, depth, rest, enough, fits => by
      simp only [Written.Items.chars, List.length_append, List.length_cons] at enough
      have comma := skipSpace_cons ',' rfl (before.1 ++ (items.chars ++ rest))
      have ends := endsNumber_blanks after
        (endsNumber_cons ',' rfl (before.1 ++ (items.chars ++ rest)))
      have item_fits := excludesDepth_of_le (Nat.add_le_add_left (Nat.le_max_left ..) _) fits
      have items_fit := excludesDepth_of_le (Nat.add_le_add_left (Nat.le_max_right ..) _) fits
      have read := readValue_chars item fuel _ _ (by omega) item_fits ends
      have others := readItems_chars items fuel _ rest (by omega) items_fit
      simp only [Written.Items.chars, List.append_assoc, List.cons_append, readItems, read,
        skipSpace_blanks, comma, skipSpace_leading items.exists_leading, others]
      rfl

theorem readMembers_chars : ∀ (members : Written.Members limits) (fuel depth : Nat)
    (rest : List Char),
    members.chars.length ≤ fuel → limits.excludesDepth (depth + members.nesting) = false →
    readMembers limits fuel depth (members.chars ++ rest) = .ok (members.entries, rest)
  | .last name value after, fuel + 1, depth, rest, enough, fits => by
      simp only [Written.Members.chars, List.length_append, List.length_cons] at enough
      have closing := skipSpace_cons '\x7d' rfl rest
      have ends := endsNumber_blanks after (endsNumber_cons '\x7d' rfl rest)
      have read := readValue_chars value fuel _ _ (by omega) fits ends
      have colon := skipSpace_cons ':' rfl
      simp only [Written.Members.chars, MemberName.chars, List.append_assoc, List.cons_append,
        List.nil_append, quoted_append, readMembers, readString_spell, skipSpace_blanks, colon,
        skipSpace_leading value.exists_leading, read, closing]
      rfl
  | .more name value after before members, fuel + 1, depth, rest, enough, fits => by
      simp only [Written.Members.chars, List.length_append, List.length_cons] at enough
      have comma := skipSpace_cons ',' rfl (before.1 ++ (members.chars ++ rest))
      have ends := endsNumber_blanks after
        (endsNumber_cons ',' rfl (before.1 ++ (members.chars ++ rest)))
      have value_fits := excludesDepth_of_le (Nat.add_le_add_left (Nat.le_max_left ..) _) fits
      have members_fit := excludesDepth_of_le (Nat.add_le_add_left (Nat.le_max_right ..) _) fits
      have read := readValue_chars value fuel _ _ (by omega) value_fits ends
      have others := readMembers_chars members fuel _ rest (by omega) members_fit
      have colon := skipSpace_cons ':' rfl
      simp only [Written.Members.chars, MemberName.chars, List.append_assoc, List.cons_append,
        quoted_append, readMembers, readString_spell, skipSpace_blanks, colon,
        skipSpace_leading value.exists_leading, read, comma,
        skipSpace_leading members.exists_leading, others]
      rfl

end

/-! ## Whole texts -/

/-- A text that is one value with blanks around it. -/
structure Document (limits : Limits) where
  before : Blanks
  root : Written limits
  after : Blanks
  fits : limits.excludesDepth root.nesting = false

namespace Document

/-- The characters of the text. -/
def chars (document : Document limits) : List Char :=
  document.before.1 ++ (document.root.chars ++ document.after.1)

/-- The value of the text. -/
def value (document : Document limits) : Json :=
  document.root.value

end Document

theorem parseChars_document (document : Document limits) :
    parseChars limits document.chars = .ok document.value := by
  obtain ⟨before, root, after, fits⟩ := document
  have skipped : skipSpace (before.1 ++ (root.chars ++ after.1)) = root.chars ++ after.1 := by
    rw [skipSpace_blanks, skipSpace_leading root.exists_leading]
  have behind : skipSpace after.1 = [] := by
    have nothing : skipSpace [] = [] := rfl
    simpa [nothing] using skipSpace_blanks after []
  have ends : EndsNumber after.1 := by
    have nothing : EndsNumber [] := fun _ present => nomatch present
    simpa using endsNumber_blanks after nothing
  have enough : root.chars.length ≤ (before.1 ++ (root.chars ++ after.1)).length + 1 := by
    simp only [List.length_append]
    omega
  have read := readValue_chars root _ 0 after.1 enough (by rwa [Nat.zero_add]) ends
  simp only [parseChars, Document.chars, Document.value, skipped, read, behind, List.isEmpty_nil,
    if_true]

/-- The reader accepts just the texts that a tree spells, and gives the value of the tree. -/
theorem parseChars_eq_ok_iff {chars : List Char} {value : Json} :
    parseChars limits chars = .ok value ↔
      ∃ document : Document limits, document.chars = chars ∧ document.value = value := by
  constructor
  · intro parsed
    unfold parseChars at parsed
    split at parsed
    next value' rest read =>
      split at parsed
      next behind =>
        obtain rfl := Except.ok.inj parsed
        have root_fits : limits.excludesDepth 0 = false := by
          cases depth_eq : limits.depth <;> simp [Limits.excludesDepth, depth_eq]
        obtain ⟨root, text_eq, rfl, fits⟩ := written_of_readValue root_fits read
        obtain ⟨before, chars_eq⟩ := exists_blanks chars
        obtain ⟨after, rest_eq⟩ := exists_blanks rest
        rw [List.isEmpty_iff.mp behind, List.append_nil] at rest_eq
        rw [Nat.zero_add] at fits
        refine ⟨⟨before, root, after, fits⟩, ?_, rfl⟩
        rw [Document.chars, ← rest_eq, ← text_eq, ← chars_eq]
      next => exact nomatch parsed
    next => exact nomatch parsed
  · rintro ⟨document, rfl, rfl⟩
    exact parseChars_document document

end Json

end CodeGraph
