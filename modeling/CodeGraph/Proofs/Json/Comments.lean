import CodeGraph.Proofs.Json.Relaxed
import Mathlib.Data.List.Infix

/-!
# Texts with comments

A text with comments is written in segments: code, comments up to the end of their line, and block
comments. The scanner takes such a text segment by segment and leaves the code. What it leaves of
any text, well written or not, holds no comment: a slash that stays outside of literals is followed
by what came behind it in the text, and this opened no comment.
-/

namespace CodeGraph.Json

/-! ## Segments -/

/-- A unit of a string literal. -/
inductive Stroke where
  /-- A character that neither ends the literal nor escapes another one. -/
  | plain (char : Char) (ordinary : char ≠ '\x22' ∧ char ≠ '\\')
  /-- A backslash with the character that it escapes. -/
  | escaped (char : Char)
deriving DecidableEq

namespace Stroke

/-- The characters of a unit. -/
def chars : Stroke → List Char
  | .plain char _ => [char]
  | .escaped char => ['\\', char]

end Stroke

/-- A part of code. -/
inductive CodePart where
  /-- A complete string literal. -/
  | literal (strokes : List Stroke)
  /-- A character outside of literals. -/
  | outside (char : Char) (no_quote : char ≠ '\x22')
deriving DecidableEq

namespace CodePart

/-- A slash outside of literals. -/
def slash : CodePart := .outside '/' (by decide)

/-- A star outside of literals. -/
def star : CodePart := .outside '*' (by decide)

/-- The characters of a part. -/
def chars : CodePart → List Char
  | .literal strokes => '\x22' :: (strokes.flatMap Stroke.chars ++ ['\x22'])
  | .outside char _ => [char]

/-- The characters of code. -/
def spell (parts : List CodePart) : List Char :=
  parts.flatMap chars

/-- Nothing in the code opens a comment, nor does its end together with a slash behind it. -/
structure Commentless (parts : List CodePart) : Prop where
  /-- There are no two slashes outside of literals. -/
  no_line : ¬ [slash, slash] <:+: parts
  /-- There is no slash with a star outside of literals. -/
  no_block : ¬ [slash, star] <:+: parts
  /-- The code does not end in a slash outside of literals. -/
  no_last : parts.getLast? ≠ some slash

instance (parts : List CodePart) : Decidable (Commentless parts) :=
  decidable_of_iff (¬ [slash, slash] <:+: parts ∧ ¬ [slash, star] <:+: parts
      ∧ parts.getLast? ≠ some slash)
    ⟨fun ⟨no_line, no_block, no_last⟩ => ⟨no_line, no_block, no_last⟩,
      fun ⟨no_line, no_block, no_last⟩ => ⟨no_line, no_block, no_last⟩⟩

end CodePart

/-- A stretch of a text with comments. -/
inductive Segment where
  /-- Code. -/
  | code (parts : List CodePart)
  /-- Two slashes with what they comment out. -/
  | line (body : List Char)
  /-- A comment that a star and a slash end. -/
  | block (body : List Char)

namespace Segment

/-- The characters of a segment. -/
def chars : Segment → List Char
  | .code parts => CodePart.spell parts
  | .line body => '/' :: '/' :: body
  | .block body => '/' :: '*' :: (body ++ ['*', '/'])

/-- What is left of a segment without comments. -/
def codeChars : Segment → List Char
  | .code parts => CodePart.spell parts
  | .line _ | .block _ => []

/-- The text that segments make. -/
def spell (segments : List Segment) : List Char :=
  segments.flatMap chars

/-- The code of a text. -/
def spellCode (segments : List Segment) : List Char :=
  segments.flatMap codeChars

/-- Code opens no comment, a line comment runs up to the end of its line or of the text, and a block
comment ends where a star and a slash come first. -/
def WellWritten : List Segment → Prop
  | [] => True
  | .code parts :: others => CodePart.Commentless parts ∧ WellWritten others
  | .line body :: others =>
      '\n' ∉ body ∧ (spell others = [] ∨ (spell others).head? = some '\n') ∧ WellWritten others
  | .block body :: others => ¬ ['*', '/'] <:+: body ∧ WellWritten others

instance decideWellWritten : (segments : List Segment) → Decidable (WellWritten segments)
  | [] => inferInstanceAs (Decidable True)
  | .code parts :: others =>
      have := decideWellWritten others
      inferInstanceAs (Decidable (CodePart.Commentless parts ∧ WellWritten others))
  | .line body :: others =>
      have := decideWellWritten others
      inferInstanceAs (Decidable ('\n' ∉ body
        ∧ (spell others = [] ∨ (spell others).head? = some '\n') ∧ WellWritten others))
  | .block body :: others =>
      have := decideWellWritten others
      inferInstanceAs (Decidable (¬ ['*', '/'] <:+: body ∧ WellWritten others))

end Segment

/-! ## What the scanner leaves of code -/

/-- A character is followed by none that opens a comment together with it. -/
def Apart (char : Char) (rest : List Char) : Prop :=
  char = '/' → rest.head? ≠ some '/' ∧ rest.head? ≠ some '*'

/-- Outside of literals and comments a character stays that opens neither. -/
theorem stripFrom_code_cons {char : Char} {rest : List Char} (no_quote : char ≠ '\x22')
    (apart : Apart char rest) : stripFrom .code (char :: rest) = char :: stripFrom .code rest := by
  by_cases slash : char = '/'
  · subst slash
    obtain ⟨no_slash, no_star⟩ := apart rfl
    rw [stripFrom]
    · exact fun quote => no_quote quote
    · rintro tail - rfl
      exact no_slash rfl
    · rintro tail - rfl
      exact no_star rfl
  · rw [stripFrom]
    all_goals simp_all

/-- Inside of a literal a character stays that neither ends it nor escapes another one. -/
theorem stripFrom_literal_cons {char : Char} (ordinary : char ≠ '\x22' ∧ char ≠ '\\')
    (rest : List Char) :
    stripFrom .literal (char :: rest) = char :: stripFrom .literal rest := by
  have plain : ∀ other ∈ [char], other ≠ '\x22' ∧ other ≠ '\\' := by simpa using ordinary
  exact Mark.stripFrom_literal_append plain rest

namespace Stroke

theorem stripFrom_literal_chars (stroke : Stroke) (rest : List Char) :
    stripFrom .literal (stroke.chars ++ rest) = stroke.chars ++ stripFrom .literal rest := by
  cases stroke with
  | plain char ordinary => exact stripFrom_literal_cons ordinary rest
  | escaped char => rfl

/-- The scanner passes a literal to its end. -/
theorem stripFrom_literal_flatMap (strokes : List Stroke) (rest : List Char) :
    stripFrom .literal (strokes.flatMap chars ++ '\x22' :: rest)
      = strokes.flatMap chars ++ '\x22' :: stripFrom .code rest := by
  induction strokes with
  | nil => simp [stripFrom]
  | cons stroke strokes ih =>
      rw [List.flatMap_cons, List.append_assoc, stripFrom_literal_chars, ih, List.append_assoc]

end Stroke

namespace CodePart

variable {part : CodePart} {parts : List CodePart}

theorem Commentless.tail (commentless : Commentless (part :: parts)) : Commentless parts where
  no_line inside := commentless.no_line (inside.trans (List.suffix_cons part parts).isInfix)
  no_block inside := commentless.no_block (inside.trans (List.suffix_cons part parts).isInfix)
  no_last last := by
    cases parts with
    | nil => exact nomatch last
    | cons => exact commentless.no_last (by simpa using last)

/-- No part of the code opens a comment together with what comes behind it. -/
theorem Commentless.apart {char : Char} {no_quote : char ≠ '\x22'}
    (commentless : Commentless (.outside char no_quote :: parts)) (rest : List Char) :
    Apart char (spell parts ++ rest) := by
  rintro rfl
  cases parts with
  | nil => exact absurd rfl commentless.no_last
  | cons next parts =>
      cases next with
      | literal strokes => simp [spell, chars]
      | outside other other_no_quote =>
          have opens : ∀ second : CodePart, .outside other other_no_quote = second →
              [slash, second] <:+: slash :: .outside other other_no_quote :: parts := by
            rintro _ rfl
            exact ⟨[], parts, rfl⟩
          constructor
          · rintro head
            obtain rfl : other = '/' := by simpa [spell, chars] using head
            exact commentless.no_line (opens slash rfl)
          · rintro head
            obtain rfl : other = '*' := by simpa [spell, chars] using head
            exact commentless.no_block (opens star rfl)

/-- The scanner leaves code without comments as it is. -/
theorem Commentless.stripFrom (commentless : Commentless parts) (rest : List Char) :
    Json.stripFrom .code (spell parts ++ rest) = spell parts ++ Json.stripFrom .code rest := by
  induction parts with
  | nil => rfl
  | cons part parts ih =>
      rw [spell, List.flatMap_cons, List.append_assoc, List.append_assoc, ← spell,
        ← ih commentless.tail]
      cases part with
      | literal strokes =>
          have passed := Stroke.stripFrom_literal_flatMap strokes (spell parts ++ rest)
          simp [chars, Json.stripFrom, passed]
      | outside char no_quote => exact stripFrom_code_cons no_quote (commentless.apart rest)

end CodePart

/-! ## What the scanner drops -/

/-- A line comment ends in front of the end of its line. -/
theorem stripFrom_line_append {body rest : List Char} (one_line : '\n' ∉ body)
    (ends : rest = [] ∨ rest.head? = some '\n') :
    stripFrom .line (body ++ rest) = stripFrom .code rest := by
  induction body with
  | nil =>
      rcases ends with rfl | ends
      · rfl
      · obtain ⟨tail, rfl⟩ := List.head?_eq_some_iff.mp ends
        rfl
  | cons char body ih =>
      obtain ⟨ne, one_line⟩ := not_or.mp (List.mem_cons.not.mp one_line)
      rw [List.cons_append, stripFrom, ih one_line]
      exact fun same => ne same.symm

/-- A block comment ends where a star and a slash come first. -/
theorem stripFrom_block_append {body : List Char} (open_body : ¬ ['*', '/'] <:+: body)
    (rest : List Char) :
    stripFrom .block (body ++ '*' :: '/' :: rest) = stripFrom .code rest := by
  induction body with
  | nil => rfl
  | cons char body ih =>
      rw [List.cons_append, stripFrom]
      · exact ih fun inside => open_body (inside.trans (List.suffix_cons char body).isInfix)
      · rintro tail rfl closed
        -- The slash behind the star would stand in the body, since a star follows the body.
        cases body with
        | nil => exact absurd (List.cons.inj closed).1 (by decide)
        | cons next body =>
            obtain rfl : next = '/' := (List.cons.inj closed).1
            exact open_body ⟨[], body, rfl⟩

namespace Segment

/-- The scanner leaves the code of a well-written text and nothing else. -/
theorem stripFrom_spell {segments : List Segment} (wellWritten : WellWritten segments) :
    stripFrom .code (spell segments) = spellCode segments := by
  induction segments with
  | nil => rfl
  | cons segment others ih =>
      rw [spell, spellCode, List.flatMap_cons, List.flatMap_cons, ← spell, ← spellCode]
      cases segment with
      | code parts =>
          obtain ⟨commentless, later⟩ := wellWritten
          rw [chars, codeChars, commentless.stripFrom, ih later]
      | line body =>
          obtain ⟨one_line, ends, later⟩ := wellWritten
          exact (stripFrom_line_append one_line ends).trans (ih later)
      | block body =>
          obtain ⟨open_body, later⟩ := wellWritten
          rw [chars, codeChars, List.cons_append, List.cons_append, List.append_assoc]
          exact (stripFrom_block_append open_body (spell others)).trans (ih later)

end Segment

/-! ## Scanning twice -/

/-- The mode in which the scanner meets what it has left of a text. -/
def CommentMode.resumed : CommentMode → CommentMode
  | .literal => .literal
  | .code | .line | .block => .code

/-- Where no slash comes first, what comes first in the code stays first. -/
theorem head?_stripFrom_code {rest : List Char} (no_slash : rest.head? ≠ some '/') :
    (stripFrom .code rest).head? = rest.head? := by
  cases rest with
  | nil => rfl
  | cons char rest =>
      by_cases quote : char = '\x22'
      · subst quote
        rfl
      · rw [stripFrom_code_cons quote fun slash => absurd (congrArg some slash) no_slash]
        rfl

/-- A character that opens no comment opens none in what is left either. -/
theorem Apart.stripFrom {char : Char} {rest : List Char} (apart : Apart char rest) :
    Apart char (Json.stripFrom .code rest) := by
  intro slash
  rw [head?_stripFrom_code (apart slash).1]
  exact apart slash

/-- What the scanner has left of a text stays, from any mode on. -/
theorem stripFrom_stripFrom (mode : CommentMode) (chars : List Char) :
    stripFrom mode.resumed (stripFrom mode chars) = stripFrom mode chars := by
  fun_induction stripFrom mode chars with
  | case1 mode => cases mode <;> rfl
  | case2 rest ih | case7 rest ih => exact congrArg ('\x22' :: ·) ih
  | case3 rest ih | case4 rest ih | case11 rest ih => exact ih
  | case5 char rest no_quote no_line no_block ih =>
      have apart : Apart char rest := by
        refine fun slash => ⟨fun head => ?_, fun head => ?_⟩
        · obtain ⟨tail, rest_eq⟩ := List.head?_eq_some_iff.mp head
          exact no_line tail slash rest_eq
        · obtain ⟨tail, rest_eq⟩ := List.head?_eq_some_iff.mp head
          exact no_block tail slash rest_eq
      exact (stripFrom_code_cons no_quote apart.stripFrom).trans (congrArg (char :: ·) ih)
  | case6 char rest ih => exact congrArg ('\\' :: char :: ·) ih
  | case8 char rest no_escape no_quote ih =>
      by_cases backslash : char = '\\'
      -- A backslash that escapes nothing ends the text.
      · subst backslash
        cases rest with
        | nil => rfl
        | cons next rest => exact (no_escape next rest rfl rfl).elim
      · have kept := stripFrom_literal_cons ⟨no_quote, backslash⟩ (stripFrom .literal rest)
        exact kept.trans (congrArg (char :: ·) ih)
  | case9 rest ih => exact congrArg ('\n' :: ·) ih
  | case10 char rest _ ih | case12 char rest _ ih => exact ih

/-- Exactly the comments of a well-written text are dropped, and of no text is anything dropped a
second time. -/
theorem stripComments_leaves_code :
    (∀ segments, Segment.WellWritten segments →
      stripComments (String.ofList (Segment.spell segments))
        = String.ofList (Segment.spellCode segments)) ∧
      ∀ text, stripComments (stripComments text) = stripComments text := by
  constructor
  · intro segments wellWritten
    rw [stripComments, String.toList_ofList, Segment.stripFrom_spell wellWritten]
  · intro text
    have kept := stripFrom_stripFrom .code text.toList
    rw [stripComments, stripComments, String.toList_ofList]
    exact congrArg String.ofList kept

/-- A literal that holds a slash with a star, a block comment between stars, and a line comment with
a quote in it. -/
def markedSegments : List Segment :=
  [.code [.literal [.plain '/' (by decide), .plain '*' (by decide), .escaped '\x22']],
    .block ['/', ' ', '*'],
    .code [.outside ':' (by decide)],
    .line [' ', '\x22'],
    .code [.outside '\n' (by decide), .outside '1' (by decide)]]

/-- The literal and the number stay, with the end of the line between them. -/
theorem stripComments_markedSegments :
    Segment.WellWritten markedSegments ∧
      String.ofList (Segment.spell markedSegments) = "\"/*\\\"\"/*/ **/:// \"\n1" ∧
      stripComments "\"/*\\\"\"/*/ **/:// \"\n1" = "\"/*\\\"\":\n1" := by
  have wellWritten : Segment.WellWritten markedSegments := by decide
  have spelled : String.ofList (Segment.spell markedSegments) = "\"/*\\\"\"/*/ **/:// \"\n1" := by
    decide
  have code : String.ofList (Segment.spellCode markedSegments) = "\"/*\\\"\":\n1" := by decide
  refine ⟨wellWritten, spelled, ?_⟩
  rw [← spelled, ← code]
  exact stripComments_leaves_code.1 markedSegments wellWritten

end CodeGraph.Json
