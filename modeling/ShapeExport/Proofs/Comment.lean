import Mathlib
import ShapeExport.Proofs.Script.Scanning
import ShapeExport.Proofs.Text.Pieces

/-!
# Comments and the text in them

Documentation and the notes of deprecation markers are texts of users. In a comment of lines each line has its
own mark, and a block ends with the mark that closes it.

* `Text.trimEndChars_prefix`, `Text.prefix_trimEndChars` : trimming takes nothing but blanks away;
* `not_infix_commentLine`, `not_infix_commentLines` : no line of a block closes the block;
* `terminatedLines`, `split_join_lines` : the lines of a text, and of one that was put together from lines;
* `forall_split_iff`, `forall_commentLine_iff` : a mark at the start of each line;
* `Deprecation.furtherLines` : the lines of a deprecation marker behind its first;
* `ClosesBefore`, `closesBefore_commentBlock`, `closesBefore_inlineComment` : the first mark that closes a comment
  stands in front of the given rest;
* `comments_hold_text` : blocks and comments on one line hold all text. Comments of lines do so exactly if the
  further lines of the marker are comments themselves.
-/

namespace ShapeExport

/-! ## Trimmed texts -/

namespace Text

theorem trimEndChars_prefix (cs : List Char) : trimEndChars cs <+: cs := by
  rw [← List.reverse_suffix, trimEndChars, List.reverse_reverse]
  exact List.dropWhile_suffix _

/-- A start that ends in no blank is not trimmed. -/
theorem prefix_trimEndChars {front cs : List Char} {c : Char} (h : front ++ [c] <+: cs) (hc : isBlank c = false) :
    front ++ [c] <+: trimEndChars cs := by
  obtain ⟨rest, rfl⟩ := h
  have start : (c :: front.reverse).dropWhile isBlank = c :: front.reverse := List.dropWhile_cons_of_neg (by simp [hc])
  have kept : c :: front.reverse <:+ (rest.reverse ++ c :: front.reverse).dropWhile isBlank := by
    rw [List.dropWhile_append]
    split
    · rw [start]
    · exact List.suffix_append _ _
  rw [← List.reverse_suffix]
  simpa [trimEndChars] using kept

/-- What stands in front of a text that is more than blanks is not trimmed. -/
theorem trimEndChars_append {cs : List Char} {c : Char} (h : c ∈ cs) (hc : isBlank c = false) (front : List Char) :
    trimEndChars (front ++ cs) = front ++ trimEndChars cs := by
  have more : ¬ (cs.reverse.dropWhile isBlank).isEmpty := by
    rw [List.isEmpty_iff, List.dropWhile_eq_nil_iff]
    intro blank
    rw [blank c (List.mem_reverse.2 h)] at hc
    cases hc
  rw [trimEndChars, List.reverse_append, List.dropWhile_append, if_neg more, List.reverse_append,
    List.reverse_reverse, trimEndChars]

end Text

/-! ## Marks that close a block -/

section Block

variable {indent : String} (spaces : ∀ c ∈ indent.toList, c = ' ')
include spaces

/-- Nothing is closed at an indent. -/
theorem not_infix_indent {cs : List Char} (h : ¬ ['*', '/'] <:+: cs) : ¬ ['*', '/'] <:+: indent.toList ++ cs := by
  refine not_infix_append (not_infix_of_not_mem fun hm => ?_) h fun star => ?_
  · exact absurd (spaces _ hm) (by decide)
  · exact absurd (spaces _ (List.mem_of_getLast? star)) (by decide)

/-- A line of a block comment does not end the comment. -/
theorem not_infix_commentLine (line : String) :
    ¬ ['*', '/'] <:+: (commentLine (indent ++ " * ") (escapeComment line)).toList := by
  have starred := not_infix_star (c := ' ') (not_infix_escapeComment line) (by decide) (by decide)
  have text := not_infix_cons (c := ' ') starred (by intro h; cases h)
  have cut : ¬ ['*', '/'] <:+: Text.trimEndChars (indent ++ " * " ++ escapeComment line).toList := by
    intro h
    have inText := h.trans (Text.trimEndChars_prefix _).isInfix
    rw [String.append_assoc, String.toList_append, String.toList_append] at inText
    exact not_infix_indent spaces text inText
  rw [commentLine, String.toList_append, Text.trimEnd, String.toList_ofList]
  exact not_infix_append cut (by decide) fun _ => by decide

theorem not_infix_commentLines (lines : List String) :
    ¬ ['*', '/'] <:+: (String.join (lines.map fun l => commentLine (indent ++ " * ") (escapeComment l))).toList := by
  induction lines with
  | nil => exact not_infix_of_not_mem List.not_mem_nil
  | cons line lines ih =>
    rw [List.map_cons, String.join_cons, String.toList_append]
    refine not_infix_append (not_infix_commentLine spaces line) ih fun star => ?_
    rw [commentLine, String.toList_append] at star
    simp at star

end Block

/-! ## Lines -/

/-- The lines of a text that end with a line break. -/
def terminatedLines (s : String) : List String := (Text.split '\n' s).dropLast

/-- A text that was put together from lines has the lines that they consist of, and nothing behind them. -/
theorem split_join_lines (lines : List String) :
    Text.split '\n' (String.join (lines.map (· ++ "\n"))) = lines.flatMap (Text.split '\n') ++ [""] := by
  induction lines with
  | nil => rfl
  | cons line lines ih =>
    have whole : (line ++ "\n" ++ String.join (lines.map (· ++ "\n"))).toList =
        line.toList ++ '\n' :: (String.join (lines.map (· ++ "\n"))).toList := by simp
    rw [List.map_cons, String.join_cons, Text.split, whole, Text.splitChars_append_sep, List.map_append,
      List.flatMap_cons, List.append_assoc, ← ih]
    rfl

/-- With a mark at the start of a text, its lines have the mark if those behind the first have it. -/
theorem forall_split_iff {s mark : String} (h : mark.toList <+: s.toList) (hm : '\n' ∉ mark.toList) :
    (∀ line ∈ Text.split '\n' s, mark.toList <+: line.toList) ↔
      ∀ line ∈ (Text.split '\n' s).tail, mark.toList <+: line.toList := by
  obtain ⟨rest, hr⟩ := h
  obtain ⟨first, pieces, -, e⟩ := Text.exists_splitChars_append hm rest
  rw [Text.split, ← hr, e, List.map_cons, List.forall_mem_cons, List.tail_cons, String.toList_ofList]
  exact and_iff_right (List.prefix_append _ _)

/-! ## Comments of lines -/

/-- The lines of a marker behind its first: its note or its version has line breaks inside. -/
def Deprecation.furtherLines (d : Deprecation) : List String :=
  (Text.split '\n' (Text.trimEnd d.tagLine)).tail

theorem not_mem_of_mem_docLines {docs : List String} {line : String} (h : line ∈ docLines docs) :
    '\n' ∉ line.toList := by
  obtain ⟨doc, -, hl⟩ := List.mem_flatMap.1 h
  obtain ⟨piece, hp, rfl⟩ := List.mem_map.1 hl
  rw [Text.trimEnd, String.toList_ofList]
  exact fun hm => Text.not_mem_of_mem_split hp ((Text.trimEndChars_prefix _).subset hm)

theorem commentBlock_line (indent : String) (docs : List String) (deprecation : Option Deprecation) :
    commentBlock .line indent docs deprecation =
      String.join (((commentLines docs deprecation).map fun l => Text.trimEnd (indent ++ "// " ++ l)).map
        (· ++ "\n")) := by
  unfold commentBlock
  rw [List.map_map]
  cases commentLines docs deprecation <;> rfl

/-- Nothing stands behind the last line break. -/
theorem getLast?_split_commentBlock (indent : String) (docs : List String) (deprecation : Option Deprecation) :
    (Text.split '\n' (commentBlock .line indent docs deprecation)).getLast? = some "" := by
  rw [commentBlock_line, split_join_lines, List.getLast?_concat]

section Lines

variable {indent : String} (spaces : ∀ c ∈ indent.toList, c = ' ')
include spaces

theorem not_mem_mark (mark : String) (h : '\n' ∉ mark.toList) : '\n' ∉ (indent ++ mark).toList := by
  rw [String.toList_append, List.mem_append]
  rintro (hm | hm)
  · exact absurd (spaces _ hm) (by decide)
  · exact h hm

/-- A line of documentation stays one line. -/
theorem split_docLine {docs : List String} {line : String} (h : line ∈ docLines docs) :
    (Text.split '\n' (Text.trimEnd (indent ++ "// " ++ line))).tail = [] := by
  have whole : '\n' ∉ (Text.trimEnd (indent ++ "// " ++ line)).toList := by
    rw [Text.trimEnd, String.toList_ofList]
    intro hm
    have inText := (Text.trimEndChars_prefix _).subset hm
    rw [String.toList_append, List.mem_append] at inText
    exact inText.elim (not_mem_mark spaces "// " (by decide)) (not_mem_of_mem_docLines h)
  rw [Text.split_of_not_mem whole, List.tail_cons]

/-- A marker has the further lines that its own text has. -/
theorem split_tagLine (d : Deprecation) :
    (Text.split '\n' (Text.trimEnd (indent ++ "// " ++ d.tagLine))).tail = d.furtherLines := by
  have start : '@' ∈ d.tagLine.toList := by
    rw [Deprecation.tagLine, String.toList_append, String.toList_append]
    exact List.mem_append_left _ (List.mem_append_left _ (by decide))
  obtain ⟨first, pieces, e, e'⟩ := Text.exists_splitChars_append (not_mem_mark spaces "// " (by decide))
    (Text.trimEndChars d.tagLine.toList)
  rw [Deprecation.furtherLines, Text.split, Text.split, Text.trimEnd, Text.trimEnd, String.toList_ofList,
    String.toList_ofList, String.toList_append, Text.trimEndChars_append start (by decide), e, e']
  rfl

/-- The lines of a comment all start with its mark if the further lines of the marker do. -/
theorem forall_commentLine_iff {docs : List String} {deprecation : Option Deprecation} :
    (∀ line ∈ terminatedLines (commentBlock .line indent docs deprecation),
      (indent ++ "//").toList <+: line.toList) ↔
    ∀ d ∈ deprecation, ∀ line ∈ d.furtherLines, (indent ++ "//").toList <+: line.toList := by
  have marked (l : String) : (indent ++ "//").toList <+: (Text.trimEnd (indent ++ "// " ++ l)).toList := by
    have front : (indent ++ "//").toList = (indent.toList ++ ['/']) ++ ['/'] := by simp
    rw [front, Text.trimEnd, String.toList_ofList]
    refine Text.prefix_trimEndChars ⟨' ' :: l.toList, ?_⟩ (by decide)
    simp
  have starts (l : String) := forall_split_iff (marked l) (not_mem_mark spaces "//" (by decide))
  rw [terminatedLines, commentBlock_line, split_join_lines, List.dropLast_concat, List.flatMap_map,
    List.forall_mem_flatMap]
  simp only [starts, commentLines, List.forall_mem_append]
  constructor
  · rintro ⟨-, h⟩ d hd
    rw [← split_tagLine spaces]
    exact h d.tagLine (by simp [Option.mem_def.1 hd])
  · intro h
    refine ⟨fun l hl => ?_, fun l hl => ?_⟩
    · rw [split_docLine spaces hl]
      exact List.forall_mem_nil _
    · obtain ⟨d, hd, rfl⟩ : ∃ d ∈ deprecation, d.tagLine = l := by simpa using hl
      rw [split_tagLine spaces]
      exact h d hd

end Lines

/-! ## Blocks and comments on one line -/

/-- A text starts with `opening`, and only `rest` follows the first mark in it that closes a comment. -/
structure ClosesBefore (rest opening s : String) : Prop where
  opens : opening.toList <+: s.toList
  closes : ∃ front, s.toList = front ++ '*' :: '/' :: rest.toList ∧ ¬ ['*', '/'] <:+: front ++ ['*']

theorem closesBefore_commentBlock {indent : String} (spaces : ∀ c ∈ indent.toList, c = ' ') (docs : List String)
    (deprecation : Option Deprecation) : commentBlock .jsdoc indent docs deprecation = "" ∨
      ClosesBefore "\n" (indent ++ "/**") (commentBlock .jsdoc indent docs deprecation) := by
  unfold commentBlock
  generalize commentLines docs deprecation = lines
  cases lines with
  | nil => exact Or.inl rfl
  | cons line lines =>
    have closing : ¬ ['*', '/'] <:+: indent.toList ++ [' ', '*'] :=
      not_infix_indent spaces (not_infix_of_not_mem (by decide))
    have noSlash : '/' ∉ indent.toList ++ [' ', '*'] := by
      rw [List.mem_append]
      rintro (h | h)
      · exact absurd (spaces _ h) (by decide)
      · exact absurd h (by decide)
    have body := not_infix_append (not_infix_commentLines spaces (line :: lines)) closing
      fun _ slash => noSlash (List.mem_of_mem_head? slash)
    have opening := not_infix_opening (c := '\n') body (by decide) (by decide)
    have whole := not_infix_indent spaces opening
    dsimp only
    generalize String.join _ = written at whole ⊢
    refine Or.inr ⟨?_, (indent ++ "/**\n" ++ written ++ indent ++ " ").toList, ?_, ?_⟩
    · exact ⟨("\n" ++ written ++ indent ++ " */\n").toList, by simp⟩
    · simp
    · simpa using whole

theorem closesBefore_inlineComment (style : CommentStyle) (docs : List String) (deprecation : Option Deprecation) :
    inlineComment style docs deprecation = "" ∨ ClosesBefore " " "/**" (inlineComment style docs deprecation) := by
  unfold inlineComment
  split
  · next line lines _ =>
    have closing : ¬ ['*', '/'] <:+: [' ', '*'] := not_infix_of_not_mem (by decide)
    have text := not_infix_append (not_infix_escapeComment (joinLines (line :: lines))) closing fun _ => by decide
    have opening := not_infix_opening (c := ' ') text (by decide) (by decide)
    refine Or.inr ⟨?_, "/** ".toList ++ (escapeComment (joinLines (line :: lines))).toList ++ [' '], ?_, ?_⟩
    · exact ⟨' ' :: (escapeComment (joinLines (line :: lines)) ++ " */ ").toList, by simp⟩
    · simp
    · simpa using opening
  · exact Or.inl rfl

/-! ## All styles -/

/-- What is written into a comment stays in it, but for the further lines of a marker in a comment of lines. -/
theorem comments_hold_text (docs : List String) (deprecation : Option Deprecation) {indent : String}
    (spaces : ∀ c ∈ indent.toList, c = ' ') :
    ((Text.split '\n' (commentBlock .line indent docs deprecation)).getLast? = some "" ∧
      ((∀ line ∈ terminatedLines (commentBlock .line indent docs deprecation),
          (indent ++ "//").toList <+: line.toList) ↔
        ∀ d ∈ deprecation, ∀ line ∈ d.furtherLines, (indent ++ "//").toList <+: line.toList)) ∧
    (commentBlock .jsdoc indent docs deprecation = "" ∨
      ClosesBefore "\n" (indent ++ "/**") (commentBlock .jsdoc indent docs deprecation)) ∧
    ∀ style, inlineComment style docs deprecation = "" ∨
      ClosesBefore " " "/**" (inlineComment style docs deprecation) :=
  ⟨⟨getLast?_split_commentBlock indent docs deprecation, forall_commentLine_iff spaces⟩,
    closesBefore_commentBlock spaces docs deprecation,
    fun style => closesBefore_inlineComment style docs deprecation⟩

namespace Retired

/-- Its note tries to end the comment. -/
def shelved : Deprecation := { note := some "see */ Shelf", since := some "2" }

/-- Its note has two lines. -/
def gone : Deprecation := { note := some "gone\nuse Shelf" }

theorem comments_hold_shelved : (∀ c ∈ "  ".toList, c = ' ') ∧
    (∀ line ∈ terminatedLines (commentBlock .line "  " ["A box.\nIt holds files."] (some shelved)),
      ("  " ++ "//").toList <+: line.toList) ∧
    ClosesBefore "\n" ("  " ++ "/**") (commentBlock .jsdoc "  " ["A box.\nIt holds files."] (some shelved)) := by
  have spaces : ∀ c ∈ "  ".toList, c = ' ' := by simp
  obtain ⟨⟨-, lines⟩, block, -⟩ := comments_hold_text ["A box.\nIt holds files."] (some shelved) spaces
  have oneLine : shelved.furtherLines = [] := by cbv
  refine ⟨spaces, lines.2 fun d hd => ?_, block.resolve_left ?_⟩
  · cases hd
    rw [oneLine]
    exact List.forall_mem_nil _
  · cbv
    decide

/-- The second line of the note stands outside of the comment. -/
theorem note_outside_comment : ¬ ∀ line ∈ terminatedLines (commentBlock .line "" [] (some gone)),
    ("" ++ "//").toList <+: line.toList := by
  rw [forall_commentLine_iff (by simp)]
  have further : gone.furtherLines = ["use Shelf"] := by cbv
  intro h
  exact absurd (h gone rfl "use Shelf" (by rw [further]; exact List.mem_cons_self)) (by decide)

end Retired

end ShapeExport
