import Mathlib
import ShapeExport.Proofs.Script.Grammar
import ShapeExport.Proofs.TypeScript.Grouping

/-!
# Pieces of scripts under the check

The check of a script keeps the brackets that are to be closed. A piece is told by what it does to them.

* `Script.Passes` : wherever a piece stands, the check passes over it, closes some brackets and opens others;
* `Script.Balanced` : it leaves brackets as they were;
* `Script.closeAfter?`, `Script.passes_of_closeAfter` : what a text without literals and comments does is
  computed;
* `Script.Balanced.enclosed` : a balanced piece between two texts that open and close the same brackets;
* `Script.balanced_literal`, `Script.balanced_comment`, `Script.IsCommentLine.balanced` : literals and comments;
* `Script.Balanced.check` : a balanced text is accepted.
-/

namespace ShapeExport.Script
open TypeScript (isPlain isPlainText)

/-! ## Pieces -/

/-- Wherever the piece stands, the check goes on behind it. In front of it the brackets `before` are to be
closed, then those of `after`, and the outer ones stay. -/
def Passes (before : List Char) (piece : String) (after : List Char) : Prop :=
  ∀ length toClose rest,
    checkFrom length (before ++ toClose) (piece.toList ++ rest) = checkFrom length (after ++ toClose) rest

/-- Brackets are behind the piece as they are in front of it. -/
def Balanced (piece : String) : Prop := Passes [] piece []

variable {before after inner : List Char} {s t : String}

theorem Passes.append (hs : Passes before s inner) (ht : Passes inner t after) :
    Passes before (s ++ t) after := by
  intro length toClose rest
  rw [String.toList_append, List.append_assoc, hs, ht]

/-- More brackets may be open outside. -/
theorem Passes.inside (h : Passes before s after) (outer : List Char) :
    Passes (before ++ outer) s (after ++ outer) := by
  intro length toClose rest
  rw [List.append_assoc, List.append_assoc]
  exact h length (outer ++ toClose) rest

/-- A balanced piece leaves the brackets around it. -/
theorem Balanced.within (h : Balanced s) (outer : List Char) : Passes outer s outer := by
  have inside := h.inside outer
  rwa [List.nil_append] at inside

theorem Balanced.append (hs : Balanced s) (ht : Balanced t) : Balanced (s ++ t) := Passes.append hs ht

theorem Balanced.of_toList (h : Balanced s) (ht : t.toList = s.toList) : Balanced t := by
  rwa [String.toList_inj.1 ht]

theorem balanced_empty : Balanced "" := fun _ _ _ => rfl

theorem Balanced.join {ss : List String} (h : ∀ s ∈ ss, Balanced s) : Balanced (String.join ss) := by
  induction ss with
  | nil => exact balanced_empty
  | cons s ss ih =>
    rw [List.forall_mem_cons] at h
    rw [String.join_cons]
    exact h.1.append (ih h.2)

theorem Balanced.intercalate {separator : String} (hs : Balanced separator) {ss : List String}
    (h : ∀ s ∈ ss, Balanced s) : Balanced (separator.intercalate ss) := by
  induction ss with
  | nil => exact balanced_empty
  | cons s ss ih =>
    rw [List.forall_mem_cons] at h
    cases ss with
    | nil =>
      rw [String.intercalate_singleton]
      exact h.1
    | cons t ts =>
      rw [String.intercalate_cons_cons]
      exact (h.1.append hs).append (ih h.2)

/-- A balanced text is accepted. -/
theorem Balanced.check (h : Balanced s) : check s = .ok () := by
  have scan := h s.length [] []
  rw [List.append_nil, List.append_nil] at scan
  rw [Script.check, scan, checkFrom]
  rfl

/-! ## Texts without literals and comments -/

/-- The brackets to be closed behind a text; nothing if there is a quote in it, if a slash might start a
comment, or if a bracket is closed that was not opened. -/
def closeAfter? (toClose : List Char) : List Char → Option (List Char)
  | [] => some toClose
  | c :: cs =>
    if isQuote c || (c == '/' && [none, some '/', some '*'].contains cs.head?) then none
    else (bracket? toClose c).bind (closeAfter? · cs)

theorem bracket?_append {toClose next : List Char} {c : Char} (h : bracket? toClose c = some next)
    (outer : List Char) : bracket? (toClose ++ outer) c = some (next ++ outer) := by
  unfold bracket? at h ⊢
  split at h
  · next closing hc =>
    cases h
    rfl
  · next hc =>
    split at h
    · next closes =>
      rw [if_pos closes]
      cases toClose with
      | nil => cases h
      | cons closing toClose =>
        dsimp only [List.cons_append] at h ⊢
        split at h
        · next same =>
          cases h
          rw [if_pos same]
        · cases h
    · next closes =>
      cases h
      rw [if_neg closes]

/-- The check does what is computed, wherever the text stands. -/
theorem passes_of_closeAfter (h : closeAfter? before s.toList = some after) : Passes before s after := by
  intro length toClose rest
  generalize s.toList = cs at h ⊢
  induction cs generalizing before with
  | nil =>
    cases h
    rfl
  | cons c cs ih =>
    unfold closeAfter? at h
    split at h
    · cases h
    · next plain =>
      simp only [Bool.or_eq_true, Bool.and_eq_true, beq_iff_eq, List.contains_iff_mem, List.mem_cons,
        List.not_mem_nil, or_false, not_or, not_and] at plain
      obtain ⟨quote, slash⟩ := plain
      obtain ⟨next, hn, h⟩ := Option.bind_eq_some_iff.1 h
      have follows {d : Char} (hc : c = '/') (hd : (cs ++ rest).head? = some d)
          (other : d = '/' ∨ d = '*') : False := by
        obtain ⟨empty, line, block⟩ := slash hc
        cases cs with
        | nil => exact empty rfl
        | cons e es =>
          obtain rfl : e = d := Option.some.inj hd
          rcases other with rfl | rfl
          · exact line rfl
          · exact block rfl
      rw [List.cons_append, checkFrom, if_neg quote, if_neg fun e => follows e.1 e.2 (Or.inl rfl),
        if_neg fun e => follows e.1 e.2 (Or.inr rfl), bracket?_append hn]
      exact ih h

theorem balanced_of_closeAfter (h : closeAfter? [] s.toList = some []) : Balanced s := passes_of_closeAfter h

theorem balanced_of_isPlainText (h : isPlainText s) : Balanced s := by
  apply balanced_of_closeAfter
  have plain : ∀ c ∈ s.toList, isPlain c := by
    intro c hc
    exact (Bool.and_eq_true_iff.1 (List.all_eq_true.1 h c hc)).1
  generalize s.toList = cs at plain ⊢
  induction cs with
  | nil => rfl
  | cons c cs ih =>
    rw [List.forall_mem_cons] at plain
    have quote : isQuote c = false := by simpa using (Bool.and_eq_true_iff.1 plain.1).1
    have slash : (c == '/') = false := beq_false_of_ne (TypeScript.ne_of_isPlain plain.1 rfl)
    unfold closeAfter?
    rw [quote, slash, TypeScript.scriptBracket?_of_isPlain plain.1]
    exact ih plain.2

/-- What one text opens around a balanced piece, the other closes. -/
theorem Balanced.enclosed (h : Balanced s) (opening closing : String)
    (opens : closeAfter? [] opening.toList = some inner)
    (closes : closeAfter? inner closing.toList = some []) : Balanced (opening ++ s ++ closing) :=
  ((passes_of_closeAfter opens).append (h.within inner)).append (passes_of_closeAfter closes)

/-! ## Literals and comments -/

/-- A piece that fits everywhere and is no bracket. -/
theorem balanced_of_piece {p : Piece} (fits : ∀ next, p.Fits next) (none : p.brackets = [])
    (hs : s.toList = p.text) : Balanced s := by
  intro length toClose rest
  rw [hs]
  exact checkFrom_piece (fits _) (by rw [none]; rfl)

theorem balanced_literal (repertoire : Text.Repertoire) (s : String) :
    Balanced (Text.literal repertoire s) := by
  have passed : afterString? '"' (s.toList.flatMap (Text.literalChar repertoire) ++ ['"']) = some [] :=
    afterString?_literal repertoire s.toList
  have body : Protected '"' (s.toList.flatMap (Text.literalChar repertoire)) := by
    obtain ⟨body, hb, e⟩ := (afterString?_eq_some_iff (by decide)).1 passed
    rwa [List.append_cancel_right e]
  refine balanced_of_piece (p := .string '"' _) (fun _ => ⟨by decide, body⟩) rfl ?_
  rw [Text.literal, String.toList_ofList]
  rfl

/-- A comment in whose body no mark ends it. -/
theorem balanced_comment {body : List Char} (h : ¬ ['*', '/'] <:+: body)
    (hs : s.toList = '/' :: '*' :: (body ++ [' ', '*', '/'])) : Balanced s :=
  balanced_of_piece (p := .block (body ++ [' '])) (fun _ => not_infix_blank h) rfl (by simp [hs, Piece.text])

/-- A comment up to the end of its line. -/
theorem balanced_line {body : List Char} (h : '\n' ∉ body) (hs : s.toList = '/' :: '/' :: (body ++ ['\n'])) :
    Balanced s := by
  intro length toClose rest
  have line : checkFrom length toClose ((Piece.line body).text ++ '\n' :: rest) =
      checkFrom length toClose ('\n' :: rest) := checkFrom_piece ⟨h, Or.inr rfl⟩ rfl
  have whole : s.toList ++ rest = (Piece.line body).text ++ '\n' :: rest := by simp [hs, Piece.text]
  rw [List.nil_append, whole, line]
  exact balanced_of_closeAfter (s := "\n") rfl length toClose rest

/-- A line that is a comment: two slashes, behind blanks if there are any, and a text without line breaks. -/
def IsCommentLine (line : String) : Prop :=
  ∃ blanks body, line.toList = blanks ++ '/' :: '/' :: body ∧ (∀ c ∈ blanks, Text.isBlank c) ∧ '\n' ∉ body

theorem IsCommentLine.balanced (h : IsCommentLine s) : Balanced (s ++ "\n") := by
  obtain ⟨blanks, body, e, hb, noBreak⟩ := h
  have plain : isPlainText (String.ofList blanks) := by
    refine TypeScript.isPlainText_of_not_mem fun c hc => ?_
    rw [String.toList_ofList] at hc
    exact TypeScript.not_mem_marks (p := Text.isBlank) (by decide) (hb c hc)
  have comment : Balanced (String.ofList ('/' :: '/' :: (body ++ ['\n']))) := balanced_line noBreak (by simp)
  refine ((balanced_of_isPlainText plain).append comment).of_toList ?_
  simp [e]

end ShapeExport.Script
