import ShapeExport.Comment
import ShapeExport.Number.Basic
import ShapeExport.Script
import ShapeExport.Text.Literal

/-!
# Literals and comments under a scan

A scan passes over string literals and comments without a look at what is in them. So what a renderer
writes there must not end them early.

* `Script.afterString?_literal` : a scan goes on behind the quote that a literal ends with;
* `not_infix_escapeComment` : no text ends a comment once it is escaped;
* `not_infix_append` : the mark that ends a comment, where texts meet;
* `Script.afterBlock?_append`, `Script.afterBlock?_closed` : a scan goes on behind the mark that a comment ends with;
* `Script.afterLine_append` : a line comment ends in front of the line break;
* `Number.text_chars` : the characters of a number.
-/

namespace ShapeExport

/-! ## Digits -/

namespace Text

theorem exists_digit_of_mem_toDigits {b n : Nat} (hb : 1 < b) {c : Char} (h : c ∈ Nat.toDigits b n) :
    ∃ d, d < b ∧ c = d.digitChar := by
  induction n using Nat.strongRecOn with
  | ind n ih =>
    rw [Nat.toDigits_eq_if hb] at h
    split at h
    · next hn => exact ⟨n, hn, List.mem_singleton.1 h⟩
    · next hn =>
      rcases List.mem_append.1 h with h | h
      · exact ih (n / b) (Nat.div_lt_self (by omega) hb) h
      · exact ⟨n % b, Nat.mod_lt _ (by omega), List.mem_singleton.1 h⟩

theorem isAlphanum_of_mem_hexDigits {width n : Nat} {c : Char} (h : c ∈ hexDigits width n) :
    c.isAlphanum := by
  rcases List.mem_append.1 h with h | h
  · rw [List.eq_of_mem_replicate h]
    decide
  · obtain ⟨d, hd, rfl⟩ := exists_digit_of_mem_toDigits (by decide) h
    have digits : ∀ d < 16, d.digitChar.isAlphanum := by decide
    exact digits d hd

end Text

/-! ## String literals -/

namespace Script
open Text

variable {rest : List Char}

theorem afterString?_cons {c : Char} (hq : c ≠ '"') (hb : c ≠ '\\') :
    afterString? '"' (c :: rest) = afterString? '"' rest := by
  rw [afterString?.eq_def]
  exact (if_neg hb).trans (if_neg hq)

theorem afterString?_escape (letter : Char) :
    afterString? '"' ('\\' :: letter :: rest) = afterString? '"' rest := by
  rw [afterString?.eq_def]
  exact if_pos rfl

theorem afterString?_unitEscape (n : Nat) :
    afterString? '"' (unitEscape n ++ rest) = afterString? '"' rest := by
  have digits : ∀ cs : List Char, (∀ c ∈ cs, c.isAlphanum) →
      afterString? '"' (cs ++ rest) = afterString? '"' rest := by
    intro cs
    induction cs with
    | nil => exact fun _ => rfl
    | cons c cs ih =>
      intro h
      rw [List.forall_mem_cons] at h
      have hq : c ≠ '"' := by
        rintro rfl
        exact absurd h.1 (by decide)
      have hb : c ≠ '\\' := by
        rintro rfl
        exact absurd h.1 (by decide)
      rw [List.cons_append, afterString?_cons hq hb, ih h.2]
  rw [unitEscape, List.cons_append, List.cons_append, afterString?_escape]
  exact digits _ fun c => isAlphanum_of_mem_hexDigits

theorem afterString?_literalChar (repertoire : Repertoire) (c : Char) :
    afterString? '"' (literalChar repertoire c ++ rest) = afterString? '"' rest := by
  unfold literalChar
  split
  · exact afterString?_escape _
  · next h =>
    have plain : ∀ p ∈ letterEscapes, p.2 ≠ c := by simpa using h
    split
    · exact afterString?_unitEscape _
    · split
      · unfold unicodeEscape
        split
        · exact afterString?_unitEscape _
        · rw [List.append_assoc, afterString?_unitEscape, afterString?_unitEscape]
      · exact afterString?_cons (plain ('"', '"') (by decide)).symm (plain ('\\', '\\') (by decide)).symm

/-- A literal is passed over up to its last quote. -/
theorem afterString?_literal (repertoire : Repertoire) (cs : List Char) :
    afterString? '"' (cs.flatMap (literalChar repertoire) ++ '"' :: rest) = some rest := by
  induction cs with
  | nil =>
    rw [List.flatMap_nil, List.nil_append, afterString?.eq_def]
    exact (if_neg (by decide)).trans (if_pos rfl)
  | cons c cs ih => rw [List.flatMap_cons, List.append_assoc, afterString?_literalChar, ih]

end Script

/-! ## Comments -/

/-- The mark that ends a comment, escaped wherever it stands. -/
def escapedChars (skip : Nat) (cs : List Char) : List Char :=
  Text.replaceFrom ['*', '/'] ['*', '\\', '/'] skip cs

theorem escapeComment_toList (s : String) : (escapeComment s).toList = escapedChars 0 s.toList := by
  rw [escapeComment, Text.replace, String.toList_ofList]
  rfl

/-- The first character stays, since an escaped mark starts like the mark. -/
theorem head?_escapedChars (cs : List Char) : (escapedChars 0 cs).head? = cs.head? := by
  cases cs with
  | nil => rfl
  | cons c cs =>
    unfold escapedChars
    rw [Text.replaceFrom]
    split
    · next h =>
      have hp : ['*', '/'] <+: c :: cs := List.isPrefixOf_iff_prefix.1 (Bool.and_eq_true_iff.1 h).1
      rw [← (List.cons_prefix_cons.1 hp).1]
      rfl
    · rfl

theorem not_infix_cons {c : Char} {cs : List Char} (h : ¬ ['*', '/'] <:+: cs)
    (hc : c = '*' → cs.head? ≠ some '/') : ¬ ['*', '/'] <:+: c :: cs := by
  intro hi
  rcases List.infix_cons_iff.1 hi with hp | hi
  · obtain ⟨rest, e⟩ := hp
    rw [List.cons_append, List.cons.injEq] at e
    exact hc e.1.symm (by rw [← e.2]; rfl)
  · exact h hi

/-- A star and what parts it from the text behind it end no comment. -/
theorem not_infix_star {c : Char} {cs : List Char} (h : ¬ ['*', '/'] <:+: cs) (star : c ≠ '*') (slash : c ≠ '/') :
    ¬ ['*', '/'] <:+: '*' :: c :: cs :=
  not_infix_cons (not_infix_cons h fun e => absurd e star) fun _ e => slash (Option.some.inj e)

/-- The mark that opens a block of documentation ends no comment, with what parts it from the text. -/
theorem not_infix_opening {c : Char} {cs : List Char} (h : ¬ ['*', '/'] <:+: cs) (star : c ≠ '*') (slash : c ≠ '/') :
    ¬ ['*', '/'] <:+: '/' :: '*' :: '*' :: c :: cs := by
  have inner : ¬ ['*', '/'] <:+: '*' :: '*' :: c :: cs :=
    not_infix_cons (not_infix_star h star slash) fun _ e => absurd (Option.some.inj e) (by decide)
  exact not_infix_cons inner fun e => absurd e (by decide)

theorem not_infix_of_not_mem {cs : List Char} (h : '/' ∉ cs) : ¬ ['*', '/'] <:+: cs :=
  fun hi => h (hi.subset (List.mem_cons_of_mem _ List.mem_cons_self))

/-- A mark that ends a comment comes about where texts meet only if both have their part of it there. -/
theorem not_infix_append {cs ds : List Char} (hc : ¬ ['*', '/'] <:+: cs) (hd : ¬ ['*', '/'] <:+: ds)
    (meet : cs.getLast? = some '*' → ds.head? ≠ some '/') : ¬ ['*', '/'] <:+: cs ++ ds := by
  induction cs with
  | nil => exact hd
  | cons c cs ih =>
    cases cs with
    | nil =>
      refine not_infix_cons hd fun star => meet ?_
      rw [star]
      rfl
    | cons d cs =>
      rw [List.getLast?_cons_cons] at meet
      refine not_infix_cons (ih (fun h => hc (List.infix_cons h)) meet) fun star slash => ?_
      cases star
      cases slash
      exact hc (List.prefix_append ['*', '/'] cs).isInfix

/-- Escaped text holds no mark that ends a comment. -/
theorem not_infix_escapedChars (skip : Nat) (cs : List Char) :
    ¬ ['*', '/'] <:+: escapedChars skip cs := by
  induction cs generalizing skip with
  | nil =>
    intro h
    exact absurd (List.infix_nil.1 h) (List.cons_ne_nil _ _)
  | cons c cs ih =>
    cases skip with
    | succ n => exact ih n
    | zero =>
      unfold escapedChars
      rw [Text.replaceFrom]
      split
      · refine not_infix_cons (not_infix_cons (not_infix_cons (ih 1) ?_) ?_) ?_
        · intro h
          exact absurd h (by decide)
        · intro h
          exact absurd h (by decide)
        · intro _ h
          exact absurd (Option.some.inj h) (by decide)
      · next h =>
        refine not_infix_cons (ih 0) fun hc hh => h ?_
        change (escapedChars 0 cs).head? = some '/' at hh
        rw [head?_escapedChars] at hh
        obtain ⟨ds, rfl⟩ := List.head?_eq_some_iff.1 hh
        rw [hc]
        rfl

theorem not_infix_escapeComment (s : String) : ¬ ['*', '/'] <:+: (escapeComment s).toList := by
  rw [escapeComment_toList]
  exact not_infix_escapedChars 0 s.toList

/-- A comment ends with the first mark that ends one. -/
theorem Script.afterBlock?_append {body rest : List Char} (h : ¬ ['*', '/'] <:+: body ++ ['*']) :
    afterBlock? (body ++ '*' :: '/' :: rest) = some rest := by
  induction body with
  | nil => rfl
  | cons c body ih =>
    have inner : ¬ ['*', '/'] <:+: body ++ ['*'] := fun hi => h (List.infix_cons hi)
    rw [List.cons_append]
    unfold afterBlock?
    split
    · next tail e =>
      exfalso
      cases body with
      | nil => cases e
      | cons d body =>
        cases e
        exact h (List.prefix_append ['*', '/'] (body ++ ['*'])).isInfix
    · next e =>
      cases e
      exact ih inner
    · next e => cases e

/-- Behind a blank, the mark that ends a comment is not met before. -/
theorem not_infix_blank {body : List Char} (h : ¬ ['*', '/'] <:+: body) : ¬ ['*', '/'] <:+: body ++ [' '] ++ ['*'] := by
  rw [List.append_assoc]
  exact not_infix_append h (not_infix_of_not_mem (by decide)) fun _ => by decide

/-- A comment is passed over up to the mark behind its last blank. -/
theorem Script.afterBlock?_closed {body rest : List Char} (h : ¬ ['*', '/'] <:+: body) :
    afterBlock? (body ++ ' ' :: '*' :: '/' :: rest) = some rest := by
  simpa using afterBlock?_append (not_infix_blank h)

/-- A line comment ends in front of the line break, or at the end. -/
theorem Script.afterLine_append {cs rest : List Char} (h : '\n' ∉ cs) (hr : rest.head? = none ∨ rest.head? = some '\n') :
    afterLine (cs ++ rest) = rest := by
  have inLine : ∀ c ∈ cs, decide (c ≠ '\n') = true := by
    intro c hc
    rw [decide_eq_true_eq]
    rintro rfl
    exact h hc
  rw [afterLine, List.dropWhile_append_of_pos inLine]
  rcases hr with hr | hr
  · rw [List.head?_eq_none_iff.1 hr]
    rfl
  · obtain ⟨tail, rfl⟩ := List.head?_eq_some_iff.1 hr
    rfl

/-! ## Numbers -/

/-- A character of the text of a number. -/
def IsNumberChar (c : Char) : Prop := c.isAlphanum ∨ c ∈ ['-', '+', '.']

theorem isNumberChar_of_mem_toDigits {n : Nat} {c : Char} (h : c ∈ Nat.toDigits 10 n) : IsNumberChar c := by
  have hd : c.isDigit := Nat.isDigit_of_mem_toDigits (by decide) (by decide) h
  exact Or.inl (by simp [Char.isAlphanum, hd])

theorem isNumberChar_of_mem_zeros {n : Nat} {c : Char} (h : c ∈ zeros n) : IsNumberChar c := by
  rw [List.eq_of_mem_replicate h]
  exact Or.inl (by decide)

section Magnitude

variable {digits : List Char} (h : ∀ c ∈ digits, IsNumberChar c) (lead : Int)
include h

theorem positional_chars : ∀ c ∈ positional digits lead, IsNumberChar c := by
  unfold positional
  have zero : IsNumberChar '0' := Or.inl (by decide)
  have point : IsNumberChar '.' := Or.inr (by decide)
  split
  · simp only [List.forall_mem_cons, List.forall_mem_append]
    exact ⟨zero, point, fun c => isNumberChar_of_mem_zeros, h⟩
  · simp only [List.forall_mem_cons, List.forall_mem_append]
    refine ⟨⟨fun c hc => h c (List.mem_of_mem_take hc), fun c => isNumberChar_of_mem_zeros⟩, point, ?_⟩
    split
    · exact List.forall_mem_singleton.2 zero
    · exact fun c hc => h c (List.mem_of_mem_drop hc)

theorem scientific_chars : ∀ c ∈ scientific digits lead, IsNumberChar c := by
  unfold scientific
  have letter : IsNumberChar 'e' := Or.inl (by decide)
  have point : IsNumberChar '.' := Or.inr (by decide)
  simp only [List.forall_mem_cons, List.forall_mem_append]
  refine ⟨⟨fun c hc => h c (List.mem_of_mem_take hc), ?_⟩, letter, ?_, fun c => isNumberChar_of_mem_zeros,
    fun c => isNumberChar_of_mem_toDigits⟩
  · split
    · exact List.forall_mem_nil _
    · exact List.forall_mem_cons.2 ⟨point, fun c hc => h c (List.mem_of_mem_drop hc)⟩
  · split
    · exact Or.inr (by decide)
    · exact Or.inr (by decide)

end Magnitude

theorem Binary64.magnitude_chars (style : FloatStyle) (units : Nat) :
    ∀ c ∈ magnitudeChars style units, IsNumberChar c := by
  have digits : ∀ c ∈ (shortest units).significant.1, IsNumberChar c := by
    intro c hc
    rw [Decimal.significant, List.mem_reverse] at hc
    exact isNumberChar_of_mem_toDigits (List.mem_reverse.1 ((List.dropWhile_suffix _).subset hc))
  unfold magnitudeChars
  split
  · simp only [List.forall_mem_cons]
    exact ⟨Or.inl (by decide), Or.inr (by decide), Or.inl (by decide), List.forall_mem_nil _⟩
  · dsimp only
    split
    · exact positional_chars digits _
    · exact scientific_chars digits _

/-- A number is written in digits, letters, signs and a point. -/
theorem Number.text_chars (n : Number) : ∀ c ∈ (n.text .message).toList, IsNumberChar c := by
  have sign : ∀ negative : Bool, ∀ c ∈ (if negative then "-" else "").toList, IsNumberChar c := by
    intro negative
    cases negative with
    | false => exact List.forall_mem_nil _
    | true => exact List.forall_mem_singleton.2 (Or.inr (by decide))
  have letters : ∀ c ∈ ("nan" ++ "inf").toList, IsNumberChar c := by
    intro c hc
    exact Or.inl (List.all_eq_true.1 (by decide : ("nan" ++ "inf").toList.all Char.isAlphanum) c hc)
  cases n with
  | integer n =>
    rw [Number.text, Int.toString_eq_repr]
    cases n with
    | ofNat m =>
      show ∀ c ∈ m.repr.toList, IsNumberChar c
      rw [Nat.toList_repr]
      exact fun c => isNumberChar_of_mem_toDigits
    | negSucc m =>
      show ∀ c ∈ ("-" ++ m.succ.repr).toList, IsNumberChar c
      rw [String.toList_append, Nat.toList_repr]
      exact List.forall_mem_append.2 ⟨sign true, fun c => isNumberChar_of_mem_toDigits⟩
  | double x =>
    rw [String.toList_append, List.forall_mem_append] at letters
    cases x with
    | nan serial => exact letters.1
    | infinite negative =>
      rw [Number.text, Binary64.text, String.toList_append]
      exact List.forall_mem_append.2 ⟨sign negative, letters.2⟩
    | finite negative units =>
      rw [Number.text, Binary64.text, String.toList_append, String.toList_ofList]
      exact List.forall_mem_append.2 ⟨sign negative, Binary64.magnitude_chars .message units⟩

end ShapeExport
