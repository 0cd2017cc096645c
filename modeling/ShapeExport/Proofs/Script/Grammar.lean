import Mathlib
import ShapeExport.Proofs.Script.Scanning

/-!
# The texts that the check of a script accepts

The check is a scanner with a stack. What it accepts is told by a grammar: a text is split from the left into
pieces, and the brackets among them are nested.

* `Script.Piece`, `Script.Piece.Fits` : string literals, comments and other characters, and when one of them may
  stand before what follows;
* `Script.Splits`, `Script.Splits.unique` : a text is split into pieces where another text stands behind it, in one
  way at most;
* `Script.Nested`, `Script.Acceptable` : brackets that are closed in the right order, and texts with such brackets;
* `Script.bracket?_cases`, `Script.foldlM_bracket?_eq_iff` : the stack, which is empty at the end for nested
  brackets only;
* `Script.afterString?_eq_some_iff`, `Script.afterBlock?_eq_some_iff`, `Script.exists_line` : where literals and
  comments end;
* `Script.checkFrom_piece`, `Script.checkFrom_of_splits` : what the check does with a piece, and with a text that
  is split;
* `Script.Ends`, `Script.endsBehind_checkFrom` : the check splits a text as far as it can;
* `Script.Explains` : what a fault says of a text;
* `checkOutput_script` : the check accepts the acceptable texts, and its faults say the truth of the others.
-/

namespace ShapeExport

namespace Script

/-! ## Pieces -/

/-- Text in which a mark stands behind backslashes only. A backslash protects the character behind it. -/
inductive Protected (mark : Char) : List Char → Prop
  | nil : Protected mark []
  | plain {c cs} : c ≠ '\\' → c ≠ mark → Protected mark cs → Protected mark (c :: cs)
  | escape {c cs} : Protected mark cs → Protected mark ('\\' :: c :: cs)

/-- String literals and comments, without the marks around them, and other characters. -/
inductive Piece
  | string (mark : Char) (body : List Char)
  | line (body : List Char)
  | block (body : List Char)
  | other (c : Char)

namespace Piece

/-- A line comment does not include the line break. -/
def text : Piece → List Char
  | string mark body => mark :: (body ++ [mark])
  | line body => '/' :: '/' :: body
  | block body => '/' :: '*' :: (body ++ ['*', '/'])
  | other c => [c]

/-- Whether a piece may stand before a character, or at the end. Literals and block comments end where they first
can, and line comments at the end of the line. No other character opens a literal or a comment. -/
def Fits (next : Option Char) : Piece → Prop
  | string mark body => isQuote mark ∧ Protected mark body
  | line body => '\n' ∉ body ∧ (next = none ∨ next = some '\n')
  | block body => ¬ ['*', '/'] <:+: body ++ ['*']
  | other c => ¬ isQuote c ∧ ¬ (c = '/' ∧ (next = some '/' ∨ next = some '*'))

end Piece

/-- A text is split into pieces when `behind` stands behind it. -/
inductive Splits (behind : List Char) : List Char → List Piece → Prop
  | nil : Splits behind [] []
  | cons {p cs ps} : p.Fits (cs ++ behind).head? → Splits behind cs ps → Splits behind (p.text ++ cs) (p :: ps)

/-! ## Brackets -/

/-- Whether a character opens or closes. -/
def isBracket (c : Char) : Bool := brackets.any fun p => p.1 = c || p.2 = c

/-- The brackets of a piece. Those in literals and comments are none. -/
def Piece.brackets : Piece → List Char
  | other c => if isBracket c then [c] else []
  | _ => []

/-- Brackets that are closed in the order in which they are to be. -/
inductive Nested : List Char → Prop
  | nil : Nested []
  | pair {opening closing inner rest} : (opening, closing) ∈ brackets → Nested inner → Nested rest →
      Nested (opening :: (inner ++ closing :: rest))

/-- Brackets that close those that are to be closed, with nested ones in front of each. -/
inductive Closes : List Char → List Char → Prop
  | nil {cs} : Nested cs → Closes [] cs
  | cons {closing toClose inner rest} : Nested inner → Closes toClose rest →
      Closes (closing :: toClose) (inner ++ closing :: rest)

/-- A text that has a split in which the brackets are nested. -/
def Acceptable (cs : List Char) : Prop := ∃ ps, Splits [] cs ps ∧ Nested (ps.flatMap Piece.brackets)

section Brackets

variable {c opening closing : Char} {toClose now cs : List Char}

theorem isBracket_iff : isBracket c ↔ ∃ p ∈ brackets, p.1 = c ∨ p.2 = c := by
  simp only [isBracket, List.any_eq_true, Bool.or_eq_true, decide_eq_true_eq]

theorem bracket?_opening (h : (opening, closing) ∈ brackets) :
    bracket? toClose opening = some (closing :: toClose) := by
  simp only [brackets, List.mem_cons, List.not_mem_nil, or_false, Prod.mk.injEq] at h
  rcases h with ⟨rfl, rfl⟩ | ⟨rfl, rfl⟩ | ⟨rfl, rfl⟩ <;> rfl

theorem bracket?_closing (h : (opening, closing) ∈ brackets) :
    bracket? (closing :: toClose) closing = some toClose := by
  simp only [brackets, List.mem_cons, List.not_mem_nil, or_false, Prod.mk.injEq] at h
  rcases h with ⟨rfl, rfl⟩ | ⟨rfl, rfl⟩ | ⟨rfl, rfl⟩ <;> rfl

/-- All that a character can do to the brackets that are to be closed: it opens, it closes, or it is none. -/
theorem bracket?_cases (toClose : List Char) (c : Char) :
    (∃ closing, (c, closing) ∈ brackets ∧ bracket? toClose c = some (closing :: toClose)) ∨
      ((∃ opening, (opening, c) ∈ brackets) ∧
        bracket? toClose c = if toClose.head? = some c then some toClose.tail else none) ∨
      (isBracket c = false ∧ bracket? toClose c = some toClose) := by
  unfold bracket?
  split
  · next closing h =>
    obtain ⟨front, back, e, -⟩ := List.lookup_eq_some_iff.1 h
    exact Or.inl ⟨closing, e ▸ List.mem_append_right _ List.mem_cons_self, rfl⟩
  · next h =>
    have opens : ∀ p ∈ brackets, p.1 ≠ c := by
      intro p hp e
      exact absurd e.symm (by simpa using List.lookup_eq_none_iff.1 h p hp)
    split
    · next closes =>
      obtain ⟨⟨opening, closing⟩, hp, e⟩ := List.any_eq_true.1 closes
      obtain rfl : closing = c := of_decide_eq_true e
      refine Or.inr (Or.inl ⟨⟨opening, hp⟩, ?_⟩)
      cases toClose with
      | nil => rfl
      | cons d toClose => simp [eq_comm]
    · next closes =>
      refine Or.inr (Or.inr ⟨?_, rfl⟩)
      rw [Bool.eq_false_iff]
      intro bracket
      obtain ⟨p, hp, e | e⟩ := isBracket_iff.1 bracket
      · exact opens p hp e
      · exact closes (List.any_eq_true.2 ⟨p, hp, decide_eq_true e⟩)

theorem bracket?_of_not_isBracket (h : ¬ isBracket c) : bracket? toClose c = some toClose := by
  rcases bracket?_cases toClose c with ⟨d, pair, -⟩ | ⟨⟨d, pair⟩, -⟩ | ⟨-, e⟩
  · exact absurd (isBracket_iff.2 ⟨_, pair, Or.inl rfl⟩) h
  · exact absurd (isBracket_iff.2 ⟨_, pair, Or.inr rfl⟩) h
  · exact e

/-! ## The stack -/

/-- Nested brackets leave those around them. -/
theorem Nested.foldlM_bracket? (h : Nested cs) (toClose : List Char) :
    cs.foldlM bracket? toClose = some toClose := by
  induction h generalizing toClose with
  | nil => rfl
  | pair pair _ _ ihInner ihRest =>
    rw [List.foldlM_cons, bracket?_opening pair, Option.bind_eq_bind, Option.bind_some, List.foldlM_append, ihInner,
      Option.bind_eq_bind, Option.bind_some, List.foldlM_cons, bracket?_closing pair, Option.bind_eq_bind,
      Option.bind_some, ihRest]

theorem Closes.pair {inner rest : List Char} (pair : (opening, closing) ∈ brackets) (hi : Nested inner)
    (h : Closes toClose rest) : Closes toClose (opening :: (inner ++ closing :: rest)) := by
  cases h with
  | nil hr => exact .nil (.pair pair hi hr)
  | cons hr h => simpa using Closes.cons (Nested.pair pair hi hr) h

/-- The induction is on the brackets. Behind one that opens, those that close it are split off again. -/
theorem closes_of_foldlM (all : ∀ c ∈ cs, isBracket c) (h : cs.foldlM bracket? toClose = some []) :
    Closes toClose cs := by
  induction cs generalizing toClose with
  | nil =>
    cases h
    exact .nil .nil
  | cons c cs ih =>
    rw [List.forall_mem_cons] at all
    rw [List.foldlM_cons] at h
    rcases bracket?_cases toClose c with ⟨closing, pair, e⟩ | ⟨-, e⟩ | ⟨other, -⟩
    · rw [e] at h
      cases ih all.2 h with
      | cons inner rest => exact rest.pair pair inner
    · rw [e] at h
      split at h
      · next head =>
        obtain ⟨outer, rfl⟩ := List.head?_eq_some_iff.1 head
        exact .cons .nil (ih all.2 h)
      · cases h
    · rw [other] at all
      cases all.1

/-- The stack is empty at the end for nested brackets only. -/
theorem foldlM_bracket?_eq_iff (all : ∀ c ∈ cs, isBracket c) : cs.foldlM bracket? [] = some [] ↔ Nested cs := by
  refine ⟨fun h => ?_, fun h => h.foldlM_bracket? []⟩
  cases closes_of_foldlM all h with
  | nil h => exact h

/-- What is on the stack are brackets that close. -/
theorem closing_of_foldlM (h : cs.foldlM bracket? toClose = some now)
    (closing : ∀ c ∈ toClose, ∃ opening, (opening, c) ∈ brackets) :
    ∀ c ∈ now, ∃ opening, (opening, c) ∈ brackets := by
  induction cs generalizing toClose with
  | nil =>
    cases h
    exact closing
  | cons c cs ih =>
    rw [List.foldlM_cons] at h
    rcases bracket?_cases toClose c with ⟨d, pair, e⟩ | ⟨-, e⟩ | ⟨-, e⟩
    · rw [e] at h
      exact ih h (List.forall_mem_cons.2 ⟨⟨c, pair⟩, closing⟩)
    · rw [e] at h
      split at h
      · exact ih h fun d hd => closing d (List.mem_of_mem_tail hd)
      · cases h
    · rw [e] at h
      exact ih h closing

/-- The stack closes itself. -/
theorem foldlM_self (closing : ∀ c ∈ now, ∃ opening, (opening, c) ∈ brackets) :
    now.foldlM bracket? now = some [] := by
  induction now with
  | nil => rfl
  | cons c now ih =>
    rw [List.forall_mem_cons] at closing
    obtain ⟨⟨opening, pair⟩, outer⟩ := closing
    rw [List.foldlM_cons, bracket?_closing pair, Option.bind_eq_bind, Option.bind_some, ih outer]

theorem foldlM_brackets_other (toClose : List Char) (c : Char) :
    (Piece.other c).brackets.foldlM bracket? toClose = bracket? toClose c := by
  rw [Piece.brackets]
  split
  · rw [List.foldlM_cons]
    exact Option.bind_fun_some _
  · next none => exact (bracket?_of_not_isBracket none).symm

theorem isBracket_of_mem_flatMap (ps : List Piece) : ∀ c ∈ ps.flatMap Piece.brackets, isBracket c := by
  intro c hc
  obtain ⟨p, -, hp⟩ := List.mem_flatMap.1 hc
  cases p with
  | other d =>
    rw [Piece.brackets] at hp
    split at hp
    · next bracket =>
      rw [List.mem_singleton.1 hp]
      exact bracket
    · cases hp
  | _ => cases hp

/-- With the stack behind them, the brackets of a text are nested. -/
theorem nested_append_stack {ps : List Piece} (h : (ps.flatMap Piece.brackets).foldlM bracket? [] = some now) :
    Nested (ps.flatMap Piece.brackets ++ now) := by
  have closing := closing_of_foldlM h (List.forall_mem_nil _)
  have all : ∀ c ∈ ps.flatMap Piece.brackets ++ now, isBracket c := by
    rw [List.forall_mem_append]
    refine ⟨isBracket_of_mem_flatMap ps, fun c hc => ?_⟩
    obtain ⟨opening, pair⟩ := closing c hc
    exact isBracket_iff.2 ⟨_, pair, Or.inr rfl⟩
  rw [← foldlM_bracket?_eq_iff all, List.foldlM_append, h]
  exact foldlM_self closing

end Brackets

/-! ## Ends of literals and comments -/

section Ends

variable {mark : Char} {cs rest : List Char}

/-- A literal ends with the first mark that is not protected. -/
theorem afterString?_eq_some_iff (hm : mark ≠ '\\') :
    afterString? mark cs = some rest ↔ ∃ body, Protected mark body ∧ cs = body ++ mark :: rest := by
  constructor
  · intro h
    fun_induction afterString? mark cs with
    | case1 => cases h
    | case2 => cases h
    | case3 c cs ih =>
      obtain ⟨body, hb, rfl⟩ := ih h
      exact ⟨_, .escape hb, rfl⟩
    | case4 =>
      cases h
      exact ⟨[], .nil, rfl⟩
    | case5 c cs plain other ih =>
      obtain ⟨body, hb, rfl⟩ := ih h
      exact ⟨_, .plain plain other hb, rfl⟩
  · rintro ⟨body, hb, rfl⟩
    induction hb with
    | nil =>
      rw [List.nil_append, afterString?.eq_def]
      exact (if_neg hm).trans (if_pos rfl)
    | plain plain other _ ih =>
      rw [List.cons_append, afterString?.eq_def]
      exact (if_neg plain).trans ((if_neg other).trans ih)
    | escape _ ih =>
      rw [List.cons_append, List.cons_append, afterString?.eq_def]
      exact (if_pos rfl).trans ih

theorem ne_backslash_of_isQuote (h : isQuote mark) : mark ≠ '\\' := by
  rintro rfl
  cases h

/-- A block comment ends with the first mark that ends one. -/
theorem afterBlock?_eq_some_iff :
    afterBlock? cs = some rest ↔ ∃ body, ¬ ['*', '/'] <:+: body ++ ['*'] ∧ cs = body ++ '*' :: '/' :: rest := by
  constructor
  · intro h
    fun_induction afterBlock? cs with
    | case1 =>
      cases h
      exact ⟨[], fun h => absurd h.length_le (by decide), rfl⟩
    | case2 c cs first ih =>
      obtain ⟨body, hb, rfl⟩ := ih h
      refine ⟨c :: body, not_infix_cons hb ?_, rfl⟩
      intro star slash
      cases body with
      | nil => cases slash
      | cons d body =>
        cases slash
        exact first _ star rfl
    | case3 => cases h
  · rintro ⟨body, hb, rfl⟩
    exact afterBlock?_append hb

theorem not_infix_of_afterBlock? (h : afterBlock? cs = none) : ¬ ['*', '/'] <:+: cs := by
  fun_induction afterBlock? cs with
  | case1 => cases h
  | case2 c cs first ih =>
    refine not_infix_cons (ih h) ?_
    intro star slash
    obtain ⟨tail, rfl⟩ := List.head?_eq_some_iff.1 slash
    exact first _ star rfl
  | case3 => exact fun h => absurd h.length_le (by decide)

/-- The line that a line comment takes up. -/
theorem exists_line (cs : List Char) :
    ∃ body, '\n' ∉ body ∧ ((afterLine cs).head? = none ∨ (afterLine cs).head? = some '\n') ∧
      cs = body ++ afterLine cs := by
  refine ⟨cs.takeWhile (· ≠ '\n'), ?_, ?_, List.takeWhile_append_dropWhile.symm⟩
  · intro h
    simpa using List.mem_takeWhile_imp h
  · have head := List.head?_dropWhile_not (· ≠ '\n') cs
    rw [afterLine]
    cases e : (cs.dropWhile (· ≠ '\n')).head? with
    | none => exact Or.inl rfl
    | some c =>
      rw [e] at head
      exact Or.inr (congrArg some (by simpa using head))

end Ends

/-! ## One piece -/

variable {length : Nat} {toClose now cs rest behind front : List Char} {p : Piece} {ps qs : List Piece}

/-- The check goes on behind a piece, with its bracket on the stack or off it. -/
theorem checkFrom_piece (fits : p.Fits rest.head?) (h : p.brackets.foldlM bracket? toClose = some now) :
    checkFrom length toClose (p.text ++ rest) = checkFrom length now rest := by
  cases p with
  | string mark body =>
    cases h
    have ends : afterString? mark (body ++ mark :: rest) = some rest :=
      (afterString?_eq_some_iff (ne_backslash_of_isQuote fits.1)).2 ⟨body, fits.2, rfl⟩
    rw [Piece.text, List.cons_append, List.append_assoc, List.singleton_append, checkFrom, if_pos fits.1]
    split
    · next e => cases e.symm.trans ends
    · next e =>
      cases e.symm.trans ends
      rfl
  | line body =>
    cases h
    have noBreak : '\n' ∉ '/' :: body := by
      rw [List.mem_cons, not_or]
      exact ⟨by decide, fits.1⟩
    rw [Piece.text, List.cons_append, List.cons_append, checkFrom, if_neg (by decide), if_pos ⟨rfl, rfl⟩,
      ← List.cons_append, afterLine_append noBreak fits.2]
  | block body =>
    cases h
    have ends : afterBlock? (body ++ '*' :: '/' :: rest) = some rest := afterBlock?_append fits
    rw [Piece.text, List.cons_append, List.cons_append, List.append_assoc, checkFrom, if_neg (by decide),
      if_neg (by simp), if_pos ⟨rfl, rfl⟩]
    split
    · next e => cases e.symm.trans ends
    · next e =>
      cases e.symm.trans ends
      rfl
  | other c =>
    rw [foldlM_brackets_other] at h
    rw [Piece.text, List.singleton_append, checkFrom, if_neg fits.1, if_neg fun e => fits.2 ⟨e.1, Or.inl e.2⟩,
      if_neg fun e => fits.2 ⟨e.1, Or.inr e.2⟩, h]

/-- The check goes on behind a text that is split. -/
theorem checkFrom_of_splits (h : Splits behind cs ps)
    (hb : (ps.flatMap Piece.brackets).foldlM bracket? toClose = some now) :
    checkFrom length toClose (cs ++ behind) = checkFrom length now behind := by
  induction h generalizing toClose with
  | nil =>
    cases hb
    rfl
  | cons fits _ ih =>
    rw [List.flatMap_cons, List.foldlM_append] at hb
    obtain ⟨next, hp, hb⟩ := Option.bind_eq_some_iff.1 hb
    rw [List.append_assoc, checkFrom_piece fits hp, ih hb]

/-! ## Splits -/

theorem Splits.append (h : Splits (cs ++ behind) front ps) (hq : Splits behind cs qs) :
    Splits behind (front ++ cs) (ps ++ qs) := by
  induction h with
  | nil => exact hq
  | cons fits _ ih =>
    rw [List.append_assoc]
    exact .cons (by rwa [List.append_assoc]) ih

/-- Only the character behind a text matters. -/
theorem Splits.of_fits {other : List Char} (h : Splits behind cs ps)
    (hf : ∀ p : Piece, p.Fits behind.head? → p.Fits other.head?) : Splits other cs ps := by
  induction h with
  | nil => exact .nil
  | @cons p cs ps fits _ ih =>
    refine .cons ?_ ih
    cases cs with
    | nil => exact hf p fits
    | cons c cs => exact fits

/-- A text that starts with a piece starts with no other. -/
theorem Piece.eq_of_text_append {q : Piece} {ds : List Char} (hp : p.Fits cs.head?) (hq : q.Fits ds.head?)
    (h : p.text ++ cs = q.text ++ ds) : p = q ∧ cs = ds := by
  cases p <;> cases q
  case string.string mark body mark' body' =>
    simp only [text, List.cons_append, List.append_assoc, List.nil_append, List.cons.injEq] at h
    obtain ⟨rfl, h⟩ := h
    have ends : afterString? mark (body ++ mark :: cs) = some cs :=
      (afterString?_eq_some_iff (ne_backslash_of_isQuote hp.1)).2 ⟨body, hp.2, rfl⟩
    rw [h, (afterString?_eq_some_iff (ne_backslash_of_isQuote hq.1)).2 ⟨body', hq.2, rfl⟩] at ends
    cases ends
    exact ⟨by rw [List.append_cancel_right h], rfl⟩
  case line.line body body' =>
    simp only [text, List.cons_append, List.cons.injEq, true_and] at h
    have ends := afterLine_append hp.1 hp.2
    rw [h, afterLine_append hq.1 hq.2] at ends
    cases ends
    exact ⟨by rw [List.append_cancel_right h], rfl⟩
  case block.block body body' =>
    simp only [text, List.cons_append, List.append_assoc, List.nil_append, List.cons.injEq, true_and] at h
    have ends : afterBlock? (body ++ '*' :: '/' :: cs) = some cs := afterBlock?_append hp
    rw [h, afterBlock?_append hq] at ends
    cases ends
    exact ⟨by rw [List.append_cancel_right h], rfl⟩
  case other.other c d =>
    simp only [text, List.singleton_append, List.cons.injEq] at h
    exact ⟨by rw [h.1], h.2⟩
  -- The first two characters tell pieces of different kinds apart.
  all_goals
    simp only [text, List.cons_append, List.nil_append, List.cons.injEq] at h
    unfold Fits at hp hq
    grind [isQuote]

theorem Piece.text_ne_nil (p : Piece) : p.text ≠ [] := by
  cases p <;> exact List.cons_ne_nil _ _

/-- A text is split in one way at most. -/
theorem Splits.unique (hp : Splits behind cs ps) (hq : Splits behind cs qs) : ps = qs := by
  induction hp generalizing qs with
  | nil =>
    generalize e : ([] : List Char) = cs at hq
    cases hq with
    | nil => rfl
    | @cons q => exact absurd (List.append_eq_nil_iff.1 e.symm).1 q.text_ne_nil
  | @cons p cs ps fits h ih =>
    generalize e : p.text ++ cs = ds at hq
    cases hq with
    | nil => exact absurd (List.append_eq_nil_iff.1 e).1 p.text_ne_nil
    | @cons q ds qs fits' hq =>
      have same := Piece.eq_of_text_append fits fits' (by rw [← List.append_assoc, e, List.append_assoc])
      obtain rfl := List.append_cancel_right same.2
      rw [same.1, ih hq]

/-! ## The ends of the check -/

/-- How the check ends with some brackets to be closed and a text left, where no piece can be split off. -/
inductive Ends (length : Nat) (toClose : List Char) : List Char → Except OutputFault Unit → Prop
  | accepted : toClose = [] → Ends length toClose [] (.ok ())
  | unclosed : toClose ≠ [] → Ends length toClose [] (.error (.unclosed toClose.length))
  | literal {mark back} : isQuote mark → afterString? mark back = none →
      Ends length toClose (mark :: back) (.error (.unterminatedString (length - (back.length + 1))))
  | comment {back} : afterBlock? back = none →
      Ends length toClose ('/' :: '*' :: back) (.error .unterminatedComment)
  | bracket {c back} : bracket? toClose c = none →
      Ends length toClose (c :: back) (.error (.unbalanced c (length - (back.length + 1))))

/-- A text is split up to the place where the check ends. -/
def EndsBehind (length : Nat) (toClose cs : List Char) (result : Except OutputFault Unit) : Prop :=
  ∃ front rest ps now, cs = front ++ rest ∧ Splits rest front ps ∧
    (ps.flatMap Piece.brackets).foldlM bracket? toClose = some now ∧ Ends length now rest result

variable {result : Except OutputFault Unit}

theorem Ends.endsBehind (h : Ends length toClose cs result) : EndsBehind length toClose cs result :=
  ⟨[], cs, [], toClose, rfl, .nil, rfl, h⟩

theorem EndsBehind.piece (fits : p.Fits cs.head?) (hp : p.brackets.foldlM bracket? toClose = some now)
    (h : EndsBehind length now cs result) : EndsBehind length toClose (p.text ++ cs) result := by
  obtain ⟨front, rest, ps, last, rfl, splits, brackets, ends⟩ := h
  refine ⟨p.text ++ front, rest, p :: ps, last, (List.append_assoc ..).symm, .cons fits splits, ?_, ends⟩
  rw [List.flatMap_cons, List.foldlM_append, hp]
  exact brackets

/-- The cases are those of the check: it ends, or a piece is split off. -/
theorem endsBehind_checkFrom (length : Nat) (toClose cs : List Char) :
    EndsBehind length toClose cs (checkFrom length toClose cs) := by
  fun_induction checkFrom length toClose cs with
  | case1 toClose empty => exact (Ends.accepted (List.isEmpty_iff.1 empty)).endsBehind
  | case2 toClose filled => exact (Ends.unclosed fun e => filled (List.isEmpty_iff.2 e)).endsBehind
  | case3 toClose mark back quote unended => exact (Ends.literal quote unended).endsBehind
  | case4 toClose mark back quote rest ended ih =>
    obtain ⟨body, hb, rfl⟩ := (afterString?_eq_some_iff (ne_backslash_of_isQuote quote)).1 ended
    have whole : mark :: (body ++ mark :: rest) = (Piece.string mark body).text ++ rest := by simp [Piece.text]
    rw [whole]
    exact ih.piece ⟨quote, hb⟩ rfl
  | case5 toClose c back _ slashes ih =>
    obtain ⟨rfl, slash⟩ := slashes
    obtain ⟨cs, rfl⟩ := List.head?_eq_some_iff.1 slash
    obtain ⟨body, noBreak, next, e⟩ := exists_line cs
    have whole : '/' :: '/' :: cs = (Piece.line body).text ++ afterLine ('/' :: cs) := congrArg ('/' :: '/' :: ·) e
    rw [whole]
    exact ih.piece ⟨noBreak, next⟩ rfl
  | case6 toClose c back _ _ opens unended =>
    obtain ⟨rfl, star⟩ := opens
    obtain ⟨cs, rfl⟩ := List.head?_eq_some_iff.1 star
    exact (Ends.comment unended).endsBehind
  | case7 toClose c back _ _ opens rest ended ih =>
    obtain ⟨rfl, star⟩ := opens
    obtain ⟨cs, rfl⟩ := List.head?_eq_some_iff.1 star
    obtain ⟨body, hb, e⟩ := afterBlock?_eq_some_iff.1 ended
    have whole : '/' :: '*' :: cs = (Piece.block body).text ++ rest := by
      rw [show cs = _ from e]
      simp [Piece.text]
    rw [whole]
    exact ih.piece hb rfl
  | case8 toClose c back _ _ _ refused => exact (Ends.bracket refused).endsBehind
  | case9 toClose c back quote line block now next ih =>
    refine ih.piece (p := .other c) ⟨quote, ?_⟩ ?_
    · rintro ⟨rfl, slash | star⟩
      · exact line ⟨rfl, slash⟩
      · exact block ⟨rfl, star⟩
    · rw [foldlM_brackets_other, next]

/-- The check accepts the acceptable texts, whatever length it is told. -/
theorem checkFrom_eq_ok_iff (length : Nat) (cs : List Char) : checkFrom length [] cs = .ok () ↔ Acceptable cs := by
  constructor
  · intro h
    obtain ⟨front, rest, ps, now, rfl, splits, brackets, ends⟩ := endsBehind_checkFrom length [] cs
    rw [h] at ends
    cases ends with
    | accepted empty =>
      rw [empty, foldlM_bracket?_eq_iff (isBracket_of_mem_flatMap ps)] at brackets
      rw [List.append_nil]
      exact ⟨ps, splits, brackets⟩
  · rintro ⟨ps, splits, nested⟩
    have stack := (foldlM_bracket?_eq_iff (isBracket_of_mem_flatMap ps)).2 nested
    have scan : checkFrom length [] (cs ++ []) = checkFrom length [] [] := checkFrom_of_splits splits stack
    rw [List.append_nil] at scan
    rw [scan, checkFrom]
    rfl

/-! ## Faults -/

/-- A text with which an acceptable one starts. -/
def Continues (front : List Char) : Prop := ∃ cs, front <+: cs ∧ Acceptable cs

/-- What a fault says of a text. -/
def Explains (cs : List Char) : OutputFault → Prop
  | .unterminatedString offset =>
    ∃ front mark back ps, cs = front ++ mark :: back ∧ front.length = offset ∧ Splits (mark :: back) front ps ∧
      isQuote mark ∧ ∀ body rest, Protected mark body → back ≠ body ++ mark :: rest
  | .unterminatedComment =>
    ∃ front back ps, cs = front ++ '/' :: '*' :: back ∧ Splits ('/' :: '*' :: back) front ps ∧
      ¬ ['*', '/'] <:+: back
  | .unbalanced c offset =>
    ∃ front back, cs = front ++ c :: back ∧ front.length = offset ∧ Continues front ∧ ¬ Continues (front ++ [c])
  | .unclosed count =>
    ∃ ps closing, Splits [] cs ps ∧ closing.length = count ∧ closing ≠ [] ∧
      Nested (ps.flatMap Piece.brackets ++ closing)
  | .notJson => False

section Closing

variable {opening c : Char} {back : List Char}

theorem ne_of_closing (pair : (opening, c) ∈ brackets) : isQuote c = false ∧ c ∉ ['/', '*', '\n'] := by
  simp only [brackets, List.mem_cons, List.not_mem_nil, or_false, Prod.mk.injEq] at pair
  rcases pair with ⟨rfl, rfl⟩ | ⟨rfl, rfl⟩ | ⟨rfl, rfl⟩ <;> decide

/-- The brackets that are to be closed, each as a piece. -/
theorem splits_closing (closing : ∀ c ∈ now, ∃ opening, (opening, c) ∈ brackets) :
    Splits [] now (now.map .other) ∧ (now.map Piece.other).flatMap Piece.brackets = now := by
  induction now with
  | nil => exact ⟨.nil, rfl⟩
  | cons c now ih =>
    rw [List.forall_mem_cons] at closing
    obtain ⟨⟨opening, pair⟩, outer⟩ := closing
    obtain ⟨splits, same⟩ := ih outer
    obtain ⟨quote, other⟩ := ne_of_closing pair
    have bracket : isBracket c := isBracket_iff.2 ⟨_, pair, Or.inr rfl⟩
    refine ⟨.cons (p := .other c) ⟨by simp [quote], ?_⟩ splits, ?_⟩
    · rintro ⟨rfl, -⟩
      exact other (by decide)
    · rw [List.map_cons, List.flatMap_cons, same, Piece.brackets, if_pos bracket]
      rfl

/-- In front of a bracket that closes, the stack may follow instead. -/
theorem Splits.of_closing (h : Splits (c :: back) front ps) (pair : (opening, c) ∈ brackets)
    (closing : ∀ c ∈ now, ∃ opening, (opening, c) ∈ brackets) : Splits now front ps := by
  refine h.of_fits fun p fits => ?_
  have other := (ne_of_closing pair).2
  cases p with
  | string => exact fits
  | block => exact fits
  | line body =>
    rcases fits.2 with next | next
    · cases next
    · cases next
      exact absurd (by decide) other
  | other d =>
    refine ⟨fits.1, ?_⟩
    rintro ⟨rfl, next⟩
    have follows : ∀ d, now.head? = some d → d ∉ ['/', '*', '\n'] := by
      intro d hd
      obtain ⟨opening, pair⟩ := closing d (List.mem_of_mem_head? hd)
      exact (ne_of_closing pair).2
    rcases next with next | next
    · exact follows _ next (by decide)
    · exact follows _ next (by decide)

/-- The stack completes what is in front of a bracket that is refused. -/
theorem continues_front (h : Splits (c :: back) front ps)
    (hb : (ps.flatMap Piece.brackets).foldlM bracket? [] = some now) (pair : (opening, c) ∈ brackets) :
    Continues front := by
  have closing := closing_of_foldlM hb (List.forall_mem_nil _)
  obtain ⟨splits, same⟩ := splits_closing closing
  have whole : Splits [] (front ++ now) (ps ++ now.map .other) :=
    Splits.append (by simpa using h.of_closing pair closing) splits
  refine ⟨front ++ now, List.prefix_append _ _, _, whole, ?_⟩
  rw [List.flatMap_append, same]
  exact nested_append_stack hb

/-- Nothing completes a text once a bracket is refused. -/
theorem not_continues_concat (h : Splits (c :: back) front ps)
    (hb : (ps.flatMap Piece.brackets).foldlM bracket? [] = some now) (pair : (opening, c) ∈ brackets)
    (refused : bracket? now c = none) : ¬ Continues (front ++ [c]) := by
  rintro ⟨cs, ⟨more, rfl⟩, acceptable⟩
  obtain ⟨quote, other⟩ := ne_of_closing pair
  have slash : c ≠ '/' := by
    rintro rfl
    exact other (by decide)
  have splits : Splits (c :: more) front ps := h.of_fits fun _ fits => fits
  have scan : checkFrom 0 [] (front ++ c :: more) = checkFrom 0 now (c :: more) := checkFrom_of_splits splits hb
  rw [checkFrom, if_neg (by simp [quote]), if_neg fun e => slash e.1, if_neg fun e => slash e.1, refused] at scan
  rw [List.append_assoc, List.singleton_append, ← checkFrom_eq_ok_iff 0, scan] at acceptable
  cases acceptable

end Closing

/-- The faults of the check say the truth. -/
theorem explains_of_checkFrom {fault : OutputFault} (h : checkFrom cs.length [] cs = .error fault) :
    Explains cs fault := by
  obtain ⟨front, rest, ps, now, rfl, splits, brackets, ends⟩ := endsBehind_checkFrom cs.length [] cs
  have offset (c : Char) (back : List Char) : (front ++ c :: back).length - (back.length + 1) = front.length := by
    simp
  rw [h] at ends
  cases ends with
  | unclosed filled =>
    rw [List.append_nil]
    exact ⟨ps, now, splits, rfl, filled, nested_append_stack brackets⟩
  | @literal mark back quote unended =>
    refine ⟨front, mark, back, ps, rfl, (offset mark back).symm, splits, quote, ?_⟩
    rintro body rest hb rfl
    rw [(afterString?_eq_some_iff (ne_backslash_of_isQuote quote)).2 ⟨body, hb, rfl⟩] at unended
    cases unended
  | @comment back unended => exact ⟨front, back, ps, rfl, splits, not_infix_of_afterBlock? unended⟩
  | @bracket c back refused =>
    have pair : ∃ opening, (opening, c) ∈ Script.brackets := by
      rcases bracket?_cases now c with ⟨_, -, e⟩ | ⟨pair, -⟩ | ⟨-, e⟩
      · cases refused.symm.trans e
      · exact pair
      · cases refused.symm.trans e
    obtain ⟨opening, pair⟩ := pair
    exact ⟨front, back, rfl, (offset c back).symm, continues_front splits brackets pair,
      not_continues_concat splits brackets pair refused⟩

end Script

variable {language : String}

/-- Every text is accepted or refused: it is accepted if it is acceptable and not otherwise, and what a fault says
of it is true. -/
theorem checkOutput_script (h : language ∈ ["typescript", "zod"]) (s : String) :
    (checkOutput language s = .ok () ↔ Script.Acceptable s.toList) ∧
      (checkOutput language s = .ok () ∨
        ∃ fault, checkOutput language s = .error (.invalidOutput fault) ∧ Script.Explains s.toList fault) := by
  have script : checkOutput language s = (Script.check s).mapError .invalidOutput := by
    rw [List.mem_cons, List.mem_singleton] at h
    rcases h with rfl | rfl <;> rfl
  have accepts := Script.checkFrom_eq_ok_iff s.length s.toList
  rw [script, Script.check]
  cases result : Script.checkFrom s.length [] s.toList with
  | ok =>
    rw [result] at accepts
    exact ⟨⟨fun _ => accepts.1 rfl, fun _ => rfl⟩, Or.inl rfl⟩
  | error fault =>
    rw [result] at accepts
    refine ⟨⟨?_, ?_⟩, Or.inr ⟨fault, rfl, Script.explains_of_checkFrom result⟩⟩
    · intro accepted
      cases accepted
    · intro acceptable
      cases accepts.2 acceptable

/-- A bracket in a literal is none. Of two texts with such a literal, one closes its brackets and the other one
closes a wrong one. -/
theorem checkOutput_script_call :
    "zod" ∈ ["typescript", "zod"] ∧ checkOutput "zod" "f(\"[\")" = .ok () ∧ Script.Acceptable "f(\"[\")".toList ∧
      checkOutput "zod" "f(\"[\"]" = .error (.invalidOutput (.unbalanced ']' 5)) ∧
      Script.Explains "f(\"[\"]".toList (.unbalanced ']' 5) := by
  have listed : "zod" ∈ ["typescript", "zod"] := by decide
  have accepted : checkOutput "zod" "f(\"[\")" = .ok () := by cbv
  have refused : checkOutput "zod" "f(\"[\"]" = .error (.invalidOutput (.unbalanced ']' 5)) := by cbv
  refine ⟨listed, accepted, (checkOutput_script listed "f(\"[\")").1.1 accepted, refused, ?_⟩
  rcases (checkOutput_script listed "f(\"[\"]").2 with e | ⟨fault, e, explains⟩
  · cases refused.symm.trans e
  · cases refused.symm.trans e
    exact explains

end ShapeExport
