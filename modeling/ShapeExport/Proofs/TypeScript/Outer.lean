import ShapeExport.Proofs.Script.Scanning

/-!
# What lies outside the brackets of a type

Operators bind what stands beside them, so what counts of a text are the operators outside its brackets.

* `TypeScript.outer?` : the characters of a text outside its brackets, string literals and comments;
* `TypeScript.Whole` : a piece of text leaves brackets as they are, and some characters outside of them;
* `TypeScript.Whole.append`, `TypeScript.Whole.bracketed`, `TypeScript.Whole.literal`,
  `TypeScript.Whole.comment` : how such pieces are put together.
-/

namespace ShapeExport.TypeScript
open Script

/-! ## The scan -/

/-- The brackets of types: angles, and those of scripts. -/
def brackets : List (Char × Char) := ('<', '>') :: Script.brackets

/-- The brackets that are to be closed after a character, the innermost first; nothing if the character
closes another bracket. -/
def bracket? (toClose : List Char) (c : Char) : Option (List Char) :=
  if c = '<' then some ('>' :: toClose)
  else if c = '>' then (if toClose.head? = some '>' then some toClose.tail else none)
  else Script.bracket? toClose c

/-- The characters outside brackets in what is left of a text. There are none if brackets do not match, or
a literal or a comment has no end. -/
def outerFrom (toClose : List Char) (cs : List Char) : Option (List Char) :=
  match cs with
  | [] => if toClose.isEmpty then some [] else none
  | c :: cs =>
    if isQuote c then
      match _ : afterString? c cs with
      | none => none
      | some rest => outerFrom toClose rest
    else if c = '/' ∧ cs.head? = some '/' then outerFrom toClose (afterLine cs)
    else if c = '/' ∧ cs.head? = some '*' then
      match _ : afterBlock? cs.tail with
      | none => none
      | some rest => outerFrom toClose rest
    else match bracket? toClose c with
      | none => none
      | some next =>
        (outerFrom next cs).map fun outer => if toClose.isEmpty && next.isEmpty then c :: outer else outer
termination_by cs.length
decreasing_by
  · exact Nat.lt_succ_of_le (length_afterString?_le ‹_›)
  · exact Nat.lt_succ_of_le (length_afterLine_le cs)
  · have := length_afterBlock?_le ‹_›
    simp only [List.length_tail, List.length_cons] at *
    omega
  · simp

/-- The characters outside the brackets, string literals and comments of a text. -/
def outer? (s : String) : Option (List Char) := outerFrom [] s.toList

/-! ## Pieces -/

/-- A character that neither opens nor closes anything. -/
def isPlain (c : Char) : Bool :=
  !isQuote c && !(['/', '<', '>', '\x7b', '\x7d', '[', ']', '(', ')'].contains c)

/-- Wherever the piece stands, a scan passes over it. Outside brackets it leaves `outer`, and inside them
nothing. -/
def Whole (piece outer : List Char) : Prop :=
  ∀ toClose rest, outerFrom toClose (piece ++ rest) =
    (outerFrom toClose rest).map ((if toClose.isEmpty then outer else []) ++ ·)

theorem Whole.outer? {s : String} {outer : List Char} (h : Whole s.toList outer) :
    outer? s = some outer := by
  have ends : outerFrom [] [] = some [] := by
    rw [outerFrom]
    rfl
  have scan := h [] []
  rw [List.append_nil, ends] at scan
  rw [TypeScript.outer?, scan]
  simp

theorem Whole.nil : Whole [] [] := by
  intro toClose rest
  simp

theorem Whole.append {a b o p : List Char} (ha : Whole a o) (hb : Whole b p) :
    Whole (a ++ b) (o ++ p) := by
  intro toClose rest
  rw [List.append_assoc, ha, hb, Option.map_map]
  congr 1
  funext outer
  cases toClose with
  | nil => exact (List.append_assoc o p outer).symm
  | cons c cs => rfl

/-! ### Characters -/

theorem ne_of_isPlain {c d : Char} (h : isPlain c) (hd : isPlain d = false) : c ≠ d := by
  rintro rfl
  rw [hd] at h
  cases h

theorem scriptBracket?_of_isPlain {c : Char} (h : isPlain c) (toClose : List Char) :
    Script.bracket? toClose c = some toClose := by
  have hl : Script.brackets.lookup c = none := by
    rw [List.lookup_eq_none_iff]
    simpa [Script.brackets] using ⟨ne_of_isPlain h (d := '\x7b') rfl, ne_of_isPlain h (d := '[') rfl,
      ne_of_isPlain h (d := '(') rfl⟩
  have ha : Script.brackets.any (fun p => decide (p.2 = c)) = false := by
    simpa [Script.brackets] using ⟨(ne_of_isPlain h (d := '\x7d') rfl).symm,
      (ne_of_isPlain h (d := ']') rfl).symm, (ne_of_isPlain h (d := ')') rfl).symm⟩
  rw [Script.bracket?.eq_def, hl]
  simp only [ha, Bool.false_eq_true, if_false]

theorem bracket?_of_isPlain {c : Char} (h : isPlain c) (toClose : List Char) :
    bracket? toClose c = some toClose := by
  rw [bracket?, if_neg (ne_of_isPlain h rfl), if_neg (ne_of_isPlain h rfl), scriptBracket?_of_isPlain h]

theorem Whole.char {c : Char} (h : isPlain c) : Whole [c] [c] := by
  intro toClose rest
  have hq : ¬ isQuote c = true := by
    have := (Bool.and_eq_true_iff.1 h).1
    simpa using this
  have hs : c ≠ '/' := ne_of_isPlain h rfl
  rw [List.singleton_append, outerFrom, if_neg hq, if_neg (fun e => hs e.1), if_neg (fun e => hs e.1),
    bracket?_of_isPlain h]
  cases toClose <;> simp

theorem Whole.chars {cs : List Char} (h : ∀ c ∈ cs, isPlain c) : Whole cs cs := by
  induction cs with
  | nil => exact .nil
  | cons c cs ih =>
    rw [List.forall_mem_cons] at h
    exact (Whole.char h.1).append (ih h.2)

/-! ### Brackets, literals and comments -/

theorem Whole.bracketed {opening closing : Char} (hp : (opening, closing) ∈ brackets) {cs outer : List Char}
    (h : Whole cs outer) : Whole (opening :: (cs ++ [closing])) [] := by
  intro toClose rest
  have codes : isQuote opening = false ∧ opening ≠ '/' ∧ isQuote closing = false ∧ closing ≠ '/' ∧
      bracket? toClose opening = some (closing :: toClose) ∧
      bracket? (closing :: toClose) closing = some toClose := by
    simp only [brackets, Script.brackets, List.mem_cons, List.not_mem_nil, or_false, Prod.mk.injEq] at hp
    rcases hp with ⟨rfl, rfl⟩ | ⟨rfl, rfl⟩ | ⟨rfl, rfl⟩ | ⟨rfl, rfl⟩ <;>
      exact ⟨by decide, by decide, by decide, by decide, rfl, rfl⟩
  obtain ⟨hq, hs, hq', hs', opens, closes⟩ := codes
  have last : outerFrom (closing :: toClose) (closing :: rest) = outerFrom toClose rest := by
    rw [outerFrom, if_neg (by simp [hq']), if_neg (fun e => hs' e.1), if_neg (fun e => hs' e.1), closes]
    simp
  rw [List.cons_append, outerFrom, if_neg (by simp [hq]), if_neg (fun e => hs e.1),
    if_neg (fun e => hs e.1), opens, List.append_assoc, List.singleton_append]
  simp [h (closing :: toClose), last]

theorem Whole.literal (repertoire : Text.Repertoire) (s : String) :
    Whole (Text.literal repertoire s).toList [] := by
  intro toClose rest
  have after : afterString? '"' (s.toList.flatMap (Text.literalChar repertoire) ++ '"' :: rest) = some rest :=
    afterString?_literal repertoire s.toList
  rw [Text.literal, String.toList_ofList, Text.literalChars, List.cons_append, List.cons_append,
    List.append_assoc, List.singleton_append, outerFrom, if_pos (by decide)]
  split
  · next e =>
    rw [after] at e
    cases e
  · next e =>
    rw [after] at e
    cases e
    simp

theorem Whole.comment {body : List Char} (h : ¬ ['*', '/'] <:+: body) :
    Whole ('/' :: '*' :: (body ++ [' ', '*', '/'])) [] := by
  intro toClose rest
  have after : afterBlock? (body ++ ' ' :: '*' :: '/' :: rest) = some rest := afterBlock?_closed h
  rw [List.cons_append, List.cons_append, List.append_assoc, outerFrom, if_neg (by decide),
    if_neg (by simp), if_pos ⟨rfl, rfl⟩]
  split
  · next e =>
    rw [List.tail_cons] at e
    cases e.symm.trans after
  · next e =>
    rw [List.tail_cons] at e
    cases e.symm.trans after
    simp

end ShapeExport.TypeScript
