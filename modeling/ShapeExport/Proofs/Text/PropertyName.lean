import Mathlib
import ShapeExport.Proofs.Text.Literals

/-!
# Property keys read as property names

* `readPropertyName?` : the property name that a text starts with, an identifier or a string literal;
* `PropertyName.Denotes` : that a property name stands for a key, and as an identifier is no word that the
  language reserves;
* `readPropertyName?_identifier`, `readPropertyName?_literal` : what is read of the two ways in which a key is
  written;
* `isPlainKey_iff` : a key is written without quotes as an identifier, and as one with a line break behind it;
* `Language.propertyKey_denotes_iff` : a key is read back as itself unless it is the latter.
-/

namespace ShapeExport

/-! ## Identifiers -/

theorem isIdentifierChar_of_start {c : Char} (h : isIdentifierStart c) : isIdentifierChar c := by
  simp only [isIdentifierStart, isIdentifierChar, Char.isAlphanum, Bool.or_eq_true] at h ⊢
  rcases h with (h | h) | h
  · exact Or.inl (Or.inl (Or.inl h))
  · exact Or.inl (Or.inr h)
  · exact Or.inr h

theorem isIdentifierChar_of_mem {cs : List Char} (h : isIdentifierChars cs) : ∀ c ∈ cs, isIdentifierChar c := by
  cases cs with
  | nil => cases h
  | cons c cs =>
    rw [isIdentifierChars, Bool.and_eq_true, List.all_eq_true] at h
    exact List.forall_mem_cons.2 ⟨isIdentifierChar_of_start h.1, h.2⟩

/-- A key is written without quotes as an identifier, and as one with a line break behind it. -/
theorem isPlainKey_iff (key : String) :
    isPlainKey key ↔ isIdentifierChars key.toList ∨ ∃ name, isIdentifierChars name ∧ key.toList = name ++ ['\n'] := by
  rw [isPlainKey, Bool.or_eq_true, Bool.and_eq_true, beq_iff_eq]
  refine or_congr_right ⟨?_, ?_⟩
  · rintro ⟨last, name⟩
    exact ⟨_, name, (List.dropLast_append_getLast? '\n' last).symm⟩
  · rintro ⟨name, h, e⟩
    rw [e, List.getLast?_concat, List.dropLast_concat]
    exact ⟨rfl, h⟩

/-! ## Property names -/

/-- The two kinds of property names, with an identifier or the text of a literal. -/
inductive PropertyName
  | identifier (name : List Char)
  | literal (text : List Char)

/-- Reads the property name that a text starts with, and returns what follows. -/
def readPropertyName? (cs : List Char) : Option (PropertyName × List Char) :=
  if cs.head? = some '"' then (Text.readLiteral? cs.tail).map fun p => (.literal p.1, p.2)
  else if isIdentifierChars (cs.takeWhile isIdentifierChar) then
    some (.identifier (cs.takeWhile isIdentifierChar), cs.dropWhile isIdentifierChar)
  else none

/-- A literal stands for its text, and an identifier for itself if it is not reserved. -/
def PropertyName.Denotes (l : Language) (key : String) : PropertyName → Prop
  | identifier name => name = key.toList ∧ key ∉ l.reservedKeys
  | literal text => text = key.toList

variable {name rest : List Char}

/-- An identifier ends where the first other character stands. -/
theorem readPropertyName?_identifier (h : isIdentifierChars name) (hr : rest.all (!isIdentifierChar ·)) :
    readPropertyName? (name ++ rest) = some (.identifier name, rest) := by
  have chars := isIdentifierChar_of_mem h
  have none : rest.takeWhile isIdentifierChar = [] ∧ rest.dropWhile isIdentifierChar = rest := by
    cases rest with
    | nil => exact ⟨rfl, rfl⟩
    | cons c cs =>
      rw [List.all_cons, Bool.and_eq_true, Bool.not_eq_true'] at hr
      exact ⟨List.takeWhile_cons_of_neg (by simp [hr.1]), List.dropWhile_cons_of_neg (by simp [hr.1])⟩
  have unquoted : (name ++ rest).head? ≠ some '"' := by
    cases name with
    | nil => cases h
    | cons c cs =>
      rw [isIdentifierChars, Bool.and_eq_true] at h
      exact fun e => ne_quote_of_isIdentifierStart h.1 (Option.some.inj e)
  rw [readPropertyName?, if_neg unquoted, List.takeWhile_append_of_pos chars, List.dropWhile_append_of_pos chars,
    none.1, none.2, List.append_nil, if_pos h]

theorem readPropertyName?_literal (repertoire : Text.Repertoire) (s : String) :
    readPropertyName? (Text.literal repertoire s).toList = some (.literal s.toList, []) := by
  rw [Text.literal, String.toList_ofList, Text.literalChars, readPropertyName?, List.cons_append, List.head?_cons,
    if_pos rfl, List.tail_cons, Text.readLiteral?_literal, Option.map_some]

/-! ## Keys -/

namespace Language

variable (l : Language) (key : String)

/-- No reserved word ends with a line break. -/
theorem not_mem_reservedKeys_of_break {name : List Char} (h : key.toList = name ++ ['\n']) :
    key ∉ l.reservedKeys := by
  have words : l.reservedKeys.all fun s => s.toList.getLast? != some '\n' := by
    cases l <;> decide
  intro reserved
  have last := List.all_eq_true.1 words key reserved
  rw [h, List.getLast?_concat] at last
  cases last

theorem propertyKey_of_plain (h : isPlainKey key) (free : key ∉ l.reservedKeys) : l.propertyKey key = key :=
  if_pos (by simp [h, free])

/-- A key is read back as itself, unless it is an identifier with a line break behind it. Then it is written as
it is, and what is read is the identifier. -/
theorem propertyKey_denotes_iff :
    ((∃ name, readPropertyName? (l.propertyKey key).toList = some (name, []) ∧ name.Denotes l key) ↔
        ¬ ∃ name, isIdentifierChars name ∧ key.toList = name ++ ['\n']) ∧
      ∀ name, isIdentifierChars name → key.toList = name ++ ['\n'] →
        readPropertyName? (l.propertyKey key).toList = some (.identifier name, ['\n']) := by
  have broken : ∀ name, isIdentifierChars name → key.toList = name ++ ['\n'] →
      readPropertyName? (l.propertyKey key).toList = some (.identifier name, ['\n']) := by
    intro name h e
    rw [propertyKey_of_plain l key ((isPlainKey_iff key).2 (Or.inr ⟨name, h, e⟩))
      (not_mem_reservedKeys_of_break l key e), e]
    exact readPropertyName?_identifier h (by decide)
  refine ⟨⟨?_, ?_⟩, broken⟩
  · rintro ⟨name, read, -⟩ ⟨identifier, h, e⟩
    rw [broken identifier h e] at read
    cases read
  · intro whole
    by_cases plain : isPlainKey key ∧ key ∉ l.reservedKeys
    · have h : isIdentifierChars key.toList := ((isPlainKey_iff key).1 plain.1).resolve_right whole
      have read : readPropertyName? (key.toList ++ []) = some (.identifier key.toList, []) :=
        readPropertyName?_identifier h rfl
      rw [List.append_nil] at read
      rw [propertyKey_of_plain l key plain.1 plain.2]
      exact ⟨.identifier key.toList, read, rfl, plain.2⟩
    · have quoted : l.propertyKey key = Text.literal .ascii key := if_neg (by simpa using plain)
      rw [quoted]
      exact ⟨.literal key.toList, readPropertyName?_literal .ascii key, rfl⟩

/-- The line break behind an identifier is lost. -/
theorem break_behind_identifier :
    ¬ ∃ name, readPropertyName? (typescript.propertyKey "id\n").toList = some (name, []) ∧
      name.Denotes typescript "id\n" := by
  have written : (typescript.propertyKey "id\n").toList = ['i', 'd', '\n'] := by decide
  have read : readPropertyName? ['i', 'd', '\n'] = some (.identifier ['i', 'd'], ['\n']) := rfl
  rintro ⟨name, h, -⟩
  rw [written, read] at h
  cases h

end Language

end ShapeExport
