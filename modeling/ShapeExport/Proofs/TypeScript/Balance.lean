import Mathlib
import ShapeExport.Proofs.Comment
import ShapeExport.Proofs.Script.Balance

/-!
# Brackets in rendered types

Keys are quoted and comments escaped, so whatever texts a shape has, its type leaves brackets as they are.

* `balanced_propertyKey`, `balanced_inlineComment`, `balanced_commentBlock` : keys and comments;
* `TypeScript.TypeExpr.Formed.balanced` : types that the renderer builds with plain names.
-/

namespace ShapeExport
open Script

/-! ## Keys and comments -/

theorem balanced_propertyKey (l : Language) (key : String) : Balanced (l.propertyKey key) := by
  unfold Language.propertyKey
  split
  · next h =>
    exact balanced_of_isPlainText (TypeScript.isPlainText_of_isPlainKey (Bool.and_eq_true_iff.1 h).1)
  · exact balanced_literal .ascii key

theorem balanced_inlineComment (style : CommentStyle) (docs : List String) (deprecation : Option Deprecation) :
    Balanced (inlineComment style docs deprecation) := by
  unfold inlineComment
  split
  · next line lines _ =>
    have body := not_infix_star (c := ' ') (not_infix_escapeComment (joinLines (line :: lines))) (by decide) (by decide)
    have comment : Balanced ("/** " ++ escapeComment (joinLines (line :: lines)) ++ " */") :=
      balanced_comment body (by simp)
    have whole := comment.append (balanced_of_closeAfter (s := " ") rfl)
    rwa [String.append_assoc] at whole
  · exact balanced_empty

theorem balanced_commentBlock {style : CommentStyle} (noLines : style ≠ .line) (docs : List String)
    (deprecation : Option Deprecation) : Balanced (commentBlock style "" docs deprecation) := by
  unfold commentBlock
  generalize commentLines docs deprecation = lines
  split
  · exact balanced_empty
  · exact balanced_empty
  · exact absurd rfl noLines
  · have written : ¬ ['*', '/'] <:+: (String.join (lines.map fun l => commentLine ("" ++ " * ") (escapeComment l))).toList :=
      not_infix_commentLines (by simp) lines
    have body := not_infix_star (c := '\n') written (by decide) (by decide)
    have comment : Balanced
        ("/**\n" ++ String.join (lines.map fun l => commentLine ("" ++ " * ") (escapeComment l)) ++ " */") :=
      balanced_comment body (by simp)
    exact (comment.append (balanced_of_closeAfter (s := "\n") rfl)).of_toList (by simp)

/-! ## Types -/

namespace TypeScript.TypeExpr

theorem balanced_texts {separator : String} (hs : Balanced separator) {es : List TypeExpr}
    (h : ∀ e ∈ es, Balanced e.text) : Balanced (texts separator es) := by
  induction es with
  | nil => exact balanced_empty
  | cons e es ih =>
    rw [List.forall_mem_cons] at h
    show Balanced (separator ++ e.text ++ texts separator es)
    exact (hs.append h.1).append (ih h.2)

theorem balanced_memberText {m : Member TypeExpr} (hw : m.IsWritten) (h : Balanced m.type.text) :
    Balanced (memberText m) := by
  obtain ⟨comment, name, optional, type⟩ := m
  obtain ⟨⟨style, docs, deprecation, hc⟩, key, hk⟩ := hw
  have label : Balanced (comment ++ name) := by
    rw [show comment = _ from hc, show name = _ from hk]
    exact (balanced_inlineComment style docs deprecation).append (balanced_propertyKey _ key)
  have mark : Balanced (if optional then "?" else "") := by
    cases optional <;> exact balanced_of_closeAfter rfl
  have colon : Balanced ": " := balanced_of_closeAfter rfl
  exact ((label.append mark).append colon).append h

theorem balanced_memberTexts {ms : List (Member TypeExpr)} (hw : ∀ m ∈ ms, m.IsWritten)
    (h : ∀ m ∈ ms, Balanced m.type.text) : Balanced (memberTexts ms) := by
  induction ms with
  | nil => exact balanced_empty
  | cons m ms ih =>
    rw [List.forall_mem_cons] at hw h
    show Balanced ("; " ++ memberText m ++ memberTexts ms)
    have semicolon : Balanced "; " := balanced_of_closeAfter rfl
    exact (semicolon.append (balanced_memberText hw.1 h.1)).append (ih hw.2 h.2)

theorem balanced_grouped {e : TypeExpr} (h : Balanced e.text) : Balanced (grouped e).text := by
  show Balanced ("(" ++ e.text ++ ")")
  exact h.enclosed _ _ rfl rfl

theorem balanced_groupFor {e : TypeExpr} (h : Balanced e.text) : Balanced e.groupFor.text := by
  unfold groupFor
  split
  · exact balanced_grouped h
  · exact h

/-- The text of a formed type leaves brackets as they are. -/
theorem Formed.balanced {e : TypeExpr} (h : Formed plainNames e) : Balanced e.text := by
  have comma : Balanced ", " := balanced_of_closeAfter rfl
  induction h with
  | builtin h =>
    have names : ["string", "number", "bigint", "boolean", "null", "never"].all isPlainText := by decide
    exact balanced_of_isPlainText (List.all_eq_true.1 names _ h)
  | string s => exact balanced_literal .ascii s
  | constant h => exact balanced_of_isPlainText (isPlainText_of_isNumberChar h)
  | verbatim h => exact h.elim
  | parameter h => exact balanced_of_isPlainText h
  | @named target name arguments hn _ ih =>
    have head : Balanced name := balanced_of_isPlainText hn
    cases arguments with
    | nil => exact head
    | cons a as =>
      rw [List.forall_mem_cons] at ih
      show Balanced (name ++ "<" ++ a.text ++ texts ", " as ++ ">")
      have opened := (head.append (balanced_of_closeAfter (s := "<") rfl)).append ih.1
      exact (opened.append (balanced_texts comma ih.2)).append (balanced_of_closeAfter (s := ">") rfl)
  | array _ ih => exact (balanced_groupFor ih).append (balanced_of_closeAfter (s := "[]") rfl)
  | @tuple es _ ih =>
    cases es with
    | nil => exact balanced_of_closeAfter (s := "[]") rfl
    | cons e es =>
      rw [List.forall_mem_cons] at ih
      have inside := (ih.1.append (balanced_texts comma ih.2)).enclosed "[" "]" rfl rfl
      rwa [← String.append_assoc] at inside
  | @mapped key value _ _ ihk ihv =>
    have opens : Passes [] "Partial<\x7b [key in " [']', '\x7d'] := passes_of_closeAfter rfl
    have colon : Passes [']', '\x7d'] "]: " ['\x7d'] := passes_of_closeAfter rfl
    have closes : Passes ['\x7d'] " \x7d>" [] := passes_of_closeAfter rfl
    exact (((opens.append (ihk.within _)).append colon).append (ihv.within _)).append closes
  | nullable _ ih => exact ih.append (balanced_of_closeAfter (s := " | null") rfl)
  | emptyObject => exact balanced_of_closeAfter (s := "Record<string, never>") rfl
  | @object ms hw _ ih =>
    cases ms with
    | nil => exact balanced_of_closeAfter (s := "\x7b  \x7d") rfl
    | cons m ms =>
      rw [List.forall_mem_cons] at hw ih
      have members := (balanced_memberText hw.1 ih.1).append (balanced_memberTexts hw.2 ih.2)
      have inside := members.enclosed "\x7b " " \x7d" rfl rfl
      rwa [← String.append_assoc] at inside
  | @union es _ ih =>
    cases es with
    | nil => exact balanced_empty
    | cons e es =>
      rw [List.forall_mem_cons] at ih
      exact ih.1.append (balanced_texts (balanced_of_closeAfter (s := " | ") rfl) ih.2)
  | intersection _ _ ihl ihr => exact (ihl.append (balanced_of_closeAfter (s := " & ") rfl)).append ihr
  | grouped _ ih => exact balanced_grouped ih

end TypeScript.TypeExpr

end ShapeExport
