import Mathlib
import ShapeExport.Proofs.Export.Balance
import ShapeExport.Proofs.Export.Rejection
import ShapeExport.Proofs.Json.ReadBack
import ShapeExport.Proofs.JsonSchema.Document

/-!
# Documents pass the check of their language

* `Record.HasPlainNames` : a record without hand-written types whose parameters and placeholders are written in
  the characters of identifiers;
* `Export.accepted_scriptDocument`, `Export.accepted_schemaDocument` : scripts are balanced, and JSON Schema is
  read as JSON;
* `Export.accepted_text` : whatever else the records hold, a rendered document is accepted.
-/

namespace ShapeExport
open Script
open TypeScript (plainNames isPlainText)

/-! ## Names -/

/-- The characters of identifiers: letters, digits, underscores and dollar signs, and all beyond ASCII. -/
def isNameChar (c : Char) : Bool := isIdentifierChar c || 0x80 ≤ c.toNat

/-- An identifier has no other characters. -/
def IsNameText (s : String) : Prop := ∀ c ∈ s.toList, isNameChar c

theorem isPlainText_of_isNameText {s : String} (h : IsNameText s) : isPlainText s :=
  TypeScript.isPlainText_of_not_mem fun c hc => TypeScript.not_mem_marks (p := isNameChar) (by decide) (h c hc)

/-- No part is hand-written, and parameters and placeholders have the characters of identifiers. -/
structure Record.HasPlainNames (r : Record) : Prop where
  noForeign : ∀ value, ¬ r.shape.Holds (.foreign value)
  parameters : ∀ p ∈ r.parameters, IsNameText p
  placeholders : ∀ name, r.shape.Holds (.placeholder name) → IsNameText name

namespace Export

variable {x : Export} {text : String}

/-! ## Scripts -/

theorem accepted_scriptDocument (noLines : x.config.commentStyle ≠ .line)
    (header : ∀ line ∈ x.config.headerLines, IsCommentLine line) (checked : x.checkNames = .ok ())
    (plain : ∀ r ∈ x.types.records, r.HasPlainNames) (h : x.scriptDocument x.types.records [] = .ok text) :
    Script.check text = .ok () := by
  have covers : ∀ r ∈ x.types.members, plainNames.Covers x r.shape := by
    intro r hr
    obtain ⟨noForeign, -, placeholders⟩ := plain r (Collection.mem_records.2 hr)
    exact covers_of_checkNames checked (fun name hn => isPlainText_of_isNameText (placeholders name hn))
      fun written => noForeign (.verbatim written)
  rw [scriptDocument_eq] at h
  obtain ⟨sss, all, rfl⟩ := map_eq_ok.1 h
  have formed : ∀ ss ∈ sss, ∀ s ∈ ss, s.Formed := by
    intro ss hss
    obtain ⟨r, hr, hs⟩ := exists_of_mem_results all hss
    have parameters : ∀ p ∈ r.parameters, isPlainText p :=
      fun p hp => isPlainText_of_isNameText ((plain r hr).parameters p hp)
    exact formed_statements checked hr parameters covers hs
  exact (balanced_documentText noLines header (List.forall_mem_nil _) formed).check

/-! ## JSON Schema -/

theorem accepted_schemaDocument {rs : List Record} (h : x.schemaDocument rs = .ok text) :
    ∃ v, Json.read text = .ok v := by
  obtain ⟨root, -, h⟩ := bind_eq_ok.1 h
  obtain ⟨j, hw, h⟩ := bind_eq_ok.1 h
  cases h
  obtain ⟨rfl, shallow, short⟩ := writable_eq_ok.1 hw
  exact Json.exists_read short shallow

/-! ## Documents -/

/-- **Accepted documents.** Without comments to the ends of lines, and with a header that is a comment, every
document of records with plain names passes the check of its language, whatever texts the records hold. -/
theorem accepted_text (noLines : x.config.commentStyle ≠ .line)
    (header : ∀ line ∈ x.config.headerLines, IsCommentLine line)
    (plain : ∀ r ∈ x.types.records, r.HasPlainNames) (h : x.text = .ok text) :
    checkOutput x.config.language.name text = .ok () := by
  obtain ⟨-, checked, document⟩ := text_eq_ok h
  rw [checkOutput_name]
  unfold Export.document at document
  cases language : x.config.language with
  | jsonschema =>
    rw [if_pos language] at document
    obtain ⟨v, read⟩ := accepted_schemaDocument document
    show ((Json.read text).map fun _ => ()).mapError _ = _
    rw [read]
    rfl
  | typescript | zod =>
    rw [if_neg (by rw [language]; nofun)] at document
    show (Script.check text).mapError _ = _
    rw [accepted_scriptDocument noLines header checked plain document]
    rfl

/-! ### Texts with marks in them

`Note` has a comment, a key and a constant that would end a comment or a literal, and leave brackets open. -/

namespace Marked

def note : Record where
  id := ⟨⟨.static, 1⟩, "m.Note"⟩
  name := "Note"
  docs := ["Ends */ here (or not"]
  shape := .struct "Note" (.named none [{ name := "it's \x7b", ty := .literal (.string "\"]") }])

def notes : Export := ⟨{ banner := "  // Notes (all" }, .ofRecords [note]⟩

theorem headerLines_notes : notes.config.headerLines = ["  // Notes (all"] := by decide

theorem records_notes : notes.types.records = [note] := by
  have sorted : List.Pairwise (fun a b => Record.le a b) [note] := List.pairwise_singleton _ _
  exact List.mergeSort_of_pairwise sorted

def noteType : TypeScript.TypeExpr :=
  .object [{ key := "\"it's \x7b\"", type := .constant "\"\\\"]\"" }]

theorem statements_note : notes.statements note = .ok [.typeAlias "Note" [] noteType] := by
  have type : notes.typeExpr ["Note"] note.shape = .ok noteType := by
    rw [note, typeExpr, bodyExpr, memberExprs, if_neg (by decide), typeExpr, memberExprs]
    rfl
  exact bind_eq_ok.2 ⟨noteType, type, rfl⟩

theorem text_notes : notes.text = .ok ("  // Notes (all\n\n/**\n * Ends *\\/ here (or not\n */\n"
    ++ "export type Note = \x7b \"it's \x7b\": \"\\\"]\" \x7d;\n") := by
  have prepared : notes.prepare = .ok () :=
    prepare_of_records records_notes (by cbv) (fun _ => by cbv) (by decide) (by decide)
  exact text_of_statements (by decide) (by decide) records_notes prepared (mapM_eq_ok.2 (.cons statements_note .nil))

/-- Besides itself, the shape holds the constant alone. -/
theorem holds_note {s : Shape} (h : note.shape.Holds s) : s = note.shape ∨ s = .literal (.string "\"]") := by
  cases h with
  | here => exact Or.inl rfl
  | child hc h =>
    have constant : _ ∈ [Shape.literal (.string "\"]")] := hc
    rw [List.mem_singleton.1 constant] at h
    cases h with
    | here => exact Or.inr rfl
    | child hc _ => cases hc

theorem hasPlainNames_note : note.HasPlainNames where
  noForeign value h := by rcases holds_note h with e | e <;> cases e
  parameters := List.forall_mem_nil _
  placeholders name h := by rcases holds_note h with e | e <;> cases e

/-- The document is accepted. -/
theorem accepted_notes : notes.config.commentStyle ≠ .line ∧
    checkOutput "typescript" ("  // Notes (all\n\n/**\n * Ends *\\/ here (or not\n */\n"
      ++ "export type Note = \x7b \"it's \x7b\": \"\\\"]\" \x7d;\n") = .ok () := by
  have noLines : notes.config.commentStyle ≠ .line := by decide
  refine ⟨noLines, accepted_text noLines ?_ ?_ text_notes⟩
  · rw [headerLines_notes]
    refine List.forall_mem_singleton.2 ⟨[' ', ' '], " Notes (all".toList, by decide, ?_, by decide⟩
    exact List.all_eq_true.1 (by decide)
  · rw [records_notes]
    exact List.forall_mem_singleton.2 hasPlainNames_note

end Marked

end Export

end ShapeExport
