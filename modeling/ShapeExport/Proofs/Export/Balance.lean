import Mathlib
import ShapeExport.Proofs.Export.Statements
import ShapeExport.Proofs.Zod.Balance

/-!
# Brackets in scripts

* `Statement.Formed`, `Statement.Formed.balanced` : statements with plain names leave brackets as they are;
* `Export.formed_statements` : so are those of records that take over plain names;
* `Export.balanced_documentText` : the text of a document with such statements.
-/

namespace ShapeExport
open Script

/-! ## Statements -/

namespace Statement
open TypeScript (isPlainText plainNames)

/-- A statement with plain names, around a type or a schema that the renderers build with such names. -/
def Formed : Statement → Prop
  | typeAlias name parameters type =>
    isPlainText name ∧ (∀ p ∈ parameters, isPlainText p) ∧ type.Formed plainNames
  | inferred name => isPlainText name
  | constant name _ schema => isPlainText name ∧ schema.Formed plainNames
  | builder name parameters _ schema =>
    isPlainText name ∧ (∀ p ∈ parameters, isPlainText p) ∧ schema.Formed plainNames

theorem balanced_commaList {ss : List String} (h : ∀ s ∈ ss, Balanced s) : Balanced (", ".intercalate ss) :=
  Balanced.intercalate (balanced_of_closeAfter (s := ", ") rfl) h

theorem balanced_typeLine {name type : String} {parameters : List String} (hn : Balanced name)
    (hp : ∀ p ∈ parameters, Balanced p) (ht : Balanced type) : Balanced (typeLine name parameters type) := by
  have list : Balanced (if parameters.isEmpty then "" else "<" ++ ", ".intercalate parameters ++ ">") := by
    split
    · exact balanced_empty
    · exact (balanced_commaList hp).enclosed _ _ rfl rfl
  have head := ((balanced_of_closeAfter (s := "export type ") rfl).append hn).append list
  exact ((head.append (balanced_of_closeAfter (s := " = ") rfl)).append ht).append (balanced_of_closeAfter rfl)

theorem balanced_constantLine {name ascription value : String} (hn : Balanced name) (ha : Balanced ascription)
    (hv : Balanced value) : Balanced (constantLine name ascription value) := by
  have head := ((balanced_of_closeAfter (s := "export const ") rfl).append hn).append ha
  exact ((head.append (balanced_of_closeAfter (s := " = ") rfl)).append hv).append (balanced_of_closeAfter rfl)

theorem balanced_ascription {name : String} (hn : Balanced name) (recursive : Bool) :
    Balanced (ascription name recursive) := by
  unfold ascription
  cases recursive
  · exact balanced_empty
  · exact hn.enclosed _ _ rfl rfl

theorem balanced_builderText {parameters : List String} (hp : ∀ p ∈ parameters, Balanced p) (recursive : Bool)
    {schema : String} (hs : Balanced schema) : Balanced (builderText parameters recursive schema) := by
  have bounds : Balanced (", ".intercalate (parameters.map (· ++ " extends z.ZodTypeAny"))) :=
    balanced_commaList (List.forall_mem_map.2 fun p h => (hp p h).append (balanced_of_closeAfter rfl))
  have arguments : Balanced (", ".intercalate (parameters.map fun p => p ++ ": " ++ p)) :=
    balanced_commaList (List.forall_mem_map.2 fun p h =>
      ((hp p h).append (balanced_of_closeAfter rfl)).append (hp p h))
  have result : Balanced (if recursive then ": z.ZodTypeAny" else "") := by
    cases recursive <;> exact balanced_of_closeAfter rfl
  have head := bounds.append (arguments.enclosed ">(" ")" rfl rfl)
  have whole := (((balanced_of_closeAfter (s := "<") rfl).append head).append result).append
    ((balanced_of_closeAfter (s := " => ") rfl).append hs)
  refine whole.of_toList ?_
  unfold builderText
  simp

theorem Formed.balanced {s : Statement} (h : s.Formed) : Balanced s.text := by
  have plain {s : String} (h : isPlainText s) : Balanced s := balanced_of_isPlainText h
  cases s with
  | typeAlias name parameters type =>
    obtain ⟨hn, hp, ht⟩ := h
    exact balanced_typeLine (plain hn) (fun p hm => plain (hp p hm)) ht.balanced
  | inferred name =>
    have type : Balanced (inferredText name) :=
      (plain h).enclosed "z.infer<typeof " ">" rfl rfl
    exact balanced_typeLine (plain h) (List.forall_mem_nil _) type
  | constant name recursive schema =>
    obtain ⟨hn, hs⟩ := h
    exact balanced_constantLine (plain hn) (balanced_ascription (plain hn) recursive) hs.balanced
  | builder name parameters recursive schema =>
    obtain ⟨hn, hp, hs⟩ := h
    have value := balanced_builderText (fun p hm => plain (hp p hm)) recursive hs.balanced
    exact balanced_constantLine (plain hn) balanced_empty value

end Statement

/-! ## Documents -/

theorem balanced_unlines {lines : List String} (h : ∀ line ∈ lines, Balanced (line ++ "\n")) :
    Balanced (unlines lines) :=
  Balanced.join (List.forall_mem_map.2 h)

theorem balanced_paragraph {lines : List String} (h : ∀ line ∈ lines, Balanced (line ++ "\n")) :
    Balanced (paragraph lines) := by
  unfold paragraph
  split
  · exact balanced_empty
  · exact (balanced_unlines h).append (balanced_of_closeAfter rfl)

theorem balanced_importsText (l : Language) {imports : List String} (h : ∀ line ∈ imports, Balanced (line ++ "\n"))
    (declarations : List String) : Balanced (importsText l imports declarations) := by
  unfold importsText
  split
  · have blank : Balanced (if declarations.isEmpty then "" else "\n") := by
      split <;> exact balanced_of_closeAfter rfl
    have start : Balanced "import \x7b z \x7d from " := balanced_of_closeAfter rfl
    have zod : Balanced (zodImport ++ "\n") :=
      ((start.append (balanced_literal .ascii "zod")).append (balanced_of_closeAfter (s := ";\n") rfl)).of_toList
        (by decide)
    exact (balanced_unlines (List.forall_mem_cons.2 ⟨zod, h⟩)).append blank
  · exact balanced_paragraph h

theorem balanced_declarationsText {declarations : List String} (h : ∀ d ∈ declarations, Balanced d) :
    Balanced (declarationsText declarations) := by
  have line : Balanced "\n" := balanced_of_closeAfter rfl
  exact line.intercalate (List.forall_mem_map.2 fun d hd => (h d hd).append line)

namespace Export
open TypeScript (isPlainText plainNames)

variable {x : Export}

/-- With plain parameters, and records that take over plain names only, statements have such names. -/
theorem formed_statements (checked : x.checkNames = .ok ()) {r : Record} (hr : r ∈ x.types.records)
    (parameters : ∀ p ∈ r.parameters, isPlainText p)
    (covers : ∀ r ∈ x.types.members, plainNames.Covers x r.shape) {ss : List Statement}
    (h : x.statements r = .ok ss) : ∀ s ∈ ss, s.Formed := by
  have name : isPlainText (x.displayName r) :=
    TypeScript.isPlainText_of_isTypeName (isTypeName_of_checkNames checked hr)
  have shape : plainNames.Covers x r.shape := covers r (Collection.mem_records.1 hr)
  have type {e : TypeScript.TypeExpr} (he : x.typeExpr [r.name] r.shape = .ok e) : e.Formed plainNames :=
    formed_typeExpr shape he
  have schema {e : Zod.Schema} (he : x.schema [r.name] r.shape = .ok e) : e.Formed plainNames :=
    formed_schemaExpr (shape.spans covers) he
  by_cases language : x.config.language = .zod
  · obtain ⟨e, he, ⟨-, rfl⟩ | ⟨-, -, t, ht, rfl⟩ | ⟨-, -, rfl⟩⟩ := statements_of_zod language h
    · exact List.forall_mem_singleton.2 ⟨name, parameters, schema he⟩
    · exact List.forall_mem_cons.2
        ⟨⟨name, List.forall_mem_nil _, type ht⟩, List.forall_mem_singleton.2 ⟨name, schema he⟩⟩
    · exact List.forall_mem_cons.2 ⟨⟨name, schema he⟩, List.forall_mem_singleton.2 name⟩
  · obtain ⟨t, ht, rfl⟩ := statements_of_ne_zod language h
    exact List.forall_mem_singleton.2 ⟨name, parameters, type ht⟩

theorem balanced_declarationText (noLines : x.config.commentStyle ≠ .line) (r : Record) {ss : List Statement}
    (h : ∀ s ∈ ss, s.Formed) : Balanced (x.declarationText r ss) := by
  have statements : Balanced ("\n".intercalate (ss.map Statement.text)) :=
    Balanced.intercalate (balanced_of_closeAfter rfl) (List.forall_mem_map.2 fun s hs => (h s hs).balanced)
  exact (balanced_commentBlock noLines r.docs r.deprecation).append statements

theorem balanced_documentText (noLines : x.config.commentStyle ≠ .line)
    (header : ∀ line ∈ x.config.headerLines, IsCommentLine line) {imports : List String}
    (hi : ∀ line ∈ imports, Balanced (line ++ "\n")) {rs : List Record} {sss : List (List Statement)}
    (h : ∀ ss ∈ sss, ∀ s ∈ ss, s.Formed) : Balanced (x.documentText rs imports sss) := by
  have declared : ∀ d ∈ List.zipWith x.declarationText rs sss, Balanced d := by
    intro d hd
    rw [← List.map_uncurry_zip_eq_zipWith] at hd
    obtain ⟨⟨r, ss⟩, hm, rfl⟩ := List.mem_map.1 hd
    exact balanced_declarationText noLines r (h ss (List.of_mem_zip hm).2)
  have head := balanced_paragraph fun line hl => (header line hl).balanced
  exact (head.append (balanced_importsText _ hi _)).append (balanced_declarationsText declared)

end Export

end ShapeExport
