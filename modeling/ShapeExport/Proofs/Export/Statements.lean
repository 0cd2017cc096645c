import Mathlib
import ShapeExport.Document
import ShapeExport.Proofs.Export.Names
import ShapeExport.Proofs.Zod.Formed

/-!
# Documents and their statements

A declaration in a script is a comment and one or two statements.

* `Statement`, `Statement.text` : a statement as a tree, and its text;
* `Statement.Mentions` : the records that a statement refers to;
* `Statement.typeHead?` : the name and the number of parameters of a type that a statement declares;
* `Export.statements`, `Export.declaration_eq` : the statements for a record, and the declaration as their
  text;
* `Export.prepare_of_records`, `Export.text_of_statements` : an export that succeeds;
* `Export.text_eq_ok`, `Export.script_eq_ok` : a document with all records;
* `Export.file_eq_ok` : the file of a record.
-/

namespace ShapeExport
open TypeScript (TypeExpr)
open Zod (Schema)

/-! ## Statements -/

inductive Statement
  /-- A type, as TypeScript writes it. -/
  | typeAlias (name : String) (parameters : List String) (type : TypeExpr)
  /-- The type of the values that a schema takes. -/
  | inferred (name : String)
  /-- A schema. One that is recursive is annotated with its type. -/
  | constant (name : String) (recursive : Bool) (schema : Schema)
  /-- A function from schemas to a schema. -/
  | builder (name : String) (parameters : List String) (recursive : Bool) (schema : Schema)

namespace Statement

/-- A line that declares a type with parameters. -/
def typeLine (name : String) (parameters : List String) (type : String) : String :=
  "export type " ++ name
    ++ (if parameters.isEmpty then "" else "<" ++ ", ".intercalate parameters ++ ">") ++ " = " ++ type ++ ";"

def constantLine (name ascription value : String) : String :=
  "export const " ++ name ++ ascription ++ " = " ++ value ++ ";"

/-- A function from schemas to a schema. One that is recursive is annotated. -/
def builderText (parameters : List String) (recursive : Bool) (schema : String) : String :=
  "<" ++ ", ".intercalate (parameters.map (· ++ " extends z.ZodTypeAny")) ++ ">("
    ++ ", ".intercalate (parameters.map fun p => p ++ ": " ++ p) ++ ")"
    ++ (if recursive then ": z.ZodTypeAny" else "") ++ " => " ++ schema

def inferredText (schema : String) : String := "z.infer<typeof " ++ schema ++ ">"

def ascription (name : String) (recursive : Bool) : String :=
  if recursive then ": z.ZodType<" ++ name ++ ">" else ""

def text : Statement → String
  | typeAlias name parameters type => typeLine name parameters type.text
  | inferred name => typeLine name [] (inferredText name)
  | constant name recursive schema => constantLine name (ascription name recursive) schema.text
  | builder name parameters recursive schema =>
    constantLine name "" (builderText parameters recursive schema.text)

/-- The name that the statement declares. -/
def name : Statement → String
  | typeAlias name _ _ | inferred name | constant name _ _ | builder name _ _ _ => name

/-- The name of the type that the statement declares, and the number of its parameters. -/
def typeHead? : Statement → Option (String × Nat)
  | typeAlias name parameters _ => some (name, parameters.length)
  | inferred name => some (name, 0)
  | constant _ _ _ | builder _ _ _ _ => none

/-- The schema in a statement that declares one. -/
def schema? : Statement → Option Schema
  | constant _ _ schema | builder _ _ _ schema => some schema
  | typeAlias _ _ _ | inferred _ => none

/-- A reference to the record with this key was rendered in the statement. -/
def Mentions : Statement → TypeKey → Prop
  | typeAlias _ _ type, k => ∃ name arguments, type.Holds (.named k name arguments)
  | inferred _, _ => False
  | constant _ _ schema, k | builder _ _ _ schema, k =>
    ∃ name arguments, schema.Holds (.lazy k name arguments)

end Statement

namespace Export

variable {x : Export} {r : Record}

/-- The statements that declare a record in a script. -/
def statements (x : Export) (r : Record) : Except Error (List Statement) :=
  let name := x.displayName r
  if x.config.language = .zod then do
    let schema ← x.schema [r.name] r.shape
    let recursive := x.types.reachesItself r
    if r.isGeneric then return [.builder name r.parameters recursive schema]
    else if recursive then
      return [.typeAlias name [] (← x.typeExpr [r.name] r.shape), .constant name true schema]
    else return [.constant name false schema, .inferred name]
  else do return [.typeAlias name r.parameters (← x.typeExpr [r.name] r.shape)]

/-- The text of a declaration with the given statements. -/
def declarationText (x : Export) (r : Record) (ss : List Statement) : String :=
  commentBlock x.config.commentStyle "" r.docs r.deprecation ++ "\n".intercalate (ss.map Statement.text)

theorem ok_declarationText {s : String} {ss : List Statement}
    (h : s.toList = (x.declarationText r ss).toList) : (Except.ok s : Except Error String) = .ok (x.declarationText r ss) :=
  congrArg Except.ok (String.toList_inj.1 h)

open Statement in
theorem typeDeclaration_eq (language : x.config.language ≠ .zod) :
    x.typeDeclaration r = (x.statements r).map (x.declarationText r) := by
  rw [statements, if_neg language]
  unfold typeDeclaration
  cases x.typeExpr [r.name] r.shape with
  | error e => rfl
  | ok type =>
    refine ok_declarationText ?_
    simp only [declarationText, List.map_cons, List.map_nil, Statement.text]
    unfold typeLine
    simp

open Statement in
theorem schemaDeclaration_eq (language : x.config.language = .zod) :
    x.schemaDeclaration r = (x.statements r).map (x.declarationText r) := by
  rw [statements, if_pos language]
  unfold schemaDeclaration
  cases x.schema [r.name] r.shape with
  | error e => rfl
  | ok schema =>
    by_cases generic : r.isGeneric = true
    · simp only [generic, if_true]
      refine ok_declarationText ?_
      simp only [declarationText, List.map_cons, List.map_nil, Statement.text]
      unfold constantLine builderText
      simp
    · by_cases recursive : x.types.reachesItself r = true
      · simp only [generic, recursive, if_true]
        cases x.typeExpr [r.name] r.shape with
        | error e => rfl
        | ok type =>
          refine ok_declarationText ?_
          simp only [declarationText, List.map_cons, List.map_nil, Statement.text]
          unfold constantLine typeLine ascription
          simp
      · simp only [generic, recursive]
        refine ok_declarationText ?_
        simp only [declarationText, List.map_cons, List.map_nil, Statement.text]
        unfold constantLine typeLine ascription inferredText
        simp

/-- A declaration is the text of its statements. -/
theorem declaration_eq (x : Export) (r : Record) :
    x.declaration r = (x.statements r).map (x.declarationText r) := by
  by_cases language : x.config.language = .zod
  · rw [declaration, if_pos language, schemaDeclaration_eq language]
  · rw [declaration, if_neg language, typeDeclaration_eq language]

/-- In TypeScript a record is declared as a type. -/
theorem statements_of_ne_zod (language : x.config.language ≠ .zod) {ss : List Statement}
    (h : x.statements r = .ok ss) : ∃ type, x.typeExpr [r.name] r.shape = .ok type ∧
      ss = [.typeAlias (x.displayName r) r.parameters type] := by
  rw [statements, if_neg language] at h
  obtain ⟨type, ht, h⟩ := bind_eq_ok.1 h
  exact ⟨type, ht, (Except.ok.inj h).symm⟩

/-- With Zod a record is declared as a schema, and as a type next to it unless it has parameters. -/
theorem statements_of_zod (language : x.config.language = .zod) {ss : List Statement}
    (h : x.statements r = .ok ss) : ∃ schema, x.schema [r.name] r.shape = .ok schema ∧
      ((r.isGeneric = true ∧
          ss = [.builder (x.displayName r) r.parameters (x.types.reachesItself r) schema]) ∨
        (r.isGeneric = false ∧ x.types.reachesItself r = true ∧
          ∃ type, x.typeExpr [r.name] r.shape = .ok type ∧
            ss = [.typeAlias (x.displayName r) [] type, .constant (x.displayName r) true schema]) ∨
        (r.isGeneric = false ∧ x.types.reachesItself r = false ∧
          ss = [.constant (x.displayName r) false schema, .inferred (x.displayName r)])) := by
  rw [statements, if_pos language] at h
  obtain ⟨schema, hs, h⟩ := bind_eq_ok.1 h
  refine ⟨schema, hs, ?_⟩
  cases generic : r.isGeneric with
  | true =>
    rw [generic, if_pos rfl] at h
    exact Or.inl ⟨rfl, (Except.ok.inj h).symm⟩
  | false =>
    rw [generic, if_neg Bool.false_ne_true] at h
    cases recursive : x.types.reachesItself r with
    | true =>
      rw [recursive, if_pos rfl] at h
      obtain ⟨type, ht, h⟩ := bind_eq_ok.1 h
      exact Or.inr (Or.inl ⟨rfl, rfl, type, ht, (Except.ok.inj h).symm⟩)
    | false =>
      rw [recursive, if_neg Bool.false_ne_true] at h
      exact Or.inr (Or.inr ⟨rfl, rfl, (Except.ok.inj h).symm⟩)

/-- The statements for a record declare its name. -/
theorem name_of_mem_statements {ss : List Statement} (h : x.statements r = .ok ss) {s : Statement}
    (hs : s ∈ ss) : s.name = x.displayName r := by
  by_cases language : x.config.language = .zod
  · obtain ⟨schema, -, ⟨-, rfl⟩ | ⟨-, -, type, -, rfl⟩ | ⟨-, -, rfl⟩⟩ := statements_of_zod language h
    · rw [List.mem_singleton.1 hs]
      rfl
    · rcases List.mem_cons.1 hs with rfl | hs
      · rfl
      · rw [List.mem_singleton.1 hs]
        rfl
    · rcases List.mem_cons.1 hs with rfl | hs
      · rfl
      · rw [List.mem_singleton.1 hs]
        rfl
  · obtain ⟨type, -, rfl⟩ := statements_of_ne_zod language h
    rw [List.mem_singleton.1 hs]
    rfl

/-- A type that is written for a record renders its shape. -/
theorem typeExpr_of_mem_statements {ss : List Statement} (h : x.statements r = .ok ss) {n : String}
    {ps : List String} {type : TypeExpr} (hs : .typeAlias n ps type ∈ ss) :
    x.typeExpr [r.name] r.shape = .ok type := by
  by_cases language : x.config.language = .zod
  · obtain ⟨schema, -, ⟨-, rfl⟩ | ⟨-, -, type, ht, rfl⟩ | ⟨-, -, rfl⟩⟩ := statements_of_zod language h
    · simp at hs
    · obtain ⟨-, -, rfl⟩ : n = x.displayName r ∧ ps = [] ∧ _ = type := by simpa using hs
      exact ht
    · simp at hs
  · obtain ⟨type, ht, rfl⟩ := statements_of_ne_zod language h
    obtain ⟨-, -, rfl⟩ : n = x.displayName r ∧ ps = r.parameters ∧ _ = type := by simpa using hs
    exact ht

/-- A schema for a record renders its shape, and there is one only with Zod. -/
theorem schema_of_mem_statements {ss : List Statement} (h : x.statements r = .ok ss) {s : Statement}
    (hs : s ∈ ss) {schema : Schema} (hschema : s.schema? = some schema) :
    x.config.language = .zod ∧ x.schema [r.name] r.shape = .ok schema := by
  by_cases language : x.config.language = .zod
  · obtain ⟨schema, rendered, shapes⟩ := statements_of_zod language h
    obtain rfl : schema = _ := by
      rcases shapes with ⟨-, rfl⟩ | ⟨-, -, type, -, rfl⟩ | ⟨-, -, rfl⟩
      · obtain rfl := List.mem_singleton.1 hs
        exact Option.some.inj hschema
      · rcases List.mem_cons.1 hs with rfl | hs
        · cases hschema
        · obtain rfl := List.mem_singleton.1 hs
          exact Option.some.inj hschema
      · rcases List.mem_cons.1 hs with rfl | hs
        · exact Option.some.inj hschema
        · obtain rfl := List.mem_singleton.1 hs
          cases hschema
    exact ⟨language, rendered⟩
  · obtain ⟨type, -, rfl⟩ := statements_of_ne_zod language h
    obtain rfl := List.mem_singleton.1 hs
    cases hschema

/-- With Zod a record has a type of its name, without parameters, exactly if it has none itself. -/
theorem typeHead_iff_of_zod (language : x.config.language = .zod) {ss : List Statement}
    (h : x.statements r = .ok ss) {head : String × Nat} :
    (∃ s ∈ ss, s.typeHead? = some head) ↔ r.isGeneric = false ∧ head = (x.displayName r, 0) := by
  obtain ⟨schema, -, ⟨hg, rfl⟩ | ⟨hg, -, type, -, rfl⟩ | ⟨hg, -, rfl⟩⟩ := statements_of_zod language h
  · simp [Statement.typeHead?, hg]
  · simp [Statement.typeHead?, hg, eq_comm]
  · simp [Statement.typeHead?, hg, eq_comm]

/-! ## Documents -/

/-- The text of a script with the given statements. -/
def documentText (x : Export) (rs : List Record) (imports : List String) (sss : List (List Statement)) :
    String :=
  let declarations := List.zipWith x.declarationText rs sss
  paragraph x.config.headerLines ++ importsText x.config.language imports declarations
    ++ declarationsText declarations

theorem mapM_declaration_eq (x : Export) (rs : List Record) :
    rs.mapM x.declaration = (rs.mapM x.statements).map (List.zipWith x.declarationText rs) := by
  induction rs with
  | nil => rfl
  | cons r rs ih =>
    rw [List.mapM_cons, List.mapM_cons, declaration_eq, ih]
    cases x.statements r with
    | error e => rfl
    | ok ss => cases rs.mapM x.statements <;> rfl

theorem scriptDocument_eq (x : Export) (rs : List Record) (imports : List String) :
    x.scriptDocument rs imports = (rs.mapM x.statements).map (x.documentText rs imports) := by
  unfold scriptDocument
  rw [mapM_declaration_eq]
  cases rs.mapM x.statements <;> rfl

theorem checkNames_of_prepare (h : x.prepare = .ok ()) : x.checkNames = .ok () := by
  obtain ⟨_, -, h⟩ := bind_eq_ok.1 h
  split at h
  · obtain ⟨_, -, h⟩ := bind_eq_ok.1 h
    exact h
  · exact h

theorem prepare_eq_ok (complete : x.types.checkComplete = .ok ())
    (validated : x.config.validate = true → x.scope.validate = .ok ()) (names : x.checkNames = .ok ()) :
    x.prepare = .ok () := by
  refine bind_eq_ok.2 ⟨(), complete, ?_⟩
  split
  · next on => exact bind_eq_ok.2 ⟨(), validated on, names⟩
  · exact names

/-- What is to be checked for the records that an export has. -/
theorem prepare_of_records {rs : List Record} (records : x.types.records = rs)
    (complete : x.types.checkComplete = .ok ())
    (validated : x.config.validate = true → x.scope.validate = .ok ())
    (names : ∀ r ∈ rs, x.displayName r ∉ x.config.language.reservedTypeNames ∧ isTypeName (x.displayName r))
    (places : (rs.map x.place).Nodup) : x.prepare = .ok () := by
  subst records
  exact prepare_eq_ok complete validated (checkNames_of_nodup names places)

/-- The document of a script whose records have these statements. -/
theorem text_of_statements {rs : List Record} {sss : List (List Statement)}
    (language : x.config.language ≠ .jsonschema) (layout : x.config.layout ≠ .perTypeFile)
    (records : x.types.records = rs) (prepared : x.prepare = .ok ()) (rendered : rs.mapM x.statements = .ok sss) :
    x.text = .ok (x.documentText rs [] sss) := by
  unfold Export.text
  rw [if_neg layout]
  refine bind_eq_ok.2 ⟨(), prepared, ?_⟩
  rw [records, Export.document, if_neg language, scriptDocument_eq, rendered]
  rfl

/-- A text with all records is that of a document, and the names of records were checked. -/
theorem text_eq_ok {text : String} (h : x.text = .ok text) :
    x.config.layout ≠ .perTypeFile ∧ x.checkNames = .ok () ∧ x.document x.types.records = .ok text := by
  unfold Export.text at h
  by_cases hl : x.config.layout = .perTypeFile
  · rw [if_pos hl] at h
    cases h
  · rw [if_neg hl] at h
    obtain ⟨_, hp, h⟩ := bind_eq_ok.1 h
    exact ⟨hl, checkNames_of_prepare hp, h⟩

/-- In a script it consists of the statements for the records. -/
theorem script_eq_ok (language : x.config.language ≠ .jsonschema) {text : String} (h : x.text = .ok text) :
    x.config.layout ≠ .perTypeFile ∧ x.checkNames = .ok () ∧ ∃ sss,
      x.types.records.mapM x.statements = .ok sss ∧ text = x.documentText x.types.records [] sss := by
  obtain ⟨layout, checked, document⟩ := text_eq_ok h
  unfold Export.document at document
  rw [if_neg language, scriptDocument_eq] at document
  obtain ⟨sss, rendered, rfl⟩ := map_eq_ok.1 document
  exact ⟨layout, checked, sss, rendered, rfl⟩

/-- The file of a record is its declaration below its imports. -/
theorem file_eq_ok (language : x.config.language ≠ .jsonschema) {file : FilePath × String} :
    x.file r = .ok file ↔ ∃ lines ss, x.imports r = .ok lines ∧ x.statements r = .ok ss ∧
      file = (x.filePath r, x.documentText [r] lines [ss]) := by
  rw [Export.file, if_neg language]
  constructor
  · intro h
    obtain ⟨lines, hl, h⟩ := bind_eq_ok.1 h
    obtain ⟨text, ht, h⟩ := bind_eq_ok.1 h
    rw [scriptDocument_eq] at ht
    obtain ⟨sss, all, rfl⟩ := map_eq_ok.1 ht
    rw [List.mapM_cons, List.mapM_nil] at all
    obtain ⟨ss, hs, single⟩ := bind_eq_ok.1 all
    obtain rfl : [ss] = sss := Except.ok.inj single
    exact ⟨lines, ss, hl, hs, (Except.ok.inj h).symm⟩
  · rintro ⟨lines, ss, hl, hs, rfl⟩
    have document : x.scriptDocument [r] lines = .ok (x.documentText [r] lines [ss]) := by
      rw [scriptDocument_eq, List.mapM_cons, List.mapM_nil, hs]
      rfl
    exact bind_eq_ok.2 ⟨lines, hl, bind_eq_ok.2 ⟨_, document, rfl⟩⟩

theorem exists_file (language : x.config.language ≠ .jsonschema) {lines : List String} {ss : List Statement}
    (imported : x.imports r = .ok lines) (declared : x.statements r = .ok ss) : ∃ file, x.file r = .ok file :=
  ⟨_, (file_eq_ok language).2 ⟨lines, ss, imported, declared, rfl⟩⟩

/-! ### A record that refers to another -/

namespace Pens

def ink : Record where
  id := ⟨⟨.static, 1⟩, "Ink"⟩
  name := "Ink"
  shape := .primitive .string

def pen : Record where
  id := ⟨⟨.static, 2⟩, "Pen"⟩
  name := "Pen"
  shape := .struct "Pen" (.named none [{ name := "ink", ty := .reference ink.id [] }])

def pens (language : Language) : Export :=
  ⟨{ language, banner := "", layout := .perTypeFile }, .ofRecords [ink, pen]⟩

example : (pens .typescript).prepare = .ok () ∧ (pens .typescript).file pen = .ok (⟨.relative, ["Pen.ts"]⟩,
    "import type \x7b Ink \x7d from \"./Ink\";\n\nexport type Pen = \x7b ink: Ink \x7d;\n") := by
  constructor <;> cbv

example : (pens .zod).imports pen = .ok ["import \x7b Ink \x7d from \"./Ink\";"] ∧
    (pens .zod).statements pen = .ok [.constant "Pen" false
      (.object [⟨"ink", .lazy ink.id.key "Ink" [], false⟩]), .inferred "Pen"] := by
  constructor <;> cbv

end Pens

end Export

end ShapeExport
