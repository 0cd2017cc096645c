import Mathlib
import ShapeExport.Proofs.Export.Rendered
import ShapeExport.Proofs.Zod.Aliases

/-!
# What identifiers denote

A script names records, type parameters and what the language brings along, all in one scope. In a declaration a
type parameter hides the other two, and the records that are declared hide what the language brings along.

* `Meaning` : what an identifier is written for;
* `TypeExpr.identifiers`, `Schema.identifiers`, `Statement.Emits` : the identifiers of a declaration;
* `Export.MayEmit` : the identifiers that the renderers write;
* `Export.Denotes` : an identifier denotes what it was written for;
* `Export.denotes_iff` : it does unless a type parameter has its name, or with Zod a record the name of a type that
  stands beside a recursive schema.
-/

namespace ShapeExport

/-- What an identifier is written for. -/
inductive Meaning
  | parameter (name : String)
  | record (key : TypeKey)
  /-- A type of the language, or the library that schemas are built with. -/
  | builtin (name : String)

/-! ## Identifiers -/

/-- The types of the language that types are written with. -/
def writtenTypes : List String := ["string", "number", "bigint", "boolean", "null", "never", "Partial", "Record"]

/-- The library that schemas are built with. -/
def libraryName : String := "z"

namespace TypeScript.TypeExpr

/-- The identifiers that a type has apart from the types in it. What is in hand-written text is not known. -/
def identifiers : TypeExpr → List (String × Meaning)
  | builtin name => [(name, .builtin name)]
  | parameter name => [(name, .parameter name)]
  | named target name _ => [(name, .record target)]
  | mapped _ _ => [("Partial", .builtin "Partial")]
  | emptyObject => [("Record", .builtin "Record"), ("never", .builtin "never")]
  | _ => []

theorem Formed.identifiers {V : Vocabulary} {e : TypeExpr} (h : Formed V e) {name : String} {m : Meaning}
    (hi : (name, m) ∈ e.identifiers) : m = .parameter name ∨ (∃ k n, m = .record k ∧ V.names k name n) ∨
      m = .builtin name ∧ name ∈ writtenTypes := by
  cases h with
  | @builtin b hb =>
    cases List.mem_singleton.1 hi
    refine Or.inr (Or.inr ⟨rfl, ?_⟩)
    exact List.mem_append_left ["Partial", "Record"] hb
  | parameter =>
    cases List.mem_singleton.1 hi
    exact Or.inl rfl
  | named hn =>
    cases List.mem_singleton.1 hi
    exact Or.inr (Or.inl ⟨_, _, rfl, hn⟩)
  | mapped =>
    cases List.mem_singleton.1 hi
    exact Or.inr (Or.inr ⟨rfl, by decide⟩)
  | emptyObject =>
    rcases List.mem_pair.1 hi with hi | hi
    all_goals
      cases hi
      exact Or.inr (Or.inr ⟨rfl, by decide⟩)
  | _ => cases hi

end TypeScript.TypeExpr

namespace Zod.Schema

/-- The identifiers that a schema has apart from the schemas in it. -/
def identifiers : Schema → List (String × Meaning)
  | parameter name => [(name, .parameter name)]
  | lazy target name _ => [(libraryName, .builtin libraryName), (name, .record target)]
  | _ => [(libraryName, .builtin libraryName)]

theorem Formed.identifiers {V : TypeScript.Vocabulary} {e : Schema} (h : Formed V e) {name : String} {m : Meaning}
    (hi : (name, m) ∈ e.identifiers) : m = .parameter name ∨ (∃ k n, m = .record k ∧ V.names k name n) ∨
      m = .builtin name ∧ name = libraryName := by
  cases h with
  | parameter =>
    cases List.mem_singleton.1 hi
    exact Or.inl rfl
  | lazy hn =>
    rcases List.mem_pair.1 hi with hi | hi
    · cases hi
      exact Or.inr (Or.inr ⟨rfl, rfl⟩)
    · cases hi
      exact Or.inr (Or.inl ⟨_, _, rfl, hn⟩)
  | _ =>
    cases List.mem_singleton.1 hi
    exact Or.inr (Or.inr ⟨rfl, rfl⟩)

end Zod.Schema

/-- The statement has the identifier, written for this meaning. A schema is a value of the library. -/
def Statement.Emits : Statement → String → Meaning → Prop
  | typeAlias _ _ type, name, m => ∃ t, type.Holds t ∧ (name, m) ∈ t.identifiers
  | inferred _, name, m => name = libraryName ∧ m = .builtin libraryName
  | constant _ _ schema, name, m | builder _ _ _ schema, name, m =>
    (name = libraryName ∧ m = .builtin libraryName) ∨ ∃ t, schema.Holds t ∧ (name, m) ∈ t.identifiers

namespace Export
open TypeScript (Vocabulary)

variable {x : Export} {r : Record}

theorem spans_ofRecords (x : Export) (s : Shape) : (Vocabulary.ofRecords x).Spans x s :=
  fun t _ => covers_ofRecords x t t (.here t)

/-- With Zod a type is written only beside a recursive schema, for a record without parameters. -/
theorem recursive_of_typeAlias (language : x.config.language = .zod) {ss : List Statement}
    (h : x.statements r = .ok ss) {n : String} {ps : List String} {type : TypeScript.TypeExpr}
    (hs : .typeAlias n ps type ∈ ss) : r.isGeneric = false ∧ x.types.reachesItself r = true := by
  obtain ⟨schema, -, ⟨-, rfl⟩ | ⟨generic, recursive, -⟩ | ⟨-, -, rfl⟩⟩ := statements_of_zod language h
  · simp at hs
  · exact ⟨generic, recursive⟩
  · simp at hs

/-- Anything but a type is written with Zod only. -/
theorem zod_of_mem_statements {ss : List Statement} (h : x.statements r = .ok ss) {s : Statement} (hs : s ∈ ss)
    (other : ∀ n ps type, s ≠ .typeAlias n ps type) : x.config.language = .zod := by
  by_contra language
  obtain ⟨type, -, rfl⟩ := statements_of_ne_zod language h
  exact other _ _ _ (List.mem_singleton.1 hs)

/-- The identifiers that may stand in the declaration of a record: type parameters, names of records, the library in
schemas, and types of the language. With Zod these stand only beside a recursive schema. -/
inductive MayEmit (x : Export) (r : Record) : String → Meaning → Prop
  | parameter {name : String} : MayEmit x r name (.parameter name)
  | record {t : Record} : t ∈ x.types.records → MayEmit x r (x.displayName t) (.record t.id.key)
  | library : x.config.language = .zod → MayEmit x r libraryName (.builtin libraryName)
  | written {name : String} : name ∈ writtenTypes →
      (x.config.language = .zod → r.isGeneric = false ∧ x.types.reachesItself r = true) →
      MayEmit x r name (.builtin name)

theorem mayEmit_of_schema {path : Path} {schema : Zod.Schema} (zod : x.config.language = .zod)
    (rendered : x.schema path r.shape = .ok schema) {t : Zod.Schema} (ht : schema.Holds t) {name : String} {m : Meaning}
    (hi : (name, m) ∈ t.identifiers) : x.MayEmit r name m := by
  have formed := (formed_schemaExpr (spans_ofRecords x r.shape) rendered).of_holds ht
  rcases formed.identifiers hi with rfl | ⟨k, n, rfl, q, hq, rfl, rfl⟩ | ⟨rfl, rfl⟩
  · exact .parameter
  · exact .record hq
  · exact .library zod

theorem mayEmit_of_emits {ss : List Statement} (h : x.statements r = .ok ss) {s : Statement} (hs : s ∈ ss)
    {name : String} {m : Meaning} (he : s.Emits name m) : x.MayEmit r name m := by
  cases s with
  | typeAlias n ps type =>
    obtain ⟨t, ht, hi⟩ := he
    have formed := (formed_typeExpr (covers_ofRecords x r.shape) (typeExpr_of_mem_statements h hs)).of_holds ht
    rcases formed.identifiers hi with rfl | ⟨k, -, rfl, q, hq, rfl, rfl⟩ | ⟨rfl, written⟩
    · exact .parameter
    · exact .record hq
    · exact .written written fun zod => recursive_of_typeAlias zod h hs
  | inferred n =>
    obtain ⟨rfl, rfl⟩ := he
    exact .library (zod_of_mem_statements h hs fun _ _ _ e => by cases e)
  | constant | builder =>
    obtain ⟨zod, rendered⟩ := schema_of_mem_statements h hs rfl
    rcases he with ⟨rfl, rfl⟩ | ⟨t, ht, hi⟩
    · exact .library zod
    · exact mayEmit_of_schema zod rendered ht hi

/-! ## Denotation -/

/-- In the declaration of a record the identifier denotes what it was written for: a type parameter hides all else,
and a record hides what the language brings along. -/
def Denotes (x : Export) (r : Record) (name : String) : Meaning → Prop
  | .parameter p => name = p ∧ p ∈ r.parameters
  | .record k => name ∉ r.parameters ∧ ∃ t ∈ x.types.records, t.id.key = k ∧ x.displayName t = name
  | .builtin b => name = b ∧ name ∉ r.parameters ∧ ∀ t ∈ x.types.records, x.displayName t ≠ name

/-- In the type beside a recursive schema, a record hides a type of the language. -/
structure Hides (x : Export) (r : Record) (name : String) (m : Meaning) : Prop where
  language : x.config.language = .zod
  plain : r.isGeneric = false
  recursive : x.types.reachesItself r = true
  builtin : m = .builtin name
  unreserved : name ∈ ["bigint", "never", "Partial", "Record"]
  declared : ∃ t ∈ x.types.records, x.displayName t = name

theorem Succeeds.checkNames (h : x.Succeeds) : x.checkNames = .ok () := by
  rcases h with ⟨text, h⟩ | ⟨files, h⟩
  · exact (text_eq_ok h).2.1
  · exact (files_eq_ok h).1

/-- No record is declared under the name of the library. -/
theorem displayName_ne_library (zod : x.config.language = .zod) (names : x.checkNames = .ok ()) {t : Record}
    (ht : t ∈ x.types.records) : x.displayName t ≠ libraryName := by
  intro e
  have free := (checkTypeName_of_checkNames names ht).1
  rw [e, zod] at free
  exact free (by decide)

/-- A record that is declared under the name of a type of the language hides it, with Zod. -/
theorem hides_of_displayName (language : x.config.language ≠ .jsonschema) (names : x.checkNames = .ok ())
    {t : Record} (ht : t ∈ x.types.records) (written : x.displayName t ∈ writtenTypes)
    (recursive : x.config.language = .zod → r.isGeneric = false ∧ x.types.reachesItself r = true) :
    x.Hides r (x.displayName t) (.builtin (x.displayName t)) := by
  have free : x.displayName t ∉ x.config.language.reservedTypeNames := (checkTypeName_of_checkNames names ht).1
  have script : ∀ b ∈ writtenTypes, b ∈ Language.typescript.reservedTypeNames := by decide
  have schema : ∀ b ∈ writtenTypes, b ∈ ["bigint", "never", "Partial", "Record"] ∨
      b ∈ Language.zod.reservedTypeNames := by decide
  cases hl : x.config.language with
  | jsonschema => exact absurd hl language
  | typescript =>
    rw [hl] at free
    exact absurd (script _ written) free
  | zod =>
    rw [hl] at free
    obtain ⟨generic, again⟩ := recursive hl
    exact ⟨hl, generic, again, rfl, (schema _ written).resolve_right free, t, ht, rfl⟩

/-- **Capture.** In a script export that succeeds, an identifier of a declaration denotes what it was written for,
unless it is the name of a type parameter and stands for something else, or it is to be a type parameter and none was
declared, or with Zod a record hides a type of the language. -/
theorem denotes_iff (language : x.config.language ≠ .jsonschema) (h : x.Succeeds) (hr : r ∈ x.types.records) :
    ∃ ss, x.statements r = .ok ss ∧ ∀ s ∈ ss, ∀ name m, s.Emits name m →
      (x.Denotes r name m ↔ (name ∈ r.parameters ↔ m = .parameter name) ∧ ¬ x.Hides r name m) := by
  obtain ⟨ss, declared⟩ := h.exists_statements language hr
  refine ⟨ss, declared, fun s hs name m he => ?_⟩
  have visible {m : Meaning} (other : m ≠ .builtin name) : ¬ x.Hides r name m := fun hides => other hides.builtin
  cases mayEmit_of_emits declared hs he with
  | parameter =>
    have seen : ¬ x.Hides r name (.parameter name) := visible (by simp)
    simp [Denotes, seen]
  | @record t ht =>
    have seen : ¬ x.Hides r (x.displayName t) (.record t.id.key) := visible (by simp)
    have named : ∃ q ∈ x.types.records, q.id.key = t.id.key ∧ x.displayName q = x.displayName t := ⟨t, ht, rfl, rfl⟩
    simp [Denotes, seen, named]
  | library zod =>
    have free := fun t ht => displayName_ne_library zod h.checkNames (t := t) ht
    have seen : ¬ x.Hides r libraryName (.builtin libraryName) := by
      intro hides
      obtain ⟨t, ht, e⟩ := hides.declared
      exact free t ht e
    simpa [Denotes, seen] using fun _ => free
  | written written recursive =>
    have hides : x.Hides r name (.builtin name) ↔ ∃ t ∈ x.types.records, x.displayName t = name := by
      constructor
      · exact Hides.declared
      · rintro ⟨t, ht, rfl⟩
        exact hides_of_displayName language h.checkNames ht written recursive
    simp [Denotes, hides]

/-! ### A record named like a type parameter -/

namespace Boxed

def label : Record where
  id := ⟨⟨.static, 1⟩, "m.T"⟩
  name := "T"
  shape := .primitive .string

def box : Record where
  id := ⟨⟨.static, 2⟩, "m.Box"⟩
  name := "Box"
  shape := .tuple [.placeholder "T", .reference label.id []]
  parameters := ["T"]

def site : Export := ⟨{}, .ofRecords [box, label]⟩

theorem records_site : site.types.records = [box, label] := by
  have sorted : List.Pairwise (fun a b => Record.le a b) [box, label] := by decide
  exact List.mergeSort_of_pairwise sorted

def boxType : TypeScript.TypeExpr := .tuple [.parameter "T", .named label.id.key "T" []]

theorem statements_box : site.statements box = .ok [.typeAlias "Box" ["T"] boxType] := by cbv

theorem succeeds_site : site.Succeeds := by
  have prepared : site.prepare = .ok () :=
    prepare_of_records records_site (by cbv) (fun _ => by cbv) (by decide) (by decide)
  have labels : site.statements label = .ok [.typeAlias "T" [] (.builtin "string")] := by cbv
  exact Or.inl ⟨_, text_of_statements (by decide) (by decide) records_site prepared
    (mapM_eq_ok.2 (.cons statements_box (.cons labels .nil)))⟩

/-- In `Box` the name of the record `T` denotes the type parameter, which is written `T` too. -/
theorem parameter_denotes_box : site.Denotes box "T" (.parameter "T") ∧
    ¬ site.Denotes box "T" (.record label.id.key) := by
  have mem : box ∈ site.types.records := by
    rw [records_site]
    exact List.mem_cons_self
  obtain ⟨ss, declared, iff⟩ := denotes_iff (by decide) succeeds_site mem
  obtain rfl := Except.ok.inj (declared.symm.trans statements_box)
  have emits (t : TypeScript.TypeExpr) (ht : t ∈ boxType.children) {m : Meaning} (hm : ("T", m) ∈ t.identifiers) :
      (Statement.typeAlias "Box" ["T"] boxType).Emits "T" m := ⟨t, .child ht (.here t), hm⟩
  have parameter := iff _ (List.mem_singleton_self _) "T" (.parameter "T")
    (emits _ List.mem_cons_self (List.mem_singleton_self _))
  have record := iff _ (List.mem_singleton_self _) "T" (.record label.id.key)
    (emits _ (List.mem_cons_of_mem _ List.mem_cons_self) (List.mem_singleton_self _))
  refine ⟨parameter.2 ⟨iff_of_true (by decide) rfl, ?_⟩, fun denotes => ?_⟩
  · intro hides
    cases hides.language
  · have same : Meaning.record label.id.key = .parameter "T" := (record.1 denotes).1.1 (by decide)
    cases same

end Boxed

/-! ### A record named `Record` -/

namespace Rows

def row : Record where
  id := ⟨⟨.static, 1⟩, "m.Record"⟩
  name := "Record"
  shape := .primitive .string

def treeId : TypeId := ⟨⟨.static, 2⟩, "m.Tree"⟩

/-- A tree without anything in its nodes. -/
def tree : Record where
  id := treeId
  name := "Tree"
  shape := .struct "Tree" (.named none
    [{ name := "children", ty := .list (.reference treeId []) none false },
      { name := "attributes", ty := .struct "Attributes" (.named none []) }])

def site : Export := ⟨{ language := .zod }, .ofRecords [row, tree]⟩

theorem records_site : site.types.records = [row, tree] := by
  have sorted : List.Pairwise (fun a b => Record.le a b) [row, tree] := by decide
  exact List.mergeSort_of_pairwise sorted

def treeType : TypeScript.TypeExpr :=
  .object [{ key := "children", type := .array (.named treeId.key "Tree" []) },
    { key := "attributes", type := .emptyObject }]

def treeSchema : Zod.Schema :=
  .object [{ key := "children", schema := .array (.lazy treeId.key "Tree" []) },
    { key := "attributes", schema := .emptyObject }]

def rowStatements : List Statement := [.constant "Record" false (.scalar .string), .inferred "Record"]

def treeStatements : List Statement := [.typeAlias "Tree" [] treeType, .constant "Tree" true treeSchema]

theorem statements_tree : site.statements tree = .ok treeStatements := by
  have type : site.typeExpr ["Tree"] tree.shape = .ok treeType := by cbv
  have schema : site.schema ["Tree"] tree.shape = .ok treeSchema := by cbv
  have recursive : site.types.reachesItself tree = true := by cbv
  rw [statements, if_pos (show site.config.language = .zod from rfl)]
  refine bind_eq_ok.2 ⟨treeSchema, schema, ?_⟩
  rw [if_neg (by decide), recursive, if_pos rfl]
  exact bind_eq_ok.2 ⟨treeType, type, rfl⟩

theorem succeeds_site : site.Succeeds := by
  have prepared : site.prepare = .ok () :=
    prepare_of_records records_site (by cbv) (fun _ => by cbv) (by decide) (by decide)
  have rows : site.statements row = .ok rowStatements := by cbv
  exact Or.inl ⟨_, text_of_statements (by decide) (by decide) records_site prepared
    (mapM_eq_ok.2 (.cons rows (.cons statements_tree .nil)))⟩

/-- The type of `Tree` is written with `Record` of the language, and the document declares another `Record`. -/
theorem record_hidden_in_tree : site.Succeeds ∧ tree ∈ site.types.records ∧ row ∈ site.types.records ∧
    site.statements tree = .ok treeStatements ∧
    (∃ s ∈ treeStatements, s.Emits "Record" (.builtin "Record")) ∧ site.displayName row = "Record" ∧
    ¬ site.Denotes tree "Record" (.builtin "Record") := by
  have mem : row ∈ site.types.records := by
    rw [records_site]
    exact List.mem_cons_self
  refine ⟨succeeds_site, ?_, mem, statements_tree, ⟨_, List.mem_cons_self, ?_⟩, rfl, fun denotes => ?_⟩
  · rw [records_site]
    exact List.mem_cons_of_mem _ List.mem_cons_self
  · exact ⟨.emptyObject, .child (List.mem_cons_of_mem _ List.mem_cons_self) (.here _), List.mem_cons_self⟩
  · exact denotes.2.2 row mem rfl

end Rows

end Export

end ShapeExport
