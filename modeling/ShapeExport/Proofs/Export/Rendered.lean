import ShapeExport.Proofs.Export.Files
import ShapeExport.Proofs.Export.Objects
import ShapeExport.Proofs.JsonSchema.Document
import ShapeExport.Proofs.Zod.Failures

/-!
# What an export renders

An export that succeeds has rendered all that its records show.

* `Shape.Within` : a shape is among the parts of another one, at any depth;
* `Export.hasType_of_holds` : a shape with a type has one at each kept position;
* `Export.hasSchema_of_within` : a shape with a Zod schema has one for each part that goes into it;
* `JsonSchema.Context.schemaIn_of_visits` : a shape with a JSON schema has one wherever the walk of the renderer comes;
* `Export.exists_objectExpr`, `Export.exists_objectSchema`, `JsonSchema.Context.exists_objectSchemaOf` : then the
  objects that are shown there are rendered;
* `Export.Succeeds` : an export gives a document or files, for which all records were rendered.
-/

namespace ShapeExport

/-- The second shape is among the parts of the first one, at any depth, or is the first. -/
inductive Shape.Within (below : Shape → List Shape) : Shape → Shape → Prop
  | here (s : Shape) : Within below s s
  | part {s c t : Shape} : c ∈ below s → Within below c t → Within below s t

namespace Export

variable {x : Export} {path : Path}

/-! ## TypeScript -/

section TypeScript
open TypeScript

/-- The shape has a type somewhere. -/
def HasType (x : Export) (s : Shape) : Prop := ∃ path type, x.typeExpr path s = .ok type

theorem HasType.stripNullable {s : Shape} (h : x.HasType s) : x.HasType s.stripNullable := by
  fun_induction Shape.stripNullable s with
  | case1 inner ih =>
    obtain ⟨path, type, h⟩ := h
    rw [typeExpr] at h
    obtain ⟨own, hi, -⟩ := map_eq_ok.1 h
    exact ih ⟨path, own, hi⟩
  | case2 => exact h

/-- The key of a map has a type without its nullables. -/
theorem HasType.of_mem_kept {s c : Shape} (h : x.HasType s) (hc : c ∈ s.kept) : x.HasType c.stripNullable := by
  obtain ⟨path, type, h⟩ := h
  have anything : ∀ e : Error, ¬ e.IsEndless → True := fun _ _ => trivial
  have hs : ∀ kind, s ≠ .primitive kind := by
    rintro kind rfl
    cases hc
  by_contra missing
  have refused := refuses_typeExpr_step (M := fun c => ¬ x.HasType c.stripNullable)
    (Collection.covers_of_not_isEndless anything).admits (Collection.finds_of_not_isEndless anything s) hs
    (fun c _ path => ⟨fun _ _ => trivial, fun none type h => none (HasType.stripNullable ⟨path, type, h⟩)⟩)
    (fun key value _ path => ⟨fun _ _ => trivial, fun none type h => none ⟨path, type, h⟩⟩)
  exact (refused path).fails ⟨c, hc, missing⟩ type h

theorem hasType_of_holds {s t : Shape} (h : x.HasType s.stripNullable) (hold : s.Holds t) :
    x.HasType t.stripNullable := by
  induction hold with
  | here => exact h
  | @child s c t hc _ ih =>
    refine ih ?_
    cases s with
    | nullable inner =>
      rw [List.mem_singleton.1 hc]
      exact h
    | _ => exact h.of_mem_kept hc

theorem exists_bodyExpr {r : Representation} (plain : r.IsPlain) {key : String} {o : NamedObject} {type : TypeExpr}
    (h : x.variantExpr r path key o.body = .ok type) : ∃ type, x.bodyExpr path key o.body = .ok type := by
  have unit : ¬ o.body.isUnit := Bool.false_ne_true
  have filled : ¬ o.body.allSkipped := Bool.false_ne_true
  rcases plain with rfl | rfl | ⟨tag, content, rfl⟩
  · rw [variantExpr, if_neg unit, if_neg filled] at h
    obtain ⟨own, ho, -⟩ := map_eq_ok.1 h
    exact ⟨own, ho⟩
  · rw [variantExpr] at h
    exact ⟨type, h⟩
  · rw [variantExpr] at h
    obtain ⟨_, -, h⟩ := bind_eq_ok.1 h
    obtain ⟨own, ho, -⟩ := bind_eq_ok.1 h
    exact ⟨own, ho⟩

/-- The objects that a struct or an enum shows are rendered with it. -/
theorem exists_objectExpr {t : Shape} (h : x.HasType t) {o : NamedObject} (ho : t.HasObject x.config.overrides o) :
    ∃ path type, x.objectExpr path o = .ok type := by
  obtain ⟨path, type, h⟩ := h
  cases t with
  | struct name body =>
    cases ho with
    | struct name tag fields =>
      rw [typeExpr] at h
      exact ⟨_, type, h⟩
  | enum name vs tagging =>
    rw [typeExpr] at h
    split at h
    · next none => exact absurd ho (Shape.not_hasObject_of_isEmpty none)
    · obtain ⟨r, hr, h⟩ := bind_eq_ok.1 h
      obtain ⟨types, ht, -⟩ := map_eq_ok.1 h
      obtain ⟨v, hv, hb, hn, hrep⟩ := Shape.HasObject.exists_variant ho hr
      rw [variantExprs_eq_mapM] at ht
      obtain ⟨type, -, ht⟩ := exists_of_mapM ht hv
      rw [hb, hn] at ht
      unfold objectExpr
      rcases hrep with hrep | ⟨hrep, plain⟩
      · rw [hrep]
        exact ⟨_, type, ht⟩
      · rw [hrep]
        obtain ⟨own, body⟩ := exists_bodyExpr plain ht
        exact ⟨_, own, body⟩
  | _ => cases ho

end TypeScript

/-! ## Zod -/

section Zod
open Zod

variable {left : Nat}

/-- The shape has a schema somewhere. -/
def HasSchema (x : Export) (left : Nat) (s : Shape) : Prop := ∃ path schema, x.schemaExpr left path s = .ok schema

theorem hasSchema_of_keySchema {key c : Shape} {seen : List TypeKey} {schema : Schema}
    (h : x.keySchema left seen path key = .ok schema) (hc : c ∈ key.keyParts) : x.HasSchema left c := by
  fun_induction Shape.stripNullable key with
  | case1 inner ih =>
    rw [keySchema] at h
    exact ih h hc
  | case2 key other =>
    cases key with
    | nullable inner => exact absurd rfl (other inner)
    | primitive | literal | reference => cases hc
    | _ =>
      simp only [keySchema] at h
      rw [List.mem_singleton.1 hc]
      exact ⟨path, schema, h⟩

theorem HasSchema.of_mem_schemaParts {s c : Shape} (h : x.HasSchema left s) (hc : c ∈ s.schemaParts) :
    x.HasSchema left c := by
  obtain ⟨path, schema, h⟩ := h
  have anything : ∀ e : Error, ¬ e.IsEndless → True := fun _ _ => trivial
  by_cases hm : ∃ key value, s = .map key value
  · obtain ⟨key, value, rfl⟩ := hm
    rw [schemaExpr] at h
    obtain ⟨k, hk, h⟩ := bind_eq_ok.1 h
    obtain ⟨v, hv, -⟩ := map_eq_ok.1 h
    rcases List.mem_append.1 hc with hc | hc
    · exact hasSchema_of_keySchema hk hc
    · rw [List.mem_singleton.1 hc]
      exact ⟨path, v, hv⟩
  · have hm : ∀ key value, s ≠ .map key value := fun key value e => hm ⟨key, value, e⟩
    rw [Shape.schemaParts_of_ne_map hm] at hc
    have hs : ∀ kind, s ≠ .primitive kind := by
      rintro kind rfl
      cases hc
    by_contra missing
    have refused : x.SchemaRefuses (fun _ => True) left (∃ c ∈ s.kept, ¬ x.HasSchema left c) s :=
      refuses_schemaExpr_step (Collection.finds_of_not_isEndless anything s)
        (Collection.covers_of_not_isEndless anything).admits hs hm
        fun c _ path => ⟨fun _ _ => trivial, fun none schema h => none ⟨path, schema, h⟩⟩
    exact (refused path).fails ⟨c, hc, missing⟩ schema h

theorem hasSchema_of_within {s t : Shape} (h : x.HasSchema left s) (within : s.Within Shape.schemaParts t) :
    x.HasSchema left t := by
  induction within with
  | here => exact h
  | part hc _ ih => exact ih (h.of_mem_schemaParts hc)

theorem exists_bodySchema {r : Representation} (plain : r.IsPlain) {key : String} {o : NamedObject} {schema : Schema}
    (h : x.variantSchema left r path key o.body = .ok schema) :
    ∃ schema, x.bodySchema left path key o.body = .ok schema := by
  have unit : ¬ o.body.isUnit := Bool.false_ne_true
  have filled : ¬ o.body.allSkipped := Bool.false_ne_true
  rcases plain with rfl | rfl | ⟨tag, content, rfl⟩
  · rw [variantSchema, if_neg unit, if_neg filled] at h
    obtain ⟨own, ho, -⟩ := map_eq_ok.1 h
    exact ⟨own, ho⟩
  · rw [variantSchema] at h
    exact ⟨schema, h⟩
  · rw [variantSchema] at h
    obtain ⟨_, -, h⟩ := bind_eq_ok.1 h
    obtain ⟨own, ho, -⟩ := bind_eq_ok.1 h
    exact ⟨own, ho⟩

/-- The objects that a struct or an enum shows are rendered with it. -/
theorem exists_objectSchema {t : Shape} (h : x.HasSchema left t) {o : NamedObject}
    (ho : t.HasObject x.config.overrides o) : ∃ path schema, x.objectSchema left path o = .ok schema := by
  obtain ⟨path, schema, h⟩ := h
  cases t with
  | struct name body =>
    cases ho with
    | struct name tag fields =>
      rw [schemaExpr] at h
      exact ⟨_, schema, h⟩
  | enum name vs tagging =>
    rw [schemaExpr] at h
    split at h
    · next none => exact absurd ho (Shape.not_hasObject_of_isEmpty none)
    · obtain ⟨r, hr, h⟩ := bind_eq_ok.1 h
      obtain ⟨schemas, hs, -⟩ := map_eq_ok.1 h
      obtain ⟨v, hv, hb, hn, hrep⟩ := Shape.HasObject.exists_variant ho hr
      rw [variantSchemas_eq_mapM] at hs
      obtain ⟨schema, -, hs⟩ := exists_of_mapM hs hv
      rw [hb, hn] at hs
      unfold objectSchema
      rcases hrep with hrep | ⟨hrep, plain⟩
      · rw [hrep]
        exact ⟨_, schema, hs⟩
      · rw [hrep]
        obtain ⟨own, body⟩ := exists_bodySchema plain hs
        exact ⟨_, own, body⟩
  | _ => cases ho

end Zod

end Export

/-! ## JSON Schema -/

namespace JsonSchema.Context
open Schema

variable {c : Context} {stack stack' : List TypeKey} {path : Path}

/-- The walk of the renderer comes to shapes that it renders. -/
theorem schemaIn_of_visits {s t : Shape} (visits : c.types.Visits stack s stack' t) {schema : Schema}
    (h : c.schemaIn stack path s = .ok schema) : ∃ path schema, c.schemaIn stack' path t = .ok schema := by
  induction visits generalizing path schema with
  | here => exact ⟨path, schema, h⟩
  | part hc _ ih =>
    obtain ⟨path, schema, h⟩ := schemaIn_parts_eq_ok hc h
    exact ih h
  | expand hr hp _ _ _ ih =>
    obtain ⟨r, resolved, ⟨none, -⟩ | ⟨-, -, -, body, hb, -⟩⟩ := schemaIn_reference_eq_ok h
    · rw [hr] at resolved
      cases resolved
      exact absurd none hp
    · rw [hr] at resolved
      cases resolved
      exact ih hb

theorem exists_variantSchema {r : Representation} {vs : List (Variant Shape)} {schemas : List Schema}
    (h : c.variantSchemas stack r path vs = .ok schemas) {v : Variant Shape} (hv : v ∈ Variant.kept vs) :
    ∃ schema, c.variantSchema stack r (path ++ [v.name]) (r.variantKey v) v.body = .ok schema := by
  rw [variantSchemas_eq_mapM] at h
  obtain ⟨_, -, hs⟩ := exists_of_mapM h hv
  obtain ⟨schema, hs, -⟩ := bind_eq_ok.1 hs
  exact ⟨schema, hs⟩

theorem exists_bodySchema {r : Representation} (plain : r.IsPlain) {key : String} {o : NamedObject} {schema : Schema}
    (h : c.variantSchema stack r path key o.body = .ok schema) :
    ∃ schema, c.bodySchema stack path key o.body = .ok schema := by
  have unit : ¬ o.body.isUnit := Bool.false_ne_true
  rcases plain with rfl | rfl | ⟨tag, content, rfl⟩
  · rw [variantSchema, if_neg unit] at h
    obtain ⟨own, ho, -⟩ := map_eq_ok.1 h
    exact ⟨own, ho⟩
  · rw [variantSchema] at h
    exact ⟨schema, h⟩
  · rw [variantSchema] at h
    obtain ⟨_, -, h⟩ := bind_eq_ok.1 h
    obtain ⟨own, ho, -⟩ := bind_eq_ok.1 h
    exact ⟨own, ho⟩

/-- The objects that a struct or an enum shows are rendered with it. -/
theorem exists_objectSchemaOf {t : Shape} {schema : Schema} (h : c.schemaIn stack path t = .ok schema)
    {o : NamedObject} (ho : t.HasObject c.config.overrides o) :
    ∃ path schema, c.objectSchemaOf stack path o = .ok schema := by
  cases t with
  | struct name body =>
    cases ho with
    | struct name tag fields =>
      rw [schemaIn] at h
      exact ⟨_, schema, h⟩
  | enum name vs tagging =>
    rw [schemaIn] at h
    split at h
    · next none => exact absurd ho (Shape.not_hasObject_of_isEmpty none)
    · obtain ⟨r, hr, h⟩ := bind_eq_ok.1 h
      obtain ⟨schemas, hs, -⟩ := map_eq_ok.1 h
      obtain ⟨v, hv, hb, hn, hrep⟩ := Shape.HasObject.exists_variant ho hr
      obtain ⟨schema, hs⟩ := exists_variantSchema hs hv
      rw [hb, hn] at hs
      unfold objectSchemaOf
      rcases hrep with hrep | ⟨hrep, plain⟩
      · rw [hrep]
        exact ⟨_, schema, hs⟩
      · rw [hrep]
        obtain ⟨own, body⟩ := exists_bodySchema plain hs
        exact ⟨_, own, body⟩
  | _ => cases ho

end JsonSchema.Context

/-! ## Exports -/

namespace Export

variable {x : Export} {r : Record}

/-- All records were rendered, into one document or into files. -/
def Succeeds (x : Export) : Prop := (∃ text, x.text = .ok text) ∨ ∃ files, x.files = .ok files

theorem Succeeds.exists_statements (h : x.Succeeds) (language : x.config.language ≠ .jsonschema)
    (hr : r ∈ x.types.records) : ∃ ss, x.statements r = .ok ss := by
  rcases h with ⟨text, h⟩ | ⟨files, h⟩
  · obtain ⟨-, -, sss, all, -⟩ := script_eq_ok language h
    obtain ⟨ss, -, hs⟩ := exists_of_mapM all hr
    exact ⟨ss, hs⟩
  · have filed : r ∈ x.filed := mem_filed.2 ⟨Collection.mem_records.1 hr, fun l => absurd l language⟩
    obtain ⟨file, hf⟩ := exists_file_of_filed h filed
    obtain ⟨_, ss, -, hs, -⟩ := (file_eq_ok language).1 hf
    exact ⟨ss, hs⟩

theorem Succeeds.hasType (h : x.Succeeds) (language : x.config.language = .typescript) (hr : r ∈ x.types.records) :
    x.HasType r.shape := by
  obtain ⟨ss, hs⟩ := h.exists_statements (by rw [language]; exact nofun) hr
  obtain ⟨type, ht, -⟩ := statements_of_ne_zod (by rw [language]; exact nofun) hs
  exact ⟨_, type, ht⟩

theorem Succeeds.hasSchema (h : x.Succeeds) (language : x.config.language = .zod) (hr : r ∈ x.types.records) :
    x.HasSchema expansionLimit r.shape := by
  obtain ⟨ss, hs⟩ := h.exists_statements (by rw [language]; exact nofun) hr
  obtain ⟨schema, hs, -⟩ := statements_of_zod language hs
  exact ⟨_, schema, hs⟩

/-- A record without parameters is rendered with links in the document, or with links to other files. -/
theorem Succeeds.exists_schemaIn (h : x.Succeeds) (language : x.config.language = .jsonschema)
    (hr : r ∈ x.types.records) (hp : r.parameters = []) : ∃ linking path schema,
      JsonSchema.Context.schemaIn { toExport := x, linking } [] path r.shape = .ok schema := by
  have ground : (!r.isGeneric) = true := by simp [Record.isGeneric, hp]
  rcases h with ⟨text, h⟩ | ⟨files, h⟩
  · obtain ⟨-, -, document⟩ := text_eq_ok h
    rw [Export.document, if_pos language] at document
    obtain ⟨root, hroot, -⟩ := bind_eq_ok.1 document
    obtain ⟨entries, he, -⟩ := schemaRoot_eq_ok hroot
    obtain ⟨members, hm, -⟩ := bind_eq_ok.1 he
    obtain ⟨member, -, hm⟩ := exists_of_mapM hm (List.mem_filter.2 ⟨hr, ground⟩)
    obtain ⟨definition, hd, -⟩ := bind_eq_ok.1 hm
    obtain ⟨schema, hs, -⟩ := bind_eq_ok.1 hd
    exact ⟨.document, _, schema, hs⟩
  · obtain ⟨file, hf⟩ := exists_file_of_filed h (mem_filed.2 ⟨Collection.mem_records.1 hr, fun _ => hp⟩)
    rw [Export.file, if_pos language] at hf
    obtain ⟨text, ht, -⟩ := bind_eq_ok.1 hf
    obtain ⟨definition, hd, -⟩ := bind_eq_ok.1 ht
    obtain ⟨schema, hs, -⟩ := bind_eq_ok.1 hd
    exact ⟨.file r, _, schema, hs⟩

end Export

end ShapeExport
