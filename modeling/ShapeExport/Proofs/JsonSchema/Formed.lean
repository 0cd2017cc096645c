import ShapeExport.Proofs.JsonSchema.Expansion
import ShapeExport.Proofs.JsonSchema.Lists
import ShapeExport.Proofs.JsonSchema.Objects
import ShapeExport.Proofs.JsonSchema.Satisfaction

/-!
# What rendered schemas are made of

A schema is joined from others, by a union, by a pair or by a reference, or it is a leaf. A leaf refuses all objects,
or each of its keywords looks at the members of an object one by one.

* `Schema.IsLeaf` : such a schema;
* `Schema.Formed` : a schema of unions, pairs, references and leaves;
* `Context.formed_schemaIn`, `Context.formed_definition` : rendered schemas are formed.
-/

namespace ShapeExport.JsonSchema

namespace Keyword

/-- The keyword looks at each member of an object alone, or asks for members. -/
def splits : Keyword Schema → Bool
  | .type .object | .properties _ | .required _ | .closed | .values _ | .propertyNames _ => true
  | _ => false

/-- No object has what the keyword asks for. -/
def refusesObjects : Keyword Schema → Bool
  | .type name => name ≠ .object
  | .const value => value.isScalar
  | .not schema => schema.keywords.isEmpty
  | _ => false

end Keyword

namespace Schema

/-- The schema refuses all objects, or its keywords look at members. -/
def IsLeaf (s : Schema) : Prop := s.core.any (·.refusesObjects) ∨ s.core.all (·.splits)

/-- A schema of unions, pairs, references and leaves. -/
inductive Formed : Schema → Prop
  | leaf {s : Schema} : s.IsLeaf → Formed s
  | anyOf {s : Schema} {ss : List Schema} : s.core = [.anyOf ss] → (∀ t ∈ ss, Formed t) → Formed s
  | allOf {s t u : Schema} : s.core = [.allOf [t, u]] → Formed t → Formed u → Formed s
  | reference {s : Schema} {target : TypeKey} {uri : String} : s.core = [.reference target uri] → Formed s

theorem Formed.annotate {s : Schema} (h : s.Formed) (lines : List String) (isDeprecated : Bool) :
    (s.annotate lines isDeprecated).Formed := by
  have same := core_annotate lines isDeprecated s
  cases h with
  | leaf h =>
    unfold IsLeaf at h
    rw [← same] at h
    exact .leaf h
  | anyOf core all => exact .anyOf (same.trans core) all
  | allOf core first second => exact .allOf (same.trans core) first second
  | reference core => exact .reference (same.trans core)

/-! ## Leaves -/

theorem formed_of_refusesObjects {s : Schema} {k : Keyword Schema} (hk : k ∈ s.keywords) (h : k.refusesObjects) :
    s.Formed := by
  have asks : !k.isNote := by
    cases k with
    | description | deprecated => cases h
    | _ => rfl
  exact .leaf (Or.inl (List.any_eq_true.2 ⟨k, List.mem_filter.2 ⟨hk, asks⟩, h⟩))

/-- A schema that begins with another type is no schema of an object. -/
theorem formed_ofType {name : TypeName} (h : name ≠ .object) (more : List (Keyword Schema)) :
    (ofType name more).Formed :=
  formed_of_refusesObjects List.mem_cons_self (decide_eq_true h)

theorem formed_null : null.Formed := formed_ofType (by decide) []

theorem formed_const {value : Json} (h : value.isScalar) : (ofKeywords [.const value]).Formed :=
  formed_of_refusesObjects List.mem_cons_self h

theorem formed_fixedItems (version : SchemaVersion) (items : List Schema) : (fixedItems version items).Formed :=
  formed_ofType (by decide) _

theorem formed_object (properties : OrderedMap Schema) (required : List Json) : (object properties required).Formed :=
  .leaf (Or.inr rfl)

theorem formed_closedObject (properties : OrderedMap Schema) (required : List Json) :
    (closedObject properties required).Formed :=
  .leaf (Or.inr rfl)

theorem formed_union {ss : List Schema} (h : ∀ s ∈ ss, s.Formed) : (anyOf ss).Formed := by
  rcases anyOf_cases ss with hs | ⟨ts, hts, e⟩
  · exact h _ hs
  · rw [e]
    exact .anyOf rfl fun t ht => h t (hts t ht)

end Schema

/-! ## Rendered schemas -/

namespace Context
open Schema

variable {c : Context} {stack : List TypeKey} {path : Path} {x : Schema}

/-- Wherever the shape stands, its schema is formed. -/
def Forms (c : Context) (stack : List TypeKey) (t : Shape) : Prop :=
  ∀ path x, c.schemaIn stack path t = .ok x → x.Formed

theorem formed_primitiveSchema {kind : Primitive} (h : c.primitiveSchema path kind = .ok x) : x.Formed := by
  unfold primitiveSchema at h
  split at h
  · obtain ⟨behaviour, -, h⟩ := bind_eq_ok.1 h
    split at h <;> cases h <;> exact formed_ofType (by decide) _
  · split at h
    · cases h
      exact formed_ofType (by decide) _
    · split at h
      · cases h
        exact formed_ofType (by decide) _
      · split at h <;> cases h <;> exact formed_ofType (by decide) _

theorem formed_literalSchema (value : Literal) : (literalSchema value).Formed := by
  cases value with
  | none => exact formed_null
  | _ => exact formed_const rfl

theorem formed_objectSchema (members : OrderedMap Schema × List String) : (objectSchema members).Formed := by
  unfold objectSchema
  split
  · exact .leaf (Or.inr rfl)
  · exact .leaf (Or.inr rfl)
  · exact formed_object _ _

theorem formed_bodySchema {b : Body Shape} (parts : ∀ t ∈ b.kept, c.Forms stack t) {name : String}
    (h : c.bodySchema stack path name b = .ok x) : x.Formed := by
  cases b with
  | unit =>
    rw [bodySchema] at h
    cases h
    exact formed_null
  | positional fields =>
    unfold bodySchema at h
    split at h
    · next f =>
      split at h
      · cases h
        exact formed_fixedItems _ _
      · next hf =>
        rw [Body.kept, Field.kept_cons_of_not_skip hf] at parts
        exact parts f.ty List.mem_cons_self path x h
    · obtain ⟨items, -, rfl⟩ := map_eq_ok.1 h
      exact formed_fixedItems _ _
  | named tag fields =>
    rw [bodySchema_named] at h
    obtain ⟨members, -, rfl⟩ := map_eq_ok.1 h
    exact formed_objectSchema _

theorem formed_taggedSchema {tag : Schema} (ht : tag.Formed) {fields : List (Field (Option String) Shape)}
    (parts : ∀ t ∈ (Body.positional fields).kept, c.Forms stack t) (h : c.taggedSchema stack tag path fields = .ok x) :
    x.Formed := by
  rw [taggedSchema_eq] at h
  split at h
  · cases h
    exact ht
  · next s rest payloads =>
    obtain ⟨schema, hs, rfl⟩ := map_eq_ok.1 h
    have kept : s ∈ (Body.positional fields).kept := by
      rw [Body.kept, payloads]
      exact List.mem_cons_self
    exact .allOf rfl ht (parts s kept path schema hs)

theorem formed_variantSchema {r : Representation} {b : Body Shape} (parts : ∀ t ∈ b.kept, c.Forms stack t)
    {key : String} (h : c.variantSchema stack r path key b = .ok x) : x.Formed := by
  cases r with
  | strings rule =>
    rw [variantSchema] at h
    cases h
    exact formed_const rfl
  | untagged =>
    rw [variantSchema] at h
    exact formed_bodySchema parts h
  | external =>
    rw [variantSchema] at h
    split at h
    · cases h
      exact formed_const rfl
    · obtain ⟨schema, -, rfl⟩ := map_eq_ok.1 h
      exact formed_closedObject _ _
  | internal tag =>
    rw [variantSchema] at h
    obtain ⟨text, -, h⟩ := bind_eq_ok.1 h
    cases b with
    | unit =>
      cases h
      exact formed_object _ _
    | positional fields => exact formed_taggedSchema (formed_object _ _) parts h
    | named inner fields =>
      obtain ⟨members, -, rfl⟩ := map_eq_ok.1 h
      exact formed_object _ _
  | adjacent tag content =>
    rw [variantSchema] at h
    obtain ⟨text, -, h⟩ := bind_eq_ok.1 h
    split at h
    · cases h
      exact formed_closedObject _ _
    · obtain ⟨schema, -, h⟩ := bind_eq_ok.1 h
      obtain ⟨label, -, rfl⟩ := map_eq_ok.1 h
      exact formed_closedObject _ _

theorem formed_variantSchemas {r : Representation} {vs : List (Variant Shape)}
    (parts : ∀ v ∈ Variant.kept vs, ∀ t ∈ v.body.kept, c.Forms stack t) {xs : List Schema}
    (h : c.variantSchemas stack r path vs = .ok xs) : ∀ x ∈ xs, x.Formed := by
  intro x hx
  rw [variantSchemas_eq_mapM] at h
  obtain ⟨v, hv, h⟩ := exists_of_mem_results h hx
  obtain ⟨schema, hs, rfl⟩ := map_eq_ok.1 h
  exact (formed_variantSchema (parts v hv) hs).annotate _ _

/-- Rendered schemas are formed. -/
theorem formed_schemaIn (c : Context) (stack : List TypeKey) (s : Shape) : c.Forms stack s := by
  induction stack, s using Collection.renderInduction (c := c.types) with
  | reference stack id arguments ih =>
    intro path x h
    obtain ⟨r, hr, ⟨-, uri, -, rfl⟩ | ⟨-, hm, -, body, hb, rfl⟩⟩ := schemaIn_reference_eq_ok h
    · exact .reference rfl
    · exact (ih r hm hr _ body hb).annotate _ _
  | parts stack s hs ih =>
    intro path x h
    cases s with
    | primitive kind =>
      rw [schemaIn] at h
      exact formed_primitiveSchema h
    | literal value =>
      rw [schemaIn] at h
      cases h
      exact formed_literalSchema value
    | list element length unique =>
      rw [schemaIn] at h
      obtain ⟨item, -, h⟩ := bind_eq_ok.1 h
      cases length <;> cases unique <;> cases h <;> exact formed_ofType (by decide) _
    | map key value =>
      rw [schemaIn] at h
      obtain ⟨names, -, h⟩ := bind_eq_ok.1 h
      obtain ⟨v, -, rfl⟩ := map_eq_ok.1 h
      cases names <;> exact .leaf (Or.inr rfl)
    | nullable inner =>
      rw [schemaIn] at h
      obtain ⟨schema, hi, rfl⟩ := map_eq_ok.1 h
      refine .anyOf rfl (List.forall_mem_cons.2 ⟨?_, List.forall_mem_singleton.2 formed_null⟩)
      exact ih inner List.mem_cons_self path schema hi
    | tuple elements =>
      cases elements with
      | nil =>
        rw [schemaIn] at h
        cases h
        exact formed_null
      | cons t ts =>
        rw [schemaIn] at h
        · obtain ⟨items, -, rfl⟩ := map_eq_ok.1 h
          exact formed_fixedItems _ _
        · intro ht
          cases ht
    | struct name body =>
      rw [schemaIn] at h
      exact formed_bodySchema ih h
    | enum name vs tagging =>
      rw [schemaIn] at h
      split at h
      · cases h
        exact .leaf (Or.inl rfl)
      · obtain ⟨r, -, h⟩ := bind_eq_ok.1 h
        obtain ⟨schemas, hv, rfl⟩ := map_eq_ok.1 h
        refine formed_union (formed_variantSchemas (fun v hv t ht => ?_) hv)
        exact ih t (List.mem_flatMap.2 ⟨v, hv, ht⟩)
    | reference id arguments => exact absurd rfl (hs id arguments)
    | foreign value =>
      rw [schemaIn] at h
      cases h
    | placeholder name =>
      rw [schemaIn] at h
      cases h

theorem formed_definition {r : Record} (h : c.definition r = .ok x) : x.Formed := by
  obtain ⟨schema, hs, rfl⟩ := map_eq_ok.1 h
  exact (formed_schemaIn c [] r.shape _ schema hs).annotate _ _

end Context

end ShapeExport.JsonSchema
