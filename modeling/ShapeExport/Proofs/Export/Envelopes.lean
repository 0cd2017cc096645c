import ShapeExport.Proofs.Export.Objects
import ShapeExport.Proofs.JsonSchema.Lists
import ShapeExport.Proofs.TypeScript.Lists
import ShapeExport.Proofs.Zod.Lists

/-!
# Envelopes

A representation decides what a variant's payload is wrapped in.

* `Envelope`, `Representation.envelope` : the envelopes, and the one that scripts use;
* `Dialect`, `Dialect.Wraps` : how a language writes envelopes, and the terms that are written so;
* `Export.wrapsType_variantExpr`, `Export.wrapsZod_variantSchema` : TypeScript and Zod render every variant in
  the same envelope;
* `JsonSchema.Context.wrapsSchema_variantSchema` : JSON Schema does so too, unless nothing is left of a positional
  variant that is tagged externally, or a field takes the place of the tag;
* `Export.common_envelope_iff` : in these two cases the three languages have no envelope in common.
-/

namespace ShapeExport

/-- What a variant's payload is wrapped in. -/
inductive Envelope
  /-- A constant in place of the payload. -/
  | constant (text : String)
  /-- The payload alone. -/
  | payload
  | emptyArray
  /-- An object with the payload under the variant's key. -/
  | keyed (key : String)
  /-- An object with the tag, and no payload. -/
  | tag (label text : String)
  /-- The tag is merged into the payload. -/
  | merged (label text : String)
  /-- The tag and the payload side by side. -/
  | adjacent (label text content : String)

/-- There is something that a tag can be merged into. -/
def Body.isMergeable : Body Shape → Bool
  | .named .. => true
  | b => !b.payloads.isEmpty

/-- The envelope of a variant with the given key and body. A positional body without fields is an empty array,
and one with skipped fields only is the key. -/
def Representation.envelope (r : Representation) (key : String) (b : Body Shape) : Except Error Envelope :=
  match r with
  | .strings _ => .ok (.constant key)
  | .untagged => .ok .payload
  | .external =>
    if b.isUnit then .ok (.constant key)
    else if b.allSkipped then .ok (if b.types.isEmpty then .emptyArray else .constant key)
    else .ok (.keyed key)
  | .internal tag => do
    let label ← labelText tag
    return if b.isMergeable then .merged label key else .tag label key
  | .adjacent tag content => do
    let label ← labelText tag
    if b.isUnit then return .tag label key
    else return .adjacent label key (← labelText content)

/-! ## Dialects -/

/-- How a language with terms from `τ` writes envelopes. -/
structure Dialect (τ : Type) where
  constant : String → τ
  emptyArray : τ
  /-- An object with the given properties. -/
  object : List (String × τ) → τ
  /-- An object that holds a constant under a label, to be joined with others. -/
  tag : String → String → τ
  /-- The second object is the first one with such a property in it. -/
  Merges : String → String → τ → τ → Prop
  /-- Such an object joined with another term. -/
  join : String → String → τ → τ

/-- The term puts a payload into an envelope. The payload is that of a body, or of its single field where it is
joined with a tag. -/
def Dialect.Wraps {τ : Type} (D : Dialect τ) (body : Except Error τ) (fields : List (Except Error τ)) (term : τ) :
    Envelope → Prop
  | .constant text => term = D.constant text
  | .payload => body = .ok term
  | .emptyArray => term = D.emptyArray
  | .keyed key => ∃ payload, body = .ok payload ∧ term = D.object [(key, payload)]
  | .tag label text => term = D.object [(label, D.constant text)] ∨ term = D.tag label text
  | .merged label text =>
    (∃ payload, body = .ok payload ∧ D.Merges label text payload term) ∨
      ∃ payload, fields = [.ok payload] ∧ term = D.join label text payload
  | .adjacent label text content =>
    ∃ payload, body = .ok payload ∧ term = D.object [(label, D.constant text), (content, payload)]

/-- What fits an internal tag has one payload at most. -/
theorem Body.payloads_of_fits {b : Body Shape} {tag : Json} (fits : (Representation.internal tag).Fits b) {s : Shape}
    {ss : List Shape} (h : b.payloads = s :: ss) : b.payloads = [s] := by
  have length : b.payloads.length ≤ 1 := fits
  rw [h, List.length_cons] at length
  rw [h, List.eq_nil_of_length_eq_zero (by omega : ss.length = 0)]

namespace Dialect

variable {τ : Type} (D : Dialect τ) {body : Except Error τ} {fields : List (Except Error τ)} {key : String}
  {b : Body Shape} {term : τ}

/-- A variant without a tag: a bare key where no payload is left, and an object with the key otherwise. -/
theorem wraps_external
    (h : (if b.isUnit then Except.ok (D.constant key)
      else if b.allSkipped then .ok (if b.types.isEmpty then D.emptyArray else D.constant key)
      else body.map fun payload => D.object [(key, payload)]) = .ok term) :
    ∃ e, Representation.external.envelope key b = .ok e ∧ D.Wraps body fields term e := by
  unfold Representation.envelope
  dsimp only
  split
  · next hu =>
    rw [if_pos hu] at h
    cases h
    exact ⟨.constant key, rfl, rfl⟩
  · next hu =>
    rw [if_neg hu] at h
    split
    · next ha =>
      rw [if_pos ha] at h
      cases h
      refine ⟨_, rfl, ?_⟩
      split <;> rfl
    · next ha =>
      rw [if_neg ha] at h
      obtain ⟨payload, hp, rfl⟩ := map_eq_ok.1 h
      exact ⟨.keyed key, rfl, payload, hp, rfl⟩

/-- The tag of a positional variant is joined with the payload, if there is one. -/
theorem wraps_positional {tag : Json} (fits : (Representation.internal tag).Fits b) {label : String}
    {render : Shape → Except Error τ}
    (h : (match b.payloads with
      | [] => Except.ok (D.tag label key)
      | s :: _ => (render s).map (D.join label key)) = .ok term) :
    D.Wraps body (b.payloads.map render) term
      (if !b.payloads.isEmpty then .merged label key else .tag label key) := by
  cases hs : b.payloads with
  | nil =>
    rw [hs] at h
    cases h
    exact Or.inr rfl
  | cons s ss =>
    rw [hs] at h
    obtain ⟨payload, hp, rfl⟩ := map_eq_ok.1 h
    have single : s :: ss = [s] := hs.symm.trans (Body.payloads_of_fits fits hs)
    refine Or.inr ⟨payload, ?_, rfl⟩
    rw [single, List.map_singleton, hp]

/-- The tag and the payload are two properties, and the tag is alone where there is no payload. -/
theorem wraps_adjacent {tag content : Json}
    (h : (do
      let label ← labelText tag
      if b.isUnit then return D.object [(label, D.constant key)]
      else
        let payload ← body
        return D.object [(label, D.constant key), (← labelText content, payload)]) = .ok term) :
    ∃ e, (Representation.adjacent tag content).envelope key b = .ok e ∧ D.Wraps body fields term e := by
  obtain ⟨label, hl, h⟩ := bind_eq_ok.1 h
  by_cases hu : b.isUnit
  · rw [if_pos hu] at h
    cases h
    exact ⟨.tag label key, bind_eq_ok.2 ⟨label, hl, if_pos hu⟩, Or.inl rfl⟩
  · rw [if_neg hu] at h
    obtain ⟨payload, hp, h⟩ := bind_eq_ok.1 h
    obtain ⟨name, hn, h⟩ := bind_eq_ok.1 h
    cases h
    refine ⟨.adjacent label key name, bind_eq_ok.2 ⟨label, hl, ?_⟩, payload, hp, rfl⟩
    rw [if_neg hu, hn]
    rfl

end Dialect

namespace Export

/-! ## TypeScript -/

section TypeScript
open TypeScript TypeScript.TypeExpr

variable {x : Export} {path : Path} {key : String} {b : Body Shape}

/-- An object that is joined with others stands in parentheses. -/
def typeDialect : Dialect TypeExpr where
  constant := stringConstant
  emptyArray := .tuple []
  object properties := .object (properties.map fun p => { key := scriptKey p.1, type := p.2 })
  tag label text := .grouped (.object [tagMember label text])
  Merges label text own term :=
    ∃ members, own = objectType members ∧ term = .grouped (.object (tagMember label text :: members))
  join label text payload := .grouped (.intersection (.object [tagMember label text]) payload)

/-- The type puts the variant's payload into an envelope. -/
def WrapsType (x : Export) (path : Path) (key : String) (b : Body Shape) : TypeExpr → Envelope → Prop :=
  typeDialect.Wraps (x.bodyExpr path key b) (b.payloads.map (x.typeExpr path))

/-- A variant is rendered in its envelope. -/
theorem wrapsType_variantExpr {r : Representation} (fits : r.Fits b) {type : TypeExpr}
    (h : x.variantExpr r path key b = .ok type) :
    ∃ e, r.envelope key b = .ok e ∧ x.WrapsType path key b type e := by
  cases r with
  | strings rule =>
    rw [variantExpr] at h
    cases h
    exact ⟨.constant key, rfl, rfl⟩
  | untagged =>
    rw [variantExpr] at h
    exact ⟨.payload, rfl, h⟩
  | external =>
    rw [variantExpr] at h
    exact typeDialect.wraps_external h
  | internal tag =>
    rw [variantExpr] at h
    obtain ⟨label, hl, h⟩ := bind_eq_ok.1 h
    refine ⟨_, bind_eq_ok.2 ⟨label, hl, rfl⟩, ?_⟩
    cases b with
    | unit =>
      cases h
      exact Or.inr rfl
    | positional fields =>
      refine typeDialect.wraps_positional fits ?_
      rw [← h]
      exact (taggedPayload_eq ..).symm
    | named inner fields =>
      obtain ⟨members, hm, rfl⟩ := map_eq_ok.1 h
      refine Or.inl ⟨_, ?_, _, rfl, rfl⟩
      rw [bodyExpr_named, hm]
      rfl
  | adjacent tag content =>
    rw [variantExpr] at h
    exact typeDialect.wraps_adjacent h

end TypeScript

/-! ## Zod -/

section Zod
open Zod Zod.Schema

variable {x : Export} {left : Nat} {path : Path} {key : String} {b : Body Shape}

def zodDialect : Dialect Schema where
  constant := stringLiteral
  emptyArray := .tuple []
  object properties := .object (properties.map fun p => { key := schemaKey p.1, schema := p.2 })
  tag label text := .object [schemaTag label text]
  Merges label text own term :=
    ∃ members, own = strictObject members ∧ term = .object (schemaTag label text :: members)
  join label text payload := .intersection (.object [schemaTag label text]) payload

/-- The schema puts the variant's payload into an envelope. -/
def WrapsZod (x : Export) (left : Nat) (path : Path) (key : String) (b : Body Shape) : Schema → Envelope → Prop :=
  zodDialect.Wraps (x.bodySchema left path key b) (b.payloads.map (x.schemaExpr left path))

/-- A variant is rendered in its envelope, which is that of TypeScript. -/
theorem wrapsZod_variantSchema {r : Representation} (fits : r.Fits b) {schema : Schema}
    (h : x.variantSchema left r path key b = .ok schema) :
    ∃ e, r.envelope key b = .ok e ∧ x.WrapsZod left path key b schema e := by
  cases r with
  | strings rule =>
    rw [variantSchema] at h
    cases h
    exact ⟨.constant key, rfl, rfl⟩
  | untagged =>
    rw [variantSchema] at h
    exact ⟨.payload, rfl, h⟩
  | external =>
    rw [variantSchema] at h
    exact zodDialect.wraps_external h
  | internal tag =>
    rw [variantSchema] at h
    obtain ⟨label, hl, h⟩ := bind_eq_ok.1 h
    refine ⟨_, bind_eq_ok.2 ⟨label, hl, rfl⟩, ?_⟩
    cases b with
    | unit =>
      cases h
      exact Or.inr rfl
    | positional fields =>
      refine zodDialect.wraps_positional fits ?_
      rw [← h]
      exact (taggedSchema_eq ..).symm
    | named inner fields =>
      obtain ⟨members, hm, rfl⟩ := map_eq_ok.1 h
      refine Or.inl ⟨_, ?_, _, rfl, rfl⟩
      rw [bodySchema_named, hm]
      rfl
  | adjacent tag content =>
    rw [variantSchema] at h
    exact zodDialect.wraps_adjacent h

end Zod

end Export

/-! ## JSON Schema -/

namespace JsonSchema.Context
open Schema

variable {c : Context} {stack : List TypeKey} {path : Path} {key : String} {b : Body Shape}

/-- The object of the first schema with a constant under a label, which it requires. All other properties are the
same. -/
def MergesTag (label text : String) (own schema : Schema) : Prop :=
  ∃ (members : OrderedMap Schema × List String) (properties : OrderedMap Schema),
    own = objectSchema members ∧ (∀ k ∈ members.2, k ∈ members.1.keys) ∧
      schema = object properties (.string label :: members.2.map .string) ∧ properties.keys.Nodup ∧
        properties.lookup label = some (const text) ∧ ∀ k ≠ label, properties.lookup k = members.1.lookup k

/-- An object allows further properties where it may be joined with others. -/
def dialect (c : Context) : Dialect Schema where
  constant := const
  emptyArray := fixedItems c.version []
  object properties := closedObject properties (properties.map fun p => .string p.1)
  tag label text := object [(label, const text)] [.string label]
  Merges := MergesTag
  join label text payload := .ofKeywords [.allOf [object [(label, const text)] [.string label], payload]]

/-- The schema puts the variant's payload into an envelope. -/
def WrapsSchema (c : Context) (stack : List TypeKey) (path : Path) (key : String) (b : Body Shape) :
    Schema → Envelope → Prop :=
  c.dialect.Wraps (c.bodySchema stack path key b) (b.payloads.map (c.schemaIn stack path))

/-- The property under the label of the tag is another one: a field has taken its place. -/
def HidesTag (c : Context) (stack : List TypeKey) (path : Path) (r : Representation) (key : String)
    (b : Body Shape) : Prop :=
  ∃ label inner fields members schema, r = .internal (.string label) ∧ b = .named inner fields ∧
    c.memberSchemas stack path fields = .ok members ∧
      (objectOf (inner.map fun t => (t, const key)).toList members).1.lookup label = some schema ∧
        schema ≠ const key

/-- Nothing is left of a positional body without kept fields. -/
theorem bodySchema_of_allSkipped (h : b.allSkipped) (c : Context) (stack : List TypeKey) (path : Path)
    (name : String) : c.bodySchema stack path name b = .ok (fixedItems c.version []) := by
  cases b with
  | unit | named => cases h
  | positional fields =>
    have none : (Field.kept fields).map (·.ty) = [] := by simpa [Field.kept, Body.allSkipped] using h
    unfold bodySchema
    split
    · next f =>
      rw [Body.allSkipped, List.all_cons, List.all_nil, Bool.and_true] at h
      rw [if_pos h]
    · rw [positionalSchemas_eq, none, elementSchemas]
      rfl

/-- The tag comes to the object of a named body, unless a field has its place. -/
theorem mergesTag_withTag {label : String} {inner : Option String} {members : List (String × Schema × Bool)}
    (seen : ∀ schema, (objectOf (inner.map fun t => (t, const key)).toList members).1.lookup label = some schema →
      schema = const key) :
    MergesTag label key (objectSchema (objectOf (inner.map fun t => (t, const key)).toList members))
      (object (withTag (.string label) (label, const key)
        (objectOf (inner.map fun t => (t, const key)).toList members).1)
        (.string label :: (objectOf (inner.map fun t => (t, const key)).toList members).2.map .string)) := by
  have nodup := nodup_objectOf_struct inner key members
  refine ⟨_, _, rfl, fun k => required_objectOf, rfl, nodup_withTag .., ?_, fun k hk => ?_⟩
  · rw [lookup_withTag nodup, if_pos rfl]
    cases hl : (objectOf (inner.map fun t => (t, const key)).toList members).1.lookup label with
    | none => rfl
    | some schema =>
      rw [seen schema hl]
      rfl
  · rw [lookup_withTag nodup, if_neg hk, Option.or_none]

/-- A variant is rendered in the envelope of the scripts, apart from two cases. -/
theorem wrapsSchema_variantSchema {r : Representation} (fits : r.Fits b) {schema : Schema} {e : Envelope}
    (h : c.variantSchema stack r path key b = .ok schema) (he : r.envelope key b = .ok e)
    (filled : ¬ (r = .external ∧ b.allSkipped)) (shown : ¬ c.HidesTag stack path r key b) :
    c.WrapsSchema stack path key b schema e := by
  cases r with
  | strings rule =>
    rw [variantSchema] at h
    cases h
    cases he
    rfl
  | untagged =>
    rw [variantSchema] at h
    cases he
    exact h
  | external =>
    rw [variantSchema] at h
    rw [Representation.envelope] at he
    split at h
    · next hu =>
      rw [if_pos hu] at he
      cases h
      cases he
      rfl
    · next hu =>
      rw [if_neg hu, if_neg fun ha => filled ⟨rfl, ha⟩] at he
      cases he
      obtain ⟨payload, hp, rfl⟩ := map_eq_ok.1 h
      exact ⟨payload, hp, rfl⟩
  | internal tag =>
    rw [variantSchema] at h
    obtain ⟨label, hl, he⟩ := bind_eq_ok.1 he
    cases he
    obtain rfl := labelText_eq_ok.1 hl
    cases b with
    | unit =>
      cases h
      exact Or.inr rfl
    | positional fields =>
      refine c.dialect.wraps_positional fits ?_
      rw [← h]
      exact (taggedSchema_eq ..).symm
    | named inner fields =>
      obtain ⟨members, hm, rfl⟩ := map_eq_ok.1 h
      -- Without the variant's tag, the object is the payload.
      refine Or.inl ⟨_, ?_, mergesTag_withTag fun schema hs => ?_⟩
      · rw [bodySchema_named, hm]
        rfl
      · by_contra hne
        exact shown ⟨label, inner, fields, members, schema, rfl, rfl, hm, hs, hne⟩
  | adjacent tag content =>
    rw [variantSchema] at h
    obtain ⟨label, hl, envelope⟩ := bind_eq_ok.1 he
    obtain rfl := labelText_eq_ok.1 hl
    -- The label of the tag is a text, so there is a key for it.
    replace h : (if b.isUnit then Except.ok (closedObject [(label, const key)] [.string label])
      else do
        let schema ← c.bodySchema stack path key b
        return closedObject [(label, const key), (← labelKey content, schema)] [.string label, content]) =
      .ok schema := h
    split at h
    · next hu =>
      rw [if_pos hu] at envelope
      cases h
      cases envelope
      exact Or.inl rfl
    · next hu =>
      rw [if_neg hu] at envelope
      obtain ⟨name, hn, envelope⟩ := bind_eq_ok.1 envelope
      obtain rfl := labelText_eq_ok.1 hn
      cases envelope
      obtain ⟨payload, hp, h⟩ := bind_eq_ok.1 h
      cases h
      exact ⟨payload, hp, rfl⟩

end JsonSchema.Context

/-! ## All three languages -/

namespace Export
open JsonSchema (Context)
open JsonSchema.Context (WrapsSchema HidesTag)

variable {r : Representation} {b : Body Shape} {key : String} {x y : Export} {c : Context} {left : Nat}
  {stack : List TypeKey} {p q w : Path} {type : TypeScript.TypeExpr} {zod : Zod.Schema} {schema : JsonSchema.Schema}

/-- A positional variant of which nothing is left is an empty array or its key in TypeScript, and an object in JSON
Schema. -/
theorem not_wrapsSchema_of_allSkipped (empty : b.allSkipped) (ht : x.variantExpr .external p key b = .ok type)
    (hj : c.variantSchema stack .external w key b = .ok schema) {e : Envelope}
    (wt : x.WrapsType p key b type e) : ¬ c.WrapsSchema stack w key b schema e := by
  have unit : ¬ b.isUnit := by
    intro hu
    cases b with
    | positional => cases hu
    | unit | named => cases empty
  rw [variantExpr, if_neg unit, if_pos empty] at ht
  have body := Context.bodySchema_of_allSkipped empty c stack w key
  rw [Context.variantSchema, if_neg unit, body] at hj
  cases hj
  intro ws
  cases e with
  | constant text => cases ws
  | emptyArray => cases ws
  | payload =>
    have payload : c.bodySchema stack w key b = .ok _ := ws
    rw [body] at payload
    cases payload
  | keyed name =>
    obtain ⟨payload, -, rfl⟩ := wt
    split at ht <;> cases ht
  | tag label text =>
    rcases wt with rfl | rfl <;> split at ht <;> cases ht
  | merged label text =>
    rcases wt with ⟨own, -, members, -, rfl⟩ | ⟨payload, -, rfl⟩ <;> split at ht <;> cases ht
  | adjacent label text content =>
    obtain ⟨payload, -, rfl⟩ := wt
    split at ht <;> cases ht

/-- TypeScript has the tag beside all fields, also where JSON Schema has a field in its place. -/
theorem not_wrapsSchema_of_hidesTag (hidden : c.HidesTag stack w r key b)
    (ht : x.variantExpr r p key b = .ok type) (hj : c.variantSchema stack r w key b = .ok schema) {e : Envelope}
    (wt : x.WrapsType p key b type e) : ¬ c.WrapsSchema stack w key b schema e := by
  obtain ⟨label, inner, fields, members, other, rfl, rfl, hm, hl, hne⟩ := hidden
  rw [variantExpr_named] at ht
  obtain ⟨own, ho, rfl⟩ := map_eq_ok.1 ht
  rw [Context.variantSchema_named, hm] at hj
  obtain rfl := Except.ok.inj hj
  have shown : (Context.withTag (.string label) (label, JsonSchema.Schema.const key) _).lookup label = some other :=
    (Context.lookup_withTag (Context.nodup_objectOf_struct inner key members) label).trans (by rw [hl]; rfl)
  intro ws
  cases e with
  | constant text => cases wt
  | emptyArray => cases wt
  | payload =>
    have body : x.bodyExpr p key (.named inner fields) = .ok _ := wt
    rw [bodyExpr_named, ho] at body
    exact objectType_ne_grouped (Except.ok.inj body)
  | keyed name =>
    obtain ⟨payload, -, h⟩ := wt
    cases h
  | adjacent label' text content =>
    obtain ⟨payload, -, h⟩ := wt
    cases h
  | tag label' text =>
    rcases wt with h | h
    · cases h
    · obtain ⟨rfl, rfl⟩ := tagMember_injective
        (List.cons.inj (TypeScript.TypeExpr.object.inj (TypeScript.TypeExpr.grouped.inj h))).1
      rcases ws with h | h
      · exact JsonSchema.Schema.object_ne_closedObject h
      · rw [(JsonSchema.Schema.object_injective h).1, List.lookup_cons_self] at shown
        exact hne (Option.some.inj shown).symm
  | merged label' text =>
    rcases wt with ⟨_, -, _, -, h⟩ | ⟨_, -, h⟩
    · obtain ⟨rfl, rfl⟩ := tagMember_injective
        (List.cons.inj (TypeScript.TypeExpr.object.inj (TypeScript.TypeExpr.grouped.inj h))).1
      rcases ws with ⟨_, -, _, _, -, -, h, -, found, -⟩ | ⟨_, -, h⟩
      · rw [(JsonSchema.Schema.object_injective h).1, found] at shown
        exact hne (Option.some.inj shown).symm
      · cases h
    · cases h

/-- In TypeScript and Zod a kept variant has the envelope of its representation, with the same constants. JSON Schema
has it too, except where nothing is left of a positional variant that is tagged externally, and where a field takes
the place of the tag. -/
theorem common_envelope_iff {scope : Scope} {path : Path} {name : String} {vs : List (Variant Shape)}
    {tagging : Option Tagging} (hr : scope.represent path name vs tagging = .ok r) {v : Variant Shape}
    (hv : v ∈ Variant.kept vs) (ht : x.variantExpr r p (r.variantKey v) v.body = .ok type)
    (hz : y.variantSchema left r q (r.variantKey v) v.body = .ok zod)
    (hj : c.variantSchema stack r w (r.variantKey v) v.body = .ok schema) :
    (∃ e, x.WrapsType p (r.variantKey v) v.body type e ∧ y.WrapsZod left q (r.variantKey v) v.body zod e) ∧
      ((∃ e, x.WrapsType p (r.variantKey v) v.body type e ∧ y.WrapsZod left q (r.variantKey v) v.body zod e ∧
          c.WrapsSchema stack w (r.variantKey v) v.body schema e) ↔
        ¬ (r = .external ∧ v.body.allSkipped) ∧ ¬ c.HidesTag stack w r (r.variantKey v) v.body) := by
  have fits := Scope.fits_of_represent hr v hv
  obtain ⟨e, he, wt⟩ := wrapsType_variantExpr fits ht
  obtain ⟨e', he', wz⟩ := wrapsZod_variantSchema fits hz
  rw [he] at he'
  cases he'
  refine ⟨⟨e, wt, wz⟩, fun ⟨e, wt, _, ws⟩ => ⟨?_, fun hidden => ?_⟩, fun ⟨filled, shown⟩ => ?_⟩
  · rintro ⟨rfl, empty⟩
    exact not_wrapsSchema_of_allSkipped empty ht hj wt ws
  · exact not_wrapsSchema_of_hidesTag hidden ht hj wt ws
  · exact ⟨e, wt, wz, Context.wrapsSchema_variantSchema fits hj he filled shown⟩

/-! ### Moves and stops

An event is a move with a place, or a stop. -/

namespace Events

def moved : Variant Shape := { name := "Moved", body := .named none [{ name := "x", ty := .primitive .i32 }] }

/-- A positional variant without fields. -/
def stopped : Variant Shape := { name := "Stopped", body := .positional [] }

def scripts : Export := ⟨{}, .empty⟩

def schemas : Context := { toExport := ⟨{ language := .jsonschema }, .empty⟩ }

/-- With a tag inside, the place of a move is the object that the tag is merged into. -/
theorem common_envelope_moved : ∃ type zod schema e,
    scripts.variantExpr (.internal (.string "kind")) ["Moved"] "Moved" moved.body = .ok type ∧
    scripts.variantSchema 0 (.internal (.string "kind")) ["Moved"] "Moved" moved.body = .ok zod ∧
    schemas.variantSchema [] (.internal (.string "kind")) ["Moved"] "Moved" moved.body = .ok schema ∧
    scripts.WrapsType ["Moved"] "Moved" moved.body type e ∧ scripts.WrapsZod 0 ["Moved"] "Moved" moved.body zod e ∧
    schemas.WrapsSchema [] ["Moved"] "Moved" moved.body schema e := by
  have members : schemas.memberSchemas [] ["Moved"] [{ name := "x", ty := .primitive .i32 }] =
      .ok [("x", JsonSchema.Schema.ofType .integer [.format "int32"], false)] := by cbv
  have shown : ¬ schemas.HidesTag [] ["Moved"] (.internal (.string "kind")) "Moved" moved.body := by
    rintro ⟨label, inner, fields, ms, schema, hr, hb, hm, hl, -⟩
    cases hr
    cases hb
    rw [members] at hm
    cases hm
    simp [Context.objectOf, OrderedMap.insert, List.lookup] at hl
  have tagged : scripts.scope.represent [] "Event" [moved, stopped] (some (.internal (.string "kind"))) =
      .ok (.internal (.string "kind")) := by cbv
  have ht : scripts.variantExpr (.internal (.string "kind")) ["Moved"] "Moved" moved.body =
      .ok (.grouped (.object [tagMember "kind" "Moved", { key := "x", type := .builtin "number" }])) := by cbv
  have hz : scripts.variantSchema 0 (.internal (.string "kind")) ["Moved"] "Moved" moved.body =
      .ok (.object [schemaTag "kind" "Moved", { key := "x", schema := .scalar .integer }]) := by cbv
  have hj : schemas.variantSchema [] (.internal (.string "kind")) ["Moved"] "Moved" moved.body =
      .ok (.object [("kind", .const "Moved"), ("x", .ofType .integer [.format "int32"])]
        [.string "kind", .string "x"]) := by cbv
  have filled : ¬ (Representation.internal (.string "kind") = .external ∧ moved.body.allSkipped) := by
    rintro ⟨h, -⟩
    cases h
  obtain ⟨e, wt, wz, ws⟩ := (common_envelope_iff tagged (v := moved) List.mem_cons_self ht hz hj).2.2 ⟨filled, shown⟩
  exact ⟨_, _, _, e, ht, hz, hj, wt, wz, ws⟩

/-- Without a tag, a stop is an empty array in TypeScript and Zod. In JSON Schema it is an object that holds one. -/
theorem stopped_without_common_envelope :
    scripts.scope.represent [] "Event" [moved, stopped] none = .ok .external ∧
    stopped ∈ Variant.kept [moved, stopped] ∧
    scripts.variantExpr .external ["Stopped"] "Stopped" stopped.body = .ok (.tuple []) ∧
    scripts.variantSchema 0 .external ["Stopped"] "Stopped" stopped.body = .ok (.tuple []) ∧
    schemas.variantSchema [] .external ["Stopped"] "Stopped" stopped.body =
      .ok (.closedObject [("Stopped", .fixedItems .draft07 [])] [.string "Stopped"]) ∧
    ∀ e, scripts.WrapsType ["Stopped"] "Stopped" stopped.body (.tuple []) e →
      ¬ schemas.WrapsSchema [] ["Stopped"] "Stopped" stopped.body
        (.closedObject [("Stopped", .fixedItems .draft07 [])] [.string "Stopped"]) e := by
  have ht : scripts.variantExpr .external ["Stopped"] "Stopped" stopped.body = .ok (.tuple []) := by cbv
  have hj : schemas.variantSchema [] .external ["Stopped"] "Stopped" stopped.body =
      .ok (.closedObject [("Stopped", .fixedItems .draft07 [])] [.string "Stopped"]) := by cbv
  exact ⟨by cbv, List.mem_cons_of_mem _ List.mem_cons_self, ht, by cbv, hj,
    fun _ => not_wrapsSchema_of_allSkipped rfl ht hj⟩

end Events

end Export

end ShapeExport
