import ShapeExport.Proofs.JsonSchema.Objects
import ShapeExport.Proofs.Scope.Failures
import ShapeExport.Proofs.Text.Literals
import ShapeExport.Zod.Render

/-!
# Objects of named fields

* `NamedObject` : named fields with what tags them, its labels, and those that may not be absent;
* `Shape.HasObject` : the objects that a struct or an enum shows;
* `Shape.HasObject.exists_variant` : the one that an enum shows is that of a kept variant;
* `Export.bodyExpr_named`, `Export.variantExpr_named`, `Export.objectExpr` : named fields in TypeScript, alone, beside
  an internal tag, and either of them;
* `Export.bodySchema_named`, `Export.variantSchema_named`, `Export.objectSchema` : those with Zod;
* `JsonSchema.Context.objectSchemaOf` : those in JSON Schema.
-/

namespace ShapeExport

/-- A label that scripts take is a text. -/
theorem labelText_eq_ok {label : Json} {s : String} : labelText label = .ok s ↔ label = .string s := by
  constructor
  · intro h
    cases label with
    | string t => exact congrArg Json.string (Except.ok.inj h)
    | _ => cases h
  · rintro rfl
    rfl

theorem tagMember_injective {label text label' text' : String} (h : tagMember label text = tagMember label' text') :
    label = label' ∧ text = text' := by
  obtain ⟨-, key, -, constant⟩ := TypeScript.Member.mk.inj h
  exact ⟨Language.propertyKey_injective .typescript key,
    Text.literal_injective .ascii (TypeScript.TypeExpr.constant.inj constant)⟩

/-! ## Named fields -/

/-- Named fields, as a struct or as a variant. -/
structure NamedObject where
  /-- The label of an internal tag. -/
  label : Option String := none
  /-- What the tags hold. -/
  name : String
  /-- The label of a struct tag. -/
  tag : Option String := none
  fields : List (Field String Shape)

namespace NamedObject

variable (o : NamedObject)

def body : Body Shape := .named o.tag o.fields

/-- An internal tag makes it a variant with this tag. Without one it is a body. -/
def representation? : Option Representation := o.label.map fun label => .internal (.string label)

def tags : List String := o.label.toList ++ o.tag.toList

/-- The fields that are not skipped. -/
def kept : List (Field String Shape) := Field.kept o.fields

def fieldKeys : List String := o.kept.map (·.key)

def labels : List String := o.tags ++ o.fieldKeys

/-- The labels of the tags and the keys of the fields that may not be absent. -/
def required (config : Config) : List String :=
  o.tags ++ (o.kept.filter (!config.isOptional ·)).map (·.key)

theorem required_sublist (config : Config) : (o.required config).Sublist o.labels :=
  (List.filter_sublist.map _).append_left _

end NamedObject

/-- A struct or an enum shows an object: its named fields, or those of a kept variant with the tag that the
representation asks for. -/
inductive Shape.HasObject (overrides : Overrides) : Shape → NamedObject → Prop
  | struct (name : String) (tag : Option String) (fields : List (Field String Shape)) :
      HasObject overrides (.struct name (.named tag fields)) { name, tag, fields }
  | plain {name : String} {vs : List (Variant Shape)} {tagging : Option Tagging} {v : Variant Shape}
      {inner : Option String} {fields : List (Field String Shape)} :
      v ∈ Variant.kept vs → v.body = .named inner fields → (∀ tag, overrides.effective name tagging ≠ .internal tag) →
      HasObject overrides (.enum name vs tagging) { name := v.key, tag := inner, fields }
  | tagged {name label : String} {vs : List (Variant Shape)} {tagging : Option Tagging} {v : Variant Shape}
      {inner : Option String} {fields : List (Field String Shape)} :
      v ∈ Variant.kept vs → v.body = .named inner fields →
      overrides.effective name tagging = .internal (.string label) →
      HasObject overrides (.enum name vs tagging) { label := some label, name := v.key, tag := inner, fields }

theorem Shape.not_hasObject_of_isEmpty {overrides : Overrides} {name : String} {vs : List (Variant Shape)}
    {tagging : Option Tagging} {o : NamedObject} (h : (Variant.kept vs).isEmpty) :
    ¬ (Shape.enum name vs tagging).HasObject overrides o := by
  rw [List.isEmpty_iff] at h
  intro ho
  cases ho with
  | plain hv | tagged hv =>
    rw [h] at hv
    cases hv

/-- The key of a variant is its name or the new one, unless variants are texts. -/
theorem Representation.variantKey_of_ne_strings {r : Representation} (h : ∀ rule, r ≠ .strings rule)
    (v : Variant Shape) : r.variantKey v = v.key := by
  obtain ⟨name, body, skip, rename⟩ := v
  cases rename with
  | some new => rfl
  | none =>
    cases r with
    | strings rule => exact absurd rfl (h rule)
    | _ => rfl

/-- The body of a variant with named fields is rendered by itself. -/
def Representation.IsPlain (r : Representation) : Prop :=
  r = .external ∨ r = .untagged ∨ ∃ tag content, r = .adjacent tag content

/-- Where a variant with named fields is kept, variants are no texts. -/
theorem Scope.represent_of_named {scope : Scope} {path : Path} {name : String} {vs : List (Variant Shape)}
    {tagging : Option Tagging} {r : Representation} (h : scope.represent path name vs tagging = .ok r)
    {v : Variant Shape} (hv : v ∈ Variant.kept vs) {inner : Option String} {fields : List (Field String Shape)}
    (hb : v.body = .named inner fields) :
    (∃ tag, scope.overrides.effective name tagging = .internal tag ∧ r = .internal tag) ∨
      (∀ tag, scope.overrides.effective name tagging ≠ .internal tag) ∧ r.IsPlain := by
  unfold Scope.represent at h
  dsimp only at h
  split at h
  · next effective =>
    cases h
    exact Or.inr ⟨by rw [effective]; exact nofun, Or.inl rfl⟩
  · next effective =>
    cases h
    exact Or.inr ⟨by rw [effective]; exact nofun, Or.inr (Or.inl rfl)⟩
  · next tag effective =>
    obtain ⟨_, -, h⟩ := bind_eq_ok.1 h
    cases h
    exact Or.inl ⟨tag, effective, rfl⟩
  · next tag content effective =>
    split at h
    · cases h
    · cases h
      exact Or.inr ⟨by rw [effective]; exact nofun, Or.inr (Or.inr ⟨tag, content, rfl⟩)⟩
  · split at h
    · next hu =>
      have unit : v.body.isUnit = true := List.all_eq_true.1 hu v hv
      rw [hb] at unit
      cases unit
    · cases h

/-- The labels of an adjacently tagged enum differ. -/
theorem Scope.labels_ne_of_represent {scope : Scope} {path : Path} {name : String} {vs : List (Variant Shape)}
    {tagging : Option Tagging} {tag content : String}
    (h : scope.represent path name vs tagging = .ok (.adjacent (.string tag) (.string content))) : tag ≠ content := by
  rintro rfl
  unfold Scope.represent at h
  dsimp only at h
  split at h
  · cases h
  · cases h
  · obtain ⟨_, -, h⟩ := bind_eq_ok.1 h
    cases h
  · split at h
    · cases h
    · next different =>
      cases h
      exact different (beq_self_eq_true tag)
  · split at h
    · obtain ⟨rule, -, h⟩ := map_eq_ok.1 h
      cases h
    · cases h

/-- An object that an enum shows is that of a variant. -/
theorem Shape.HasObject.exists_variant {scope : Scope} {path : Path} {name : String} {vs : List (Variant Shape)}
    {tagging : Option Tagging} {o : NamedObject} (h : (Shape.enum name vs tagging).HasObject scope.overrides o)
    {r : Representation} (hr : scope.represent path name vs tagging = .ok r) :
    ∃ v ∈ Variant.kept vs, v.body = o.body ∧ r.variantKey v = o.name ∧
      (o.representation? = some r ∨ o.representation? = none ∧ r.IsPlain) := by
  cases h with
  | @plain _ _ _ v inner fields hv hb plain =>
    rcases Scope.represent_of_named hr hv hb with ⟨tag, effective, -⟩ | ⟨-, simple⟩
    · exact absurd effective (plain tag)
    · refine ⟨v, hv, hb, Representation.variantKey_of_ne_strings ?_ v, Or.inr ⟨rfl, simple⟩⟩
      rintro rule rfl
      rcases simple with h | h | ⟨_, _, h⟩ <;> cases h
  | @tagged _ label _ _ v inner fields hv hb effective =>
    rcases Scope.represent_of_named hr hv hb with ⟨tag, other, rfl⟩ | ⟨other, -⟩
    · rw [effective] at other
      cases other
      exact ⟨v, hv, hb, Representation.variantKey_of_ne_strings (r := .internal (.string label)) nofun v, Or.inl rfl⟩
    · exact absurd effective (other _)

namespace Export

/-! ## TypeScript -/

section TypeScript
open TypeScript TypeScript.TypeExpr

/-- An object type with the given members. -/
def objectType : List (Member TypeExpr) → TypeExpr
  | [] => .emptyObject
  | members => .object members

theorem objectType_ne_grouped {members : List (Member TypeExpr)} {e : TypeExpr} : objectType members ≠ .grouped e := by
  cases members <;> exact nofun

theorem bodyExpr_named (x : Export) (path : Path) (name : String) (tag : Option String)
    (fields : List (Field String Shape)) : x.bodyExpr path name (.named tag fields) =
      (x.memberExprs path fields).map fun members =>
        objectType ((tag.map fun t => tagMember t name).toList ++ members) := by
  rw [bodyExpr]
  cases x.memberExprs path fields with
  | error e => rfl
  | ok members =>
    show (match (tag.map fun t => tagMember t name).toList ++ members with
      | [] => .ok .emptyObject
      | members => .ok (.object members)) =
        Except.ok (objectType ((tag.map fun t => tagMember t name).toList ++ members))
    cases (tag.map fun t => tagMember t name).toList ++ members <;> rfl

theorem variantExpr_named (x : Export) (label : String) (path : Path) (key : String) (inner : Option String)
    (fields : List (Field String Shape)) :
    x.variantExpr (.internal (.string label)) path key (.named inner fields) =
      (x.memberExprs path fields).map fun members =>
        .grouped (.object (tagMember label key :: ((inner.map fun t => tagMember t key).toList ++ members))) := by
  rw [variantExpr]
  rfl

/-- The object with its tags. -/
def objectExpr (x : Export) (path : Path) (o : NamedObject) : Except Error TypeExpr :=
  match o.representation? with
  | none => x.bodyExpr path o.name o.body
  | some r => x.variantExpr r path o.name o.body

end TypeScript

/-! ## Zod -/

section Zod
open Zod Zod.Schema

/-- An object schema with the given members. -/
def strictObject : List (Zod.Member Schema) → Schema
  | [] => .emptyObject
  | members => .object members

theorem bodySchema_named (x : Export) (left : Nat) (path : Path) (name : String) (tag : Option String)
    (fields : List (Field String Shape)) : x.bodySchema left path name (.named tag fields) =
      (x.memberSchemas left path fields).map fun members =>
        strictObject ((tag.map fun t => schemaTag t name).toList ++ members) := by
  rw [bodySchema]
  cases x.memberSchemas left path fields with
  | error e => rfl
  | ok members =>
    show (match (tag.map fun t => schemaTag t name).toList ++ members with
      | [] => .ok .emptyObject
      | members => .ok (.object members)) =
        Except.ok (strictObject ((tag.map fun t => schemaTag t name).toList ++ members))
    cases (tag.map fun t => schemaTag t name).toList ++ members <;> rfl

theorem variantSchema_named (x : Export) (left : Nat) (label : String) (path : Path) (key : String)
    (inner : Option String) (fields : List (Field String Shape)) :
    x.variantSchema left (.internal (.string label)) path key (.named inner fields) =
      (x.memberSchemas left path fields).map fun members =>
        .object (schemaTag label key :: ((inner.map fun t => schemaTag t key).toList ++ members)) := by
  rw [variantSchema]
  rfl

/-- The object with its tags. -/
def objectSchema (x : Export) (left : Nat) (path : Path) (o : NamedObject) : Except Error Schema :=
  match o.representation? with
  | none => x.bodySchema left path o.name o.body
  | some r => x.variantSchema left r path o.name o.body

end Zod

end Export

namespace JsonSchema.Context

/-- The object with its tags. -/
def objectSchemaOf (c : Context) (stack : List TypeKey) (path : Path) (o : NamedObject) : Except Error Schema :=
  match o.representation? with
  | none => c.bodySchema stack path o.name o.body
  | some r => c.variantSchema stack r path o.name o.body

end JsonSchema.Context

end ShapeExport
