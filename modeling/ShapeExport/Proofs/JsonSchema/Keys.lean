import Mathlib
import ShapeExport.JsonSchema.Render
import ShapeExport.Proofs.Validation.Failures
import ShapeExport.Proofs.Validation.Key

/-!
# Map keys of JSON schemas

Whether a shape is a map key is decided twice: by the validator, and by the renderer of schemas when it
writes the constraint on the keys. Both walk along nullables and references.

* `Collection.Resolves` : the references in a shape lead to records;
* `Scope.IsLooseKey` : the keys that only the validator takes;
* `Scope.exists_isMapKey` : where all references lead to records, the validator has an answer;
* `Context.refusesKey_iff` : the renderer refuses what is no key, and the loose keys;
* `Context.key_agreement_iff` : so the two agree except for loose keys.
-/

namespace ShapeExport

/-- The references at kept positions lead to records. -/
def Collection.Resolves (c : Collection) (s : Shape) : Prop :=
  ∀ id arguments, s.Holds (.reference id arguments) → ∃ r, c.resolve id.key = some r

namespace Collection

variable {c : Collection} {s : Shape}

theorem Resolves.finds (h : c.Resolves s) (E : Error → Prop) : c.Finds E s := by
  intro id arguments hold missing
  obtain ⟨r, hr⟩ := h id arguments hold
  rw [hr] at missing
  cases missing

theorem Resolves.exists_of_finds {id : TypeId} {arguments : List Shape}
    (h : c.Finds (¬ ·.IsMissing) (.reference id arguments)) : ∃ r, c.resolve id.key = some r := by
  cases hr : c.resolve id.key with
  | some r => exact ⟨r, rfl⟩
  | none => exact absurd trivial (h id arguments (.here _) hr [])

theorem covers_of_resolves (h : ∀ r ∈ c.members, c.Resolves r.shape) : c.Covers (¬ ·.IsMissing) where
  other _ := Error.IsLocal.not_isMissing
  records r hr := (h r hr).finds _

end Collection

namespace Scope

variable {scope : Scope} {free : Bool} {seen : List TypeKey}

/-! ## The answer of the validator -/

/-- Where all references lead to records, the check ends with an answer. -/
theorem exists_isMapKey (records : ∀ r ∈ scope.types.members, scope.types.Resolves r.shape) (free : Bool)
    (seen : List TypeKey) {s : Shape} (resolves : scope.types.Resolves s) :
    ∃ answer, scope.isMapKey free seen s = .ok answer := by
  have fine : FailsIn (fun _ => False) (scope.isMapKey free seen s) :=
    failsIn_isMapKey (fun r hr => (records r hr).finds _) free seen (resolves.finds _)
  cases ha : scope.isMapKey free seen s with
  | ok answer => exact ⟨answer, rfl⟩
  | error e => exact (fine e ha).elim

/-! ## Keys that only the validator takes -/

/-- The validator takes the shape for a key, but what it comes to is a type parameter, or an enum with
payloads. Such an enum is untagged, since otherwise it would be no key. -/
inductive IsLooseKey (scope : Scope) : List TypeKey → Shape → Prop
  | parameter {seen : List TypeKey} {name : String} : IsLooseKey scope seen (.placeholder name)
  | payloads {seen : List TypeKey} {name : String} {vs : List (Variant Shape)} {tagging : Option Tagging} :
      Variant.allUnits vs = false → scope.IsKey true seen (.enum name vs tagging) →
      IsLooseKey scope seen (.enum name vs tagging)
  | nullable {seen : List TypeKey} {inner : Shape} : IsLooseKey scope seen inner →
      IsLooseKey scope seen (.nullable inner)
  | reference {seen : List TypeKey} {id : TypeId} {arguments : List Shape} {r : Record} :
      id.key ∉ seen → scope.types.resolve id.key = some r →
      IsLooseKey scope (id.key :: seen) (r.expand arguments) →
      IsLooseKey scope seen (.reference id arguments)

theorem IsLooseKey.isKey {s : Shape} (h : scope.IsLooseKey seen s) : scope.IsKey true seen s := by
  induction h with
  | parameter => exact isKey_placeholder.2 rfl
  | payloads _ hk => exact hk
  | nullable _ ih => exact isKey_nullable.2 ih
  | reference hs hr _ ih => exact (isKey_reference_of_resolve hr).2 ⟨hs, ih⟩

theorem isLooseKey_nullable {inner : Shape} : scope.IsLooseKey seen (.nullable inner) ↔ scope.IsLooseKey seen inner := by
  refine ⟨fun h => ?_, .nullable⟩
  cases h with
  | nullable h => exact h

theorem isLooseKey_reference {id : TypeId} {arguments : List Shape} {r : Record} (hs : id.key ∉ seen)
    (hr : scope.types.resolve id.key = some r) : scope.IsLooseKey seen (.reference id arguments) ↔
      scope.IsLooseKey (id.key :: seen) (r.expand arguments) := by
  refine ⟨fun h => ?_, .reference hs hr⟩
  cases h with
  | reference _ hq h =>
    obtain rfl := Option.some.inj (hr.symm.trans hq)
    exact h

/-- An enum of units is a key under any representation. -/
theorem isKey_of_allUnits {name : String} {vs : List (Variant Shape)} {tagging : Option Tagging}
    (h : Variant.allUnits vs) : scope.IsKey free seen (.enum name vs tagging) :=
  isKey_enum.2 fun v hv => Or.inl (List.all_eq_true.1 h v hv)

/-- An enum of units is not refused for its shape. -/
theorem represent_ne_of_allUnits {path p : Path} {name : String} {vs : List (Variant Shape)}
    {tagging : Option Tagging} (h : Variant.allUnits vs) (fault : ShapeFault) :
    scope.represent path name vs tagging ≠ .error (.unsupportedShape p fault) := by
  have units : ∀ path, scope.checkVariants [] path vs = .ok () := by
    intro path
    refine checkVariants_eq_ok.2 fun v hv => ?_
    have unit : v.body.isUnit := List.all_eq_true.1 h v hv
    cases hb : v.body with
    | unit => simp [Body.payloads]
    | positional | named => simp [hb, Body.isUnit] at unit
  intro he
  unfold represent at he
  dsimp only at he
  split at he
  · cases he
  · cases he
  · rw [checkTagged, units] at he
    cases he
  · split at he
    · cases he
    · cases he
  · next casing _ =>
    rw [if_pos h] at he
    unfold Casing.ofJson at he
    split at he
    · cases he
    · split at he
      · cases he
      · cases he

end Scope

/-! ## The answer of the renderer -/

namespace JsonSchema.Context
open Scope

variable {c : Context} {seen : List TypeKey} {path : Path}

/-- The renderer refuses the shape as a map key. -/
def RefusesKey (c : Context) (path : Path) (seen : List TypeKey) (s : Shape) : Prop :=
  ∃ p fault, c.propertyNames? path seen s = .error (.unsupportedShape p fault)

theorem refusesKey_of_unusable {s : Shape} (h : c.propertyNames? path seen s = unusableKey path) :
    c.RefusesKey path seen s := ⟨path, .unusableMapKey, h⟩

theorem refusesKey_primitive {kind : Primitive} :
    c.RefusesKey path seen (.primitive kind) ↔ ¬ (kind.isNumber || kind.isStringLike) := by
  unfold RefusesKey
  rw [propertyNames?]
  cases kind <;> simp [unusableKey, Primitive.isStringLike, Primitive.isNumber, Primitive.isInteger,
    Primitive.isBigInt, Primitive.isFloat]

theorem refusesKey_literal {value : Literal} :
    c.RefusesKey path seen (.literal value) ↔ ¬ value.isKey := by
  unfold RefusesKey
  rw [propertyNames?]
  cases value <;> simp [unusableKey, Literal.isStringLike, Literal.isNumber, Literal.isKey]

theorem refusesKey_enum {name : String} {vs : List (Variant Shape)} {tagging : Option Tagging} :
    c.RefusesKey path seen (.enum name vs tagging) ↔ Variant.allUnits vs = false := by
  unfold RefusesKey
  rw [propertyNames?]
  split
  · next h =>
    constructor
    · rintro ⟨p, fault, he⟩
      rcases bind_eq_error.1 he with he | ⟨_, -, he⟩
      · exact absurd he (represent_ne_of_allUnits h fault)
      · cases he
    · intro hn
      rw [h] at hn
      cases hn
  · next h => exact ⟨fun _ => by simpa using h, fun _ => ⟨path, _, rfl⟩⟩

theorem refusesKey_nullable {inner : Shape} :
    c.RefusesKey path seen (.nullable inner) ↔ c.RefusesKey path seen inner := by
  unfold RefusesKey
  rw [propertyNames?]

theorem refusesKey_reference {id : TypeId} {arguments : List Shape} {r : Record} (hs : id.key ∉ seen)
    (hr : c.types.resolve id.key = some r) : c.RefusesKey path seen (.reference id arguments) ↔
      c.RefusesKey path (id.key :: seen) (r.expand arguments) := by
  unfold RefusesKey
  rw [propertyNames?, dif_neg hs]
  split
  · next hn =>
    rw [hr] at hn
    cases hn
  · next q hq =>
    obtain rfl := Option.some.inj (hr.symm.trans hq)
    exact Iff.rfl

/-- The renderer refuses what is no key, and the loose keys. -/
theorem refusesKey_iff (covers : c.types.Covers (¬ ·.IsMissing)) (path : Path) (seen : List TypeKey) {s : Shape}
    (found : c.types.Finds (¬ ·.IsMissing) s) :
    c.RefusesKey path seen s ↔ ¬ c.scope.IsKey true seen s ∨ c.scope.IsLooseKey seen s := by
  refine Collection.Finds.followInduction (motive := fun seen s => c.RefusesKey path seen s ↔
    ¬ c.scope.IsKey true seen s ∨ c.scope.IsLooseKey seen s) covers.records (fun seen s found ih it => ?_) seen found
  -- Only placeholders, enums with payloads and what leads to them are loose.
  have tight (h : ¬ c.scope.IsLooseKey seen s) :
      ¬ c.scope.IsKey true seen s ∨ c.scope.IsLooseKey seen s ↔ ¬ c.scope.IsKey true seen s := or_iff_left h
  cases s with
  | primitive kind => rw [tight (fun h => by cases h), refusesKey_primitive, isKey_primitive]
  | literal value => rw [tight (fun h => by cases h), refusesKey_literal, isKey_literal]
  | foreign value =>
    rw [tight (fun h => by cases h)]
    unfold RefusesKey
    rw [propertyNames?]
    simp [isKey_foreign]
  | placeholder name =>
    have refused : c.RefusesKey path seen (.placeholder name) := refusesKey_of_unusable (by rw [propertyNames?])
    exact iff_of_true refused (Or.inr .parameter)
  | list =>
    exact iff_of_true (refusesKey_of_unusable (by rw [propertyNames?])) (Or.inl not_isKey_list)
  | map =>
    exact iff_of_true (refusesKey_of_unusable (by rw [propertyNames?])) (Or.inl not_isKey_map)
  | tuple =>
    exact iff_of_true (refusesKey_of_unusable (by rw [propertyNames?])) (Or.inl not_isKey_tuple)
  | struct =>
    exact iff_of_true (refusesKey_of_unusable (by rw [propertyNames?])) (Or.inl not_isKey_struct)
  | enum name vs tagging =>
    rw [refusesKey_enum]
    constructor
    · intro h
      by_cases hk : c.scope.IsKey true seen (.enum name vs tagging)
      · exact Or.inr (.payloads h hk)
      · exact Or.inl hk
    · rintro (hk | hl)
      · exact Bool.eq_false_iff.2 fun h => hk (isKey_of_allUnits h)
      · cases hl with
        | payloads h _ => exact h
  | nullable inner =>
    rw [refusesKey_nullable, ih inner List.mem_cons_self, isKey_nullable, isLooseKey_nullable]
  | reference id arguments =>
    obtain ⟨r, hr⟩ := Collection.Resolves.exists_of_finds found
    by_cases hs : id.key ∈ seen
    · have refused : c.propertyNames? path seen (.reference id arguments) = unusableKey path := by
        rw [propertyNames?, dif_pos hs]
      exact iff_of_true (refusesKey_of_unusable refused) (Or.inl fun h => (isKey_reference.1 h).1 hs)
    · rw [refusesKey_reference hs hr, it id arguments r rfl hs hr, isKey_reference_of_resolve hr, and_iff_right hs,
        isLooseKey_reference hs hr]

/-- **Agreement on keys.** Where all references lead to records, the validator answers whether a shape is a map
key, and the renderer refuses exactly the shapes with the answer no, unless the shape is a loose key. -/
theorem key_agreement_iff {key : Shape} (records : ∀ r ∈ c.types.members, c.types.Resolves r.shape)
    (resolves : c.types.Resolves key) (path : Path) :
    (∃ answer, c.scope.isMapKey true [] key = .ok answer) ∧
      (((∃ p fault, c.propertyNames? path [] key = .error (.unsupportedShape p fault)) ↔
          c.scope.isMapKey true [] key = .ok false) ↔ ¬ c.scope.IsLooseKey [] key) := by
  obtain ⟨answer, ha⟩ : ∃ answer, c.scope.isMapKey true [] key = .ok answer :=
    exists_isMapKey records true [] resolves
  refine ⟨⟨answer, ha⟩, ?_⟩
  have no : c.scope.isMapKey true [] key = .ok false ↔ ¬ c.scope.IsKey true [] key := by
    unfold IsKey
    rw [ha]
    cases answer <;> simp
  have refused : c.RefusesKey path [] key ↔ _ :=
    refusesKey_iff (Collection.covers_of_resolves records) path [] (resolves.finds _)
  unfold RefusesKey at refused
  rw [refused, no]
  constructor
  · exact fun agree loose => agree.1 (Or.inr loose) loose.isKey
  · exact fun tight => or_iff_left tight

/-! ### Ids of users

`UserId` is a small number. A user may also be named instead. -/

namespace Users

def userId : Record where
  id := ⟨⟨.static, 1⟩, "m.UserId"⟩
  name := "UserId"
  shape := .primitive .u8

def site : Context := { toExport := ⟨{ language := .jsonschema }, .ofRecords [userId]⟩ }

/-- A user by id, if there is one. -/
def byId : Shape := .nullable (.reference userId.id [])

def users : List (Variant Shape) :=
  [{ name := "Id", body := .positional [{ name := none, ty := .primitive .u8 }] },
    { name := "Name", body := .positional [{ name := none, ty := .primitive .string }] }]

/-- A user by id or by name. -/
def byIdOrName : Shape := .enum "User" users (some .untagged)

theorem resolves_scalar {kind : Primitive} : site.types.Resolves (.primitive kind) := by
  intro id arguments hold
  cases hold with
  | child hc => cases hc

theorem resolves_records : ∀ r ∈ site.types.members, site.types.Resolves r.shape := by
  intro r hr
  have member : r ∈ [userId] := hr
  rw [List.mem_singleton.1 member]
  exact resolves_scalar

theorem resolves_byId : site.types.Resolves byId := by
  intro id arguments hold
  cases hold with
  | child hc hold =>
    obtain rfl := List.mem_singleton.1 hc
    cases hold with
    | here => exact ⟨userId, rfl⟩
    | child hc => cases hc

/-- An id is a key for both, followed through a nullable and a reference. -/
theorem key_agreement_byId : ¬ site.scope.IsLooseKey [] byId ∧
    site.scope.isMapKey true [] byId = .ok true ∧
    ∀ path p fault, site.propertyNames? path [] byId ≠ .error (.unsupportedShape p fault) := by
  have tight : ¬ site.scope.IsLooseKey [] byId := by
    intro h
    cases h with
    | nullable h =>
      cases h with
      | reference _ hr h =>
        cases hr
        rw [Record.expand_of_not_generic rfl] at h
        cases h
  have yes : site.scope.isMapKey true [] byId = .ok true := by cbv
  refine ⟨tight, yes, fun path p fault refused => ?_⟩
  have agree := (key_agreement_iff resolves_records resolves_byId path).2.2 tight
  have no := agree.1 ⟨p, fault, refused⟩
  rw [yes] at no
  cases no

/-- An id or a name is a key for the validator, and its representation is resolved. The renderer refuses it. -/
theorem byIdOrName_refused : (∀ r ∈ site.types.members, site.types.Resolves r.shape) ∧
    site.types.Resolves byIdOrName ∧
    site.scope.represent ["T"] "User" users (some .untagged) = .ok .untagged ∧
    site.scope.isMapKey true [] byIdOrName = .ok true ∧
    site.propertyNames? ["T"] [] byIdOrName = .error (.unsupportedShape ["T"] .unusableMapKey) := by
  refine ⟨resolves_records, ?_, rfl, by cbv, by cbv⟩
  intro id arguments hold
  cases hold with
  | child hc hold =>
    have kept : _ ∈ [Shape.primitive .u8, .primitive .string] := hc
    rcases List.mem_pair.1 kept with rfl | rfl
    · exact resolves_scalar id arguments hold
    · exact resolves_scalar id arguments hold

end Users

end JsonSchema.Context

end ShapeExport
