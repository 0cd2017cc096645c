import ShapeExport.Proofs.Outcome
import ShapeExport.Proofs.Validation.Key
import ShapeExport.Representation

/-!
# Shapes that are unions

What is written for a map key comes down to constants and to shapes without parts, if neither a tag nor null
nor a tuple stands in between.

* `Scope.IsUnion` : the shapes that are unions of constants and of certain leaves;
* `Scope.IsUnion.enum_of_isKey` : when an enum that is a map key is such a union.
-/

namespace ShapeExport

namespace Tagging

/-- A unit is written as a constant. -/
def writesConstants : Tagging → Bool
  | external | strings _ => true
  | internal _ | adjacent .. | untagged => false

end Tagging

theorem Body.exists_of_isNewtype {σ : Type} {b : Body σ} (h : b.isNewtype) :
    ∃ f, f.skip = false ∧ b = .positional [f] := by
  unfold Body.isNewtype at h
  split at h
  · next f => exact ⟨f, by simpa using h, rfl⟩
  · cases h

theorem Body.kept_newtype {f : Field (Option String) Shape} (h : f.skip = false) :
    (Body.positional [f]).kept = [f.ty] := by
  simp [Body.kept, Field.kept, h]

namespace Scope

variable {scope : Scope} {Leaf : Shape → Prop} {seen : List TypeKey} {path : Path} {name : String}
  {vs : List (Variant Shape)} {tagging : Option Tagging} {r : Representation}

/-- The shape is a union of constants and leaves. A record is looked up; an enum is made of constants, or it
is untagged and each variant is the newtype of such a union. -/
inductive IsUnion (scope : Scope) (Leaf : Shape → Prop) : Shape → Prop
  | leaf {s : Shape} : Leaf s → IsUnion scope Leaf s
  | reference {id : TypeId} {arguments : List Shape} {r : Record} : scope.types.resolve id.key = some r →
      IsUnion scope Leaf r.shape → IsUnion scope Leaf (.reference id arguments)
  | never {name : String} {vs : List (Variant Shape)} {tagging : Option Tagging} :
      Variant.kept vs = [] → IsUnion scope Leaf (.enum name vs tagging)
  | constants {name : String} {vs : List (Variant Shape)} {tagging : Option Tagging} :
      (scope.overrides.effective name tagging).writesConstants →
      (∀ v ∈ Variant.kept vs, v.body.isUnit) → IsUnion scope Leaf (.enum name vs tagging)
  | payloads {name : String} {vs : List (Variant Shape)} {tagging : Option Tagging} :
      (scope.overrides.effective name tagging).isUntagged →
      (∀ v ∈ Variant.kept vs, v.body.isNewtype) →
      (∀ v ∈ Variant.kept vs, ∀ t ∈ v.body.kept, IsUnion scope Leaf t) →
      IsUnion scope Leaf (.enum name vs tagging)

/-! ## Representations -/

theorem writesConstants_of_represent (h : scope.represent path name vs tagging = .ok r)
    (hc : (scope.overrides.effective name tagging).writesConstants) :
    r = .external ∨ ∃ rule, r = .strings rule := by
  unfold represent at h
  cases he : scope.overrides.effective name tagging with
  | external =>
    rw [he] at h
    cases h
    exact Or.inl rfl
  | strings casing =>
    rw [he] at h
    dsimp only at h
    split at h
    · obtain ⟨rule, -, rfl⟩ := map_eq_ok.1 h
      exact Or.inr ⟨rule, rfl⟩
    · cases h
  | internal | adjacent | untagged =>
    rw [he] at hc
    cases hc

theorem represent_of_isUntagged (h : scope.represent path name vs tagging = .ok r)
    (hu : (scope.overrides.effective name tagging).isUntagged) : r = .untagged := by
  unfold represent at h
  cases he : scope.overrides.effective name tagging with
  | untagged =>
    rw [he] at h
    cases h
    rfl
  | external | strings | internal | adjacent =>
    rw [he] at hu
    cases hu

/-- What neither is untagged nor writes constants has a tag. -/
theorem tagged_of_represent (h : scope.represent path name vs tagging = .ok r)
    (hu : (scope.overrides.effective name tagging).isUntagged = false)
    (hc : (scope.overrides.effective name tagging).writesConstants = false) :
    (∃ tag, r = .internal tag) ∨ ∃ tag content, r = .adjacent tag content := by
  unfold represent at h
  cases he : scope.overrides.effective name tagging with
  | external | strings =>
    rw [he] at hc
    cases hc
  | untagged =>
    rw [he] at hu
    cases hu
  | internal tag =>
    rw [he] at h
    obtain ⟨_, -, h⟩ := bind_eq_ok.1 h
    cases h
    exact Or.inl ⟨tag, rfl⟩
  | adjacent tag content =>
    rw [he] at h
    dsimp only at h
    split at h
    · cases h
    · cases h
      exact Or.inr ⟨tag, content, rfl⟩

/-! ## Enums that are keys -/

theorem IsKeyBody.isPositional_or {untagged : Bool} {b : Body Shape}
    (h : scope.IsKeyBody true seen untagged b) : b.isPositional ∨ b.isUnit := by
  rcases h with h | ⟨-, h, -⟩
  · exact Or.inr h
  · exact Or.inl h

/-- The check admits units of any form, and untagged payloads. So a key is a union unless it writes a unit
with a tag or as null, or a payload as a tuple. -/
theorem IsUnion.enum_of_isKey (hk : scope.IsKey true seen (.enum name vs tagging))
    (constants : ∀ v ∈ Variant.kept vs, v.body = .unit →
      (scope.overrides.effective name tagging).isUntagged = false →
      (scope.overrides.effective name tagging).writesConstants)
    (newtypes : (scope.overrides.effective name tagging).isUntagged →
      ∀ v ∈ Variant.kept vs, v.body.isNewtype)
    (payloads : (scope.overrides.effective name tagging).isUntagged → ∀ v ∈ Variant.kept vs,
      ∀ t ∈ v.body.kept, scope.IsKey true seen t → scope.IsUnion Leaf t) :
    scope.IsUnion Leaf (.enum name vs tagging) := by
  have bodies := isKey_enum.1 hk
  cases hu : (scope.overrides.effective name tagging).isUntagged with
  | true =>
    refine .payloads hu (newtypes hu) fun v hv t ht => payloads hu v hv t ht ?_
    rcases bodies v hv with hb | ⟨-, -, -, hb⟩
    · obtain ⟨f, -, e⟩ := Body.exists_of_isNewtype (newtypes hu v hv)
      rw [e] at hb
      cases hb
    · exact hb t ht
  | false =>
    have units : ∀ v ∈ Variant.kept vs, v.body.isUnit := by
      intro v hv
      rcases bodies v hv with hb | ⟨hb, -⟩
      · exact hb
      · rw [hu] at hb
        cases hb
    by_cases hne : Variant.kept vs = []
    · exact .never hne
    obtain ⟨v, hv⟩ := List.exists_mem_of_ne_nil _ hne
    have unit : v.body = .unit := by
      have := units v hv
      cases hbody : v.body <;> simp_all [Body.isUnit]
    exact .constants (constants v hv unit hu) units

end Scope

end ShapeExport
