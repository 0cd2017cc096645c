import ShapeExport.Proofs.TypeScript.Agreement
import ShapeExport.Proofs.Zod.Lists

/-!
# Zod schemas of exports that agree

* `Collection.reaches_congr` : reachability depends on the records of ids only;
* `Export.Agrees.sameSchema` : the schema of a shape is the same, also where more expansions are left, unless it is
  given up for want of them;
* `Export.Agrees.schemaDeclaration` : the declaration of a record is the same.
-/

namespace ShapeExport

theorem Collection.reaches_congr {c d : Collection} (h : ∀ k, c.resolve k = d.resolve k) (goal : TypeKey)
    (expanded todo : List TypeKey) : c.reaches goal expanded todo = d.reaches goal expanded todo := by
  fun_induction Collection.reaches c goal expanded todo with
  | case1 expanded => rw [reaches]
  | case2 expanded rest => rw [reaches, if_pos rfl]
  | case3 expanded k rest hk hm ih => rw [reaches, if_neg hk, dif_pos hm, ih]
  | case4 expanded k rest hk hm hr ih =>
    rw [reaches, if_neg hk, dif_neg hm]
    rw [h] at hr
    split
    · exact ih
    · next r hd =>
      rw [hr] at hd
      cases hd
  | case5 expanded k rest hk hm r hr ih =>
    rw [reaches, if_neg hk, dif_neg hm]
    rw [h] at hr
    split
    · next hd =>
      rw [hr] at hd
      cases hd
    · next q hd =>
      rw [hr] at hd
      cases hd
      exact ih

namespace Export
open Zod Zod.Schema

/-! ## References as map keys -/

section References

variable {x : Export} {left : Nat} {seen : List TypeKey} {path : Path} {id : TypeId} {arguments : List Shape}

theorem keySchema_again (h : id.key ∈ seen) : x.keySchema left seen path (.reference id arguments) =
    x.schemaExpr left path (.reference id arguments) := by
  cases left <;> rw [keySchema, if_pos h]

theorem keySchema_zero (h : id.key ∉ seen) :
    x.keySchema 0 seen path (.reference id arguments) = .error .tooDeep := by
  rw [keySchema, if_neg h]

theorem keySchema_succ (h : id.key ∉ seen) : x.keySchema (left + 1) seen path (.reference id arguments) = (do
    let record ← x.target path id
    x.keySchema left (id.key :: seen) path (record.expand arguments)) := by
  rw [keySchema, if_neg h]

end References

variable {x y : Export} {E : Error → Prop} {left more : Nat}

/-- Wherever the shape stands, it has the same schema for both, unless the first one fails with an error in `E`. -/
def SameSchema (x y : Export) (E : Error → Prop) (left more : Nat) (s : Shape) : Prop :=
  ∀ path, SameUnless E (x.schemaExpr left path s) (y.schemaExpr more path s)

/-- Wherever the shape stands as a map key, it has the same schema for both, unless the first one fails with an error
in `E`. -/
def SameKeySchema (x y : Export) (E : Error → Prop) (left more : Nat) (s : Shape) : Prop :=
  ∀ seen path, SameUnless E (x.keySchema left seen path s) (y.keySchema more seen path s)

/-! ## Parts of a shape -/

theorem sameArgumentSchemas {ss : List Shape} (hs : ∀ c ∈ ss, x.SameSchema y E left more c) (path : Path) :
    SameUnless E (x.argumentSchemas left path ss) (y.argumentSchemas more path ss) := by
  rw [argumentSchemas_eq_mapM, argumentSchemas_eq_mapM]
  exact sameUnless_mapM fun c hc => hs c hc path

theorem sameElementSchemas {ss : List Shape} (hs : ∀ c ∈ ss, x.SameSchema y E left more c) (path : Path) (i : Nat) :
    SameUnless E (x.elementSchemas left path i ss) (y.elementSchemas more path i ss) := by
  rw [elementSchemas_eq_mapM, elementSchemas_eq_mapM]
  exact sameUnless_mapM fun p hp => hs p.1 (List.fst_mem_of_mem_zipIdx hp) _

theorem samePositionalSchemas {fs : List (Field (Option String) Shape)}
    (hs : ∀ f ∈ fs, x.SameSchema y E left more f.ty) (path : Path) (i : Nat) :
    SameUnless E (x.positionalSchemas left path i fs) (y.positionalSchemas more path i fs) := by
  rw [positionalSchemas_eq, positionalSchemas_eq]
  exact sameElementSchemas (List.forall_mem_map.2 fun f hf => hs f (Field.mem_kept.1 hf).1) path i

theorem sameTaggedSchema {fs : List (Field (Option String) Shape)}
    (hs : ∀ f ∈ fs, x.SameSchema y E left more f.ty) (tag : Zod.Member Schema) (path : Path) :
    SameUnless E (x.taggedSchema left tag path fs) (y.taggedSchema more tag path fs) := by
  rw [taggedSchema_eq, taggedSchema_eq]
  split
  · exact sameUnless_rfl _
  · next s _ hk =>
    obtain ⟨f, hf, rfl⟩ := List.mem_map.1 (hk ▸ List.mem_cons_self : s ∈ (Field.kept fs).map (·.ty))
    exact (hs f (Field.mem_kept.1 hf).1 path).before _

namespace SameOptions

variable (h : x.SameOptions y)
include h

theorem memberSchemas {fs : List (Field String Shape)} (hs : ∀ f ∈ fs, x.SameSchema y E left more f.ty)
    (path : Path) : SameUnless E (x.memberSchemas left path fs) (y.memberSchemas more path fs) := by
  rw [memberSchemas_eq_mapM, memberSchemas_eq_mapM]
  refine sameUnless_mapM fun f hf => ?_
  rw [memberSchema, memberSchema, h.isOptional]
  exact (hs f (Field.mem_kept.1 hf).1 _).before _

theorem bodySchema {b : Body Shape} (hs : ∀ c ∈ b.types, x.SameSchema y E left more c) (path : Path)
    (name : String) : SameUnless E (x.bodySchema left path name b) (y.bodySchema more path name b) := by
  cases b with
  | unit =>
    rw [Export.bodySchema, Export.bodySchema]
    exact sameUnless_rfl _
  | positional fields =>
    rw [Body.types, List.forall_mem_map] at hs
    unfold Export.bodySchema
    split
    · next f =>
      split
      · exact sameUnless_rfl _
      · exact hs f (List.mem_singleton_self f) path
    · exact (samePositionalSchemas hs path 0).before _
  | named tag fields =>
    rw [Body.types, List.forall_mem_map] at hs
    rw [Export.bodySchema, Export.bodySchema]
    exact (h.memberSchemas hs path).before _

theorem variantSchema {b : Body Shape} (hs : ∀ c ∈ b.types, x.SameSchema y E left more c) (r : Representation)
    (path : Path) (key : String) :
    SameUnless E (x.variantSchema left r path key b) (y.variantSchema more r path key b) := by
  have body := h.bodySchema hs path key
  cases r with
  | strings =>
    rw [Export.variantSchema, Export.variantSchema]
    exact sameUnless_rfl _
  | untagged =>
    rw [Export.variantSchema, Export.variantSchema]
    exact body
  | external =>
    rw [Export.variantSchema, Export.variantSchema]
    split
    · exact sameUnless_rfl _
    · split
      · exact sameUnless_rfl _
      · exact body.before _
  | internal tag =>
    cases b with
    | unit =>
      rw [Export.variantSchema, Export.variantSchema]
      exact sameUnless_rfl _
    | positional fields =>
      rw [Body.types, List.forall_mem_map] at hs
      rw [Export.variantSchema, Export.variantSchema]
      exact (sameUnless_rfl _).bind fun _ => sameTaggedSchema hs _ path
    | named inner fields =>
      rw [Body.types, List.forall_mem_map] at hs
      rw [Export.variantSchema, Export.variantSchema]
      exact (sameUnless_rfl _).bind fun _ => (h.memberSchemas hs path).before _
  | adjacent tag content =>
    rw [Export.variantSchema, Export.variantSchema]
    refine (sameUnless_rfl _).bind fun _ => ?_
    split
    · exact sameUnless_rfl _
    · exact body.before _

theorem variantSchemas {vs : List (Variant Shape)}
    (hs : ∀ v ∈ vs, ∀ c ∈ v.body.types, x.SameSchema y E left more c) (r : Representation) (path : Path) :
    SameUnless E (x.variantSchemas left r path vs) (y.variantSchemas more r path vs) := by
  rw [variantSchemas_eq_mapM, variantSchemas_eq_mapM]
  exact sameUnless_mapM fun v hv => h.variantSchema (hs v (Variant.mem_kept.1 hv).1) r _ _

theorem primitiveSchema (path : Path) (kind : Primitive) :
    x.primitiveSchema path kind = y.primitiveSchema path kind := by
  unfold Export.primitiveSchema
  rw [h.bigIntAt]

end SameOptions

/-! ## Shapes -/

namespace Agrees

variable (h : x.Agrees y)
include h

/-- A key is followed into records only at the cost of an expansion, and otherwise stands for one of
its parts. So the induction is over the expansions that are left, and within over the shape. -/
theorem schemaExpr_step (zero : left = 0 → more = 0 ∨ E .tooDeep)
    (hk : ∀ m, left = m + 1 → ∃ n, more = n + 1 ∧ ∀ s, x.SameKeySchema y E m n s) (s : Shape) :
    x.SameSchema y E left more s ∧ x.SameKeySchema y E left more s := by
  induction s using Shape.childInduction with
  | step s ih =>
    have same : x.SameSchema y E left more s := by
      intro path
      cases s with
      | primitive kind =>
        rw [Export.schemaExpr, Export.schemaExpr, h.primitiveSchema path kind]
        exact sameUnless_rfl _
      | literal | placeholder =>
        rw [Export.schemaExpr, Export.schemaExpr]
        exact sameUnless_rfl _
      | foreign value =>
        cases value <;> rw [Export.schemaExpr, Export.schemaExpr] <;> exact sameUnless_rfl _
      | list element | nullable element =>
        rw [Export.schemaExpr, Export.schemaExpr]
        exact ((ih element (List.mem_singleton_self _)).1 path).before _
      | map key value =>
        have keys := (ih key List.mem_cons_self).2 [] path
        have values := (ih value (List.mem_cons_of_mem _ List.mem_cons_self)).1 path
        rw [Export.schemaExpr, Export.schemaExpr]
        exact keys.bind fun _ => values.before _
      | tuple elements =>
        cases elements with
        | nil =>
          rw [Export.schemaExpr, Export.schemaExpr]
          exact sameUnless_rfl _
        | cons e es =>
          rw [Export.schemaExpr, Export.schemaExpr]
          · exact (sameElementSchemas (fun c hc => (ih c hc).1) path 0).before _
          · intro he
            cases he
          · intro he
            cases he
      | struct name body =>
        rw [Export.schemaExpr, Export.schemaExpr]
        exact h.bodySchema (fun c hc => (ih c hc).1) _ _
      | enum name vs tagging =>
        have hs : ∀ v ∈ vs, ∀ c ∈ v.body.types, x.SameSchema y E left more c :=
          fun v hv c hc => (ih c (List.mem_flatMap.2 ⟨v, hv, hc⟩)).1
        rw [Export.schemaExpr, Export.schemaExpr, h.scope.represent]
        split
        · exact sameUnless_rfl _
        · exact (sameUnless_rfl _).bind fun r => (h.variantSchemas hs r _).before _
      | reference id arguments =>
        have arguments := sameArgumentSchemas (fun c hc => (ih c hc).1) path
        rw [Export.schemaExpr, Export.schemaExpr, h.target]
        simp only [h.displayName]
        exact (sameUnless_rfl _).bind fun _ => arguments.before _
    refine ⟨same, ?_⟩
    -- Only a nullable and a record that is not on the way have keys that are not their own schemas.
    intro seen path
    cases s with
    | nullable inner =>
      rw [Export.keySchema, Export.keySchema]
      exact (ih inner (List.mem_singleton_self _)).2 seen path
    | primitive kind =>
      rw [Export.keySchema, Export.keySchema]
      split
      · exact sameUnless_rfl _
      · split
        · exact sameUnless_rfl _
        · exact same path
    | literal =>
      rw [Export.keySchema, Export.keySchema]
      exact sameUnless_rfl _
    | reference id arguments =>
      by_cases hs : id.key ∈ seen
      · rw [keySchema_again hs, keySchema_again hs]
        exact same path
      · cases left with
        | zero =>
          rw [keySchema_zero hs]
          rcases zero rfl with rfl | deep
          · rw [keySchema_zero hs]
            exact sameUnless_rfl _
          · exact sameUnless_error deep _
        | succ m =>
          obtain ⟨n, rfl, expanded⟩ := hk m rfl
          rw [keySchema_succ hs, keySchema_succ hs, h.target]
          exact (sameUnless_rfl _).bind fun _ => expanded _ _ path
    | _ =>
      simp only [Export.keySchema]
      exact same path

/-- Where as many expansions are left, or more while it counts as given up that none is left, the schemas of map keys
are the same. -/
theorem sameKeySchema (le : left ≤ more) (deep : left < more → E .tooDeep) (s : Shape) :
    x.SameKeySchema y E left more s := by
  induction left generalizing more s with
  | zero =>
    refine (h.schemaExpr_step (fun _ => ?_) (fun m hm => ?_) s).2
    · exact more.eq_zero_or_pos.imp_right deep
    · cases hm
  | succ left ih =>
    obtain ⟨more, rfl⟩ := Nat.exists_eq_add_one.2 (Nat.zero_lt_of_lt le)
    refine (h.schemaExpr_step (fun hl => ?_) (fun m hm => ?_) s).2
    · cases hl
    · obtain rfl : left = m := Nat.succ.inj hm
      exact ⟨more, rfl, ih (Nat.le_of_succ_le_succ le) fun hl => deep (Nat.succ_lt_succ hl)⟩

/-- So are the schemas of shapes. -/
theorem sameSchema (le : left ≤ more) (deep : left < more → E .tooDeep) (s : Shape) :
    x.SameSchema y E left more s := by
  refine (h.schemaExpr_step (fun hl => ?_) (fun m hm => ?_) s).1
  · rw [hl] at deep
    exact more.eq_zero_or_pos.imp_right deep
  · subst hm
    obtain ⟨more, rfl⟩ := Nat.exists_eq_add_one.2 (Nat.zero_lt_of_lt le)
    exact ⟨more, rfl, h.sameKeySchema (Nat.le_of_succ_le_succ le) fun hl => deep (Nat.succ_lt_succ hl)⟩

theorem schemaExpr (left : Nat) (path : Path) (s : Shape) :
    x.schemaExpr left path s = y.schemaExpr left path s :=
  (h.sameSchema le_rfl (fun hl => absurd hl (lt_irrefl left)) s path).eq

theorem schemaDeclaration (r : Record) : x.schemaDeclaration r = y.schemaDeclaration r := by
  have reaches : x.types.reachesItself r = y.types.reachesItself r :=
    Collection.reaches_congr h.scope.resolve ..
  unfold Export.schemaDeclaration Export.schema
  simp only [h.schemaExpr, h.typeExpr, h.commentStyle, h.displayName, reaches]

end Agrees

end Export

end ShapeExport
