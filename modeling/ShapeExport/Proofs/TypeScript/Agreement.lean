import ShapeExport.Proofs.Export.Agreement
import ShapeExport.Proofs.TypeScript.Lists

/-!
# TypeScript of exports that agree

* `Export.Agrees.typeExpr` : a shape has the same type, or fails in the same way;
* `Export.Agrees.typeDeclaration` : so does the declaration of a record.
-/

namespace ShapeExport.Export.Agrees
open TypeScript TypeScript.TypeExpr

variable {x y : Export} (h : x.Agrees y)

/-- Wherever the shape stands, it has the same type for both. -/
def SameType (x y : Export) (s : Shape) : Prop := ∀ path, x.typeExpr path s = y.typeExpr path s

theorem argumentExprs {ss : List Shape} (hs : ∀ c ∈ ss, SameType x y c) (path : Path) :
    x.argumentExprs path ss = y.argumentExprs path ss := by
  rw [argumentExprs_eq_mapM, argumentExprs_eq_mapM]
  exact mapM_congr fun c hc => hs c hc path

theorem elementExprs {ss : List Shape} (hs : ∀ c ∈ ss, SameType x y c) (path : Path) (i : Nat) :
    x.elementExprs path i ss = y.elementExprs path i ss := by
  rw [elementExprs_eq_mapM, elementExprs_eq_mapM]
  exact mapM_congr fun p hp => hs p.1 (List.fst_mem_of_mem_zipIdx hp) _

theorem positionalExprs {fs : List (Field (Option String) Shape)} (hs : ∀ f ∈ fs, SameType x y f.ty)
    (path : Path) (i : Nat) : x.positionalExprs path i fs = y.positionalExprs path i fs := by
  rw [positionalExprs_eq, positionalExprs_eq]
  exact elementExprs (List.forall_mem_map.2 fun f hf => hs f (Field.mem_kept.1 hf).1) path i

theorem taggedPayload {fs : List (Field (Option String) Shape)} (hs : ∀ f ∈ fs, SameType x y f.ty)
    (tag : Member TypeExpr) (path : Path) : x.taggedPayload tag path fs = y.taggedPayload tag path fs := by
  rw [taggedPayload_eq, taggedPayload_eq]
  split
  · rfl
  · next s _ hk =>
    obtain ⟨f, hf, rfl⟩ := List.mem_map.1 (hk ▸ List.mem_cons_self : s ∈ (Field.kept fs).map (·.ty))
    rw [hs f (Field.mem_kept.1 hf).1]

include h

theorem memberExprs {fs : List (Field String Shape)} (hs : ∀ f ∈ fs, SameType x y f.ty) (path : Path) :
    x.memberExprs path fs = y.memberExprs path fs := by
  rw [memberExprs_eq_mapM, memberExprs_eq_mapM]
  refine mapM_congr fun f hf => ?_
  rw [memberExpr, memberExpr, hs f (Field.mem_kept.1 hf).1, h.commentStyle, h.isOptional]

theorem bodyExpr {b : Body Shape} (hs : ∀ c ∈ b.types, SameType x y c) (path : Path) (name : String) :
    x.bodyExpr path name b = y.bodyExpr path name b := by
  cases b with
  | unit => rw [Export.bodyExpr, Export.bodyExpr]
  | positional fields =>
    rw [Body.types, List.forall_mem_map] at hs
    unfold Export.bodyExpr
    split
    · next f => rw [hs f (List.mem_singleton_self f)]
    · rw [positionalExprs hs]
  | named tag fields =>
    rw [Body.types, List.forall_mem_map] at hs
    rw [Export.bodyExpr, Export.bodyExpr, h.memberExprs hs]

theorem variantExpr {b : Body Shape} (hs : ∀ c ∈ b.types, SameType x y c) (r : Representation)
    (path : Path) (key : String) : x.variantExpr r path key b = y.variantExpr r path key b := by
  have body := h.bodyExpr hs path key
  cases r with
  | strings => rw [Export.variantExpr, Export.variantExpr]
  | untagged | external | adjacent => rw [Export.variantExpr, Export.variantExpr, body]
  | internal tag =>
    cases b with
    | unit => rw [Export.variantExpr, Export.variantExpr]
    | positional fields =>
      rw [Body.types, List.forall_mem_map] at hs
      rw [Export.variantExpr, Export.variantExpr]
      simp only [taggedPayload hs]
    | named inner fields =>
      rw [Body.types, List.forall_mem_map] at hs
      rw [Export.variantExpr, Export.variantExpr]
      simp only [h.memberExprs hs]

theorem variantExprs {vs : List (Variant Shape)} (hs : ∀ v ∈ vs, ∀ c ∈ v.body.types, SameType x y c)
    (r : Representation) (path : Path) : x.variantExprs r path vs = y.variantExprs r path vs := by
  rw [variantExprs_eq_mapM, variantExprs_eq_mapM]
  exact mapM_congr fun v hv => h.variantExpr (hs v (Variant.mem_kept.1 hv).1) r _ _

theorem primitiveExpr (path : Path) (kind : Primitive) : x.primitiveExpr path kind = y.primitiveExpr path kind := by
  unfold Export.primitiveExpr
  rw [h.bigIntAt]

/-- The key of a map is taken without its nullables, so the walk passes over these. -/
theorem typeExpr_strip (s : Shape) : SameType x y s ∧ SameType x y s.stripNullable := by
  induction s using Shape.childInduction with
  | step s ih =>
    have same : SameType x y s := by
      intro path
      cases s with
      | primitive kind =>
        rw [Export.typeExpr, Export.typeExpr]
        exact h.primitiveExpr path kind
      | literal | placeholder => rw [Export.typeExpr, Export.typeExpr]
      | foreign value => cases value <;> rw [Export.typeExpr, Export.typeExpr]
      | list element | nullable element =>
        rw [Export.typeExpr, Export.typeExpr, (ih element (List.mem_singleton_self _)).1]
      | map key value =>
        have hk := (ih key List.mem_cons_self).2
        have hv := (ih value (List.mem_cons_of_mem _ List.mem_cons_self)).1
        rw [Export.typeExpr, Export.typeExpr, hk, hv]
      | tuple elements =>
        cases elements with
        | nil => rw [Export.typeExpr, Export.typeExpr]
        | cons e es =>
          have same : x.elementExprs path 0 (e :: es) = y.elementExprs path 0 (e :: es) :=
            elementExprs (fun c hc => (ih c hc).1) path 0
          rw [Export.typeExpr, Export.typeExpr, same] <;> intro he <;> cases he
      | struct name body =>
        rw [Export.typeExpr, Export.typeExpr]
        exact h.bodyExpr (fun c hc => (ih c hc).1) _ _
      | enum name vs tagging =>
        have hs : ∀ v ∈ vs, ∀ c ∈ v.body.types, SameType x y c :=
          fun v hv c hc => (ih c (List.mem_flatMap.2 ⟨v, hv, hc⟩)).1
        rw [Export.typeExpr, Export.typeExpr, h.scope.represent]
        simp only [h.variantExprs hs]
      | reference id arguments =>
        have same : x.argumentExprs path arguments = y.argumentExprs path arguments :=
          argumentExprs (fun c hc => (ih c hc).1) path
        rw [Export.typeExpr, Export.typeExpr, h.target]
        simp only [same, h.displayName]
    refine ⟨same, ?_⟩
    cases s with
    | nullable inner => exact (ih inner (List.mem_singleton_self _)).2
    | _ => exact same

theorem typeExpr (path : Path) (s : Shape) : x.typeExpr path s = y.typeExpr path s :=
  (h.typeExpr_strip s).1 path

theorem typeDeclaration (r : Record) : x.typeDeclaration r = y.typeDeclaration r := by
  unfold Export.typeDeclaration
  rw [h.typeExpr, h.commentStyle, h.displayName]

end ShapeExport.Export.Agrees
