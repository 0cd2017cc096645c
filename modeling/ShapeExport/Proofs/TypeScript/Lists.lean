import ShapeExport.Proofs.Outcome
import ShapeExport.Proofs.Shape.Position
import ShapeExport.TypeScript.Render

/-!
# Lists of types

The renderer goes through each kind of list with a function of its own. Each of them takes a step for each item that
is kept.

* `Export.argumentExprs_eq_mapM`, `Export.elementExprs_eq_mapM`, `Export.positionalExprs_eq` : arguments, elements,
  and positional fields, which are rendered as the elements that are kept;
* `Export.memberExprs_eq_mapM` : named fields;
* `Export.variantExprs_eq_mapM` : variants;
* `Export.taggedPayload_eq` : the payload beside a tag is the first field that is kept.
-/

namespace ShapeExport.Export
open TypeScript TypeScript.TypeExpr

theorem argumentExprs_eq_mapM (x : Export) (path : Path) (ss : List Shape) :
    x.argumentExprs path ss = ss.mapM (x.typeExpr path) := by
  induction ss with
  | nil => rw [argumentExprs]; rfl
  | cons s ss ih => rw [argumentExprs, List.mapM_cons, ih]

theorem elementExprs_eq_mapM (x : Export) (path : Path) (i : Nat) (ss : List Shape) :
    x.elementExprs path i ss = (ss.zipIdx i).mapM fun s => x.typeExpr (path ++ [toString s.2]) s.1 := by
  induction ss generalizing i with
  | nil => rw [elementExprs]; rfl
  | cons s ss ih => rw [elementExprs, List.zipIdx_cons, List.mapM_cons, ih]

theorem positionalExprs_eq (x : Export) (path : Path) (i : Nat) (fs : List (Field (Option String) Shape)) :
    x.positionalExprs path i fs = x.elementExprs path i ((Field.kept fs).map (·.ty)) := by
  induction fs generalizing i with
  | nil => rw [positionalExprs, elementExprs_eq_mapM]; rfl
  | cons f fs ih =>
    rw [positionalExprs]
    split
    · next hf => rw [Field.kept_cons_of_skip hf, ih]
    · next hf => rw [Field.kept_cons_of_not_skip hf, List.map_cons, elementExprs, ih]

/-- The member of a named field. -/
def memberExpr (x : Export) (path : Path) (f : Field String Shape) : Except Error (Member TypeExpr) := do
  let type ← x.typeExpr (path ++ [f.key]) f.ty
  return {
    comment := inlineComment x.config.commentStyle f.docs f.deprecation
    key := scriptKey f.key
    optional := x.config.isOptional f
    type }

theorem memberExprs_eq_mapM (x : Export) (path : Path) (fs : List (Field String Shape)) :
    x.memberExprs path fs = (Field.kept fs).mapM (x.memberExpr path) := by
  refine eq_mapM_filter (by rw [memberExprs]) (fun f fs => ?_) fs
  rw [memberExprs, memberExpr]
  simp only [bind_assoc, pure_bind]

theorem variantExprs_eq_mapM (x : Export) (r : Representation) (path : Path) (vs : List (Variant Shape)) :
    x.variantExprs r path vs = (Variant.kept vs).mapM fun v =>
      x.variantExpr r (path ++ [v.name]) (r.variantKey v) v.body := by
  refine eq_mapM_filter (by rw [variantExprs]) (fun v vs => ?_) vs
  rw [variantExprs]

theorem taggedPayload_eq (x : Export) (tag : Member TypeExpr) (path : Path)
    (fs : List (Field (Option String) Shape)) :
    x.taggedPayload tag path fs = match (Field.kept fs).map (·.ty) with
      | [] => .ok (.grouped (.object [tag]))
      | s :: _ => (x.typeExpr path s).map fun type => .grouped (.intersection (.object [tag]) type) := by
  induction fs with
  | nil => rw [taggedPayload]; rfl
  | cons f fs ih =>
    rw [taggedPayload]
    split
    · next hf => rw [ih, Field.kept_cons_of_skip hf]
    · next hf =>
      rw [Field.kept_cons_of_not_skip hf]
      rfl

end ShapeExport.Export
