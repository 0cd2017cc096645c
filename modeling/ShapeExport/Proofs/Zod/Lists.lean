import ShapeExport.Proofs.Outcome
import ShapeExport.Proofs.Shape.Position
import ShapeExport.Zod.Render

/-!
# Lists of Zod schemas

As for types, each list is rendered by a step for each item that is kept.

* `Export.argumentSchemas_eq_mapM`, `Export.elementSchemas_eq_mapM`, `Export.positionalSchemas_eq` : arguments,
  elements and positional fields;
* `Export.memberSchemas_eq_mapM` : named fields;
* `Export.variantSchemas_eq_mapM` : variants;
* `Export.taggedSchema_eq` : the payload beside a tag.
-/

namespace ShapeExport.Export
open Zod Zod.Schema

variable (x : Export) (left : Nat) (path : Path)

theorem argumentSchemas_eq_mapM (ss : List Shape) :
    x.argumentSchemas left path ss = ss.mapM (x.schemaExpr left path) := by
  induction ss with
  | nil => rw [argumentSchemas]; rfl
  | cons s ss ih => rw [argumentSchemas, List.mapM_cons, ih]

theorem elementSchemas_eq_mapM (i : Nat) (ss : List Shape) :
    x.elementSchemas left path i ss =
      (ss.zipIdx i).mapM fun s => x.schemaExpr left (path ++ [toString s.2]) s.1 := by
  induction ss generalizing i with
  | nil => rw [elementSchemas]; rfl
  | cons s ss ih => rw [elementSchemas, List.zipIdx_cons, List.mapM_cons, ih]

theorem positionalSchemas_eq (i : Nat) (fs : List (Field (Option String) Shape)) :
    x.positionalSchemas left path i fs = x.elementSchemas left path i ((Field.kept fs).map (·.ty)) := by
  induction fs generalizing i with
  | nil => rw [positionalSchemas, elementSchemas_eq_mapM]; rfl
  | cons f fs ih =>
    rw [positionalSchemas]
    split
    · next hf => rw [Field.kept_cons_of_skip hf, ih]
    · next hf => rw [Field.kept_cons_of_not_skip hf, List.map_cons, elementSchemas, ih]

/-- The member of a named field. -/
def memberSchema (f : Field String Shape) : Except Error (Zod.Member Schema) := do
  let schema ← x.schemaExpr left (path ++ [f.key]) f.ty
  return { key := schemaKey f.key, schema, optional := x.config.isOptional f }

theorem memberSchemas_eq_mapM (fs : List (Field String Shape)) :
    x.memberSchemas left path fs = (Field.kept fs).mapM (x.memberSchema left path) := by
  refine eq_mapM_filter (by rw [memberSchemas]) (fun f fs => ?_) fs
  rw [memberSchemas, memberSchema]
  simp only [bind_assoc, pure_bind]

theorem variantSchemas_eq_mapM (r : Representation) (vs : List (Variant Shape)) :
    x.variantSchemas left r path vs = (Variant.kept vs).mapM fun v =>
      x.variantSchema left r (path ++ [v.name]) (r.variantKey v) v.body := by
  refine eq_mapM_filter (by rw [variantSchemas]) (fun v vs => ?_) vs
  rw [variantSchemas]

theorem taggedSchema_eq (tag : Zod.Member Schema) (fs : List (Field (Option String) Shape)) :
    x.taggedSchema left tag path fs = match (Field.kept fs).map (·.ty) with
      | [] => .ok (.object [tag])
      | s :: _ => (x.schemaExpr left path s).map fun schema => .intersection (.object [tag]) schema := by
  induction fs with
  | nil => rw [taggedSchema]; rfl
  | cons f fs ih =>
    rw [taggedSchema]
    split
    · next hf => rw [ih, Field.kept_cons_of_skip hf]
    · next hf =>
      rw [Field.kept_cons_of_not_skip hf]
      rfl

end ShapeExport.Export
