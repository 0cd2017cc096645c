import ShapeExport.JsonSchema.Render
import ShapeExport.Proofs.Outcome
import ShapeExport.Proofs.Shape.Position

/-!
# Lists of JSON schemas

As for types, each list is rendered by a step for each item that is kept.

* `JsonSchema.Context.elementSchemas_eq_mapM`, `JsonSchema.Context.positionalSchemas_eq` : elements and positional
  fields;
* `JsonSchema.Context.memberSchemas_eq_mapM` : named fields;
* `JsonSchema.Context.variantSchemas_eq_mapM` : variants;
* `JsonSchema.Context.taggedSchema_eq` : the payload beside a tag.
-/

namespace ShapeExport.JsonSchema.Context
open Schema

variable (c : Context) (stack : List TypeKey) (path : Path)

theorem elementSchemas_eq_mapM (i : Nat) (ss : List Shape) :
    c.elementSchemas stack path i ss = (ss.zipIdx i).mapM fun s => c.schemaIn stack (path ++ [toString s.2]) s.1 := by
  induction ss generalizing i with
  | nil => rw [elementSchemas]; rfl
  | cons s ss ih => rw [elementSchemas, List.zipIdx_cons, List.mapM_cons, ih]

theorem positionalSchemas_eq (i : Nat) (fs : List (Field (Option String) Shape)) :
    c.positionalSchemas stack path i fs = c.elementSchemas stack path i ((Field.kept fs).map (·.ty)) := by
  induction fs generalizing i with
  | nil => rw [positionalSchemas, elementSchemas_eq_mapM]; rfl
  | cons f fs ih =>
    rw [positionalSchemas]
    split
    · next hf => rw [Field.kept_cons_of_skip hf, ih]
    · next hf => rw [Field.kept_cons_of_not_skip hf, List.map_cons, elementSchemas, ih]

/-- The member of a field whose type `render` renders. -/
def memberTurn (c : Context) (render : Path → Shape → Except Error Schema) (path : Path) (f : Field String Shape) :
    Except Error (String × Schema × Bool) := do
  let schema ← render (path ++ [f.key]) f.ty
  return (f.key, schema.annotate (docLines f.docs) f.deprecation.isSome, c.config.isOptional f)

theorem memberSchemas_eq_mapM (fs : List (Field String Shape)) :
    c.memberSchemas stack path fs = (Field.kept fs).mapM (c.memberTurn (c.schemaIn stack) path) := by
  refine eq_mapM_filter (by rw [memberSchemas]) (fun f fs => ?_) fs
  rw [memberSchemas, memberTurn]
  simp only [bind_assoc, pure_bind]

/-- The schema of a variant, with its notes. -/
theorem variantSchemas_eq_mapM (r : Representation) (vs : List (Variant Shape)) :
    c.variantSchemas stack r path vs = (Variant.kept vs).mapM fun v => do
      let schema ← c.variantSchema stack r (path ++ [v.name]) (r.variantKey v) v.body
      return schema.annotate (docLines v.docs) v.deprecation.isSome := by
  refine eq_mapM_filter (by rw [variantSchemas]) (fun v vs => ?_) vs
  rw [variantSchemas]
  simp only [bind_assoc, pure_bind]

theorem taggedSchema_eq (tag : Schema) (fs : List (Field (Option String) Shape)) :
    c.taggedSchema stack tag path fs = match (Field.kept fs).map (·.ty) with
      | [] => .ok tag
      | s :: _ => (c.schemaIn stack path s).map fun schema => .ofKeywords [.allOf [tag, schema]] := by
  induction fs with
  | nil => rw [taggedSchema]; rfl
  | cons f fs ih =>
    rw [taggedSchema]
    split
    · next hf => rw [ih, Field.kept_cons_of_skip hf]
    · next hf =>
      rw [Field.kept_cons_of_not_skip hf]
      rfl

end ShapeExport.JsonSchema.Context
