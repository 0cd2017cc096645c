import ShapeExport.Proofs.Export.Agreement
import ShapeExport.Proofs.JsonSchema.Recursion

/-!
# JSON schemas of exports that agree

* `Context.SameOptions` : the exports have the same options, and references name their targets in the same way;
* `Context.Agrees` : besides, the exports agree;
* `Context.Agrees.nameTurn`, `Context.Agrees.schemaTurn` : so each turn of the constraint on keys and of the renderer does
  the same for both;
* `Context.Agrees.schemaIn`, `Context.Agrees.definition` : and a record has the same definition, or fails in the same way.
-/

namespace ShapeExport.JsonSchema.Context
open Schema

structure SameOptions (c d : Context) : Prop where
  toExport : c.toExport.SameOptions d.toExport
  linking : c.linking = d.linking

structure Agrees (c d : Context) : Prop where
  toExport : c.toExport.Agrees d.toExport
  linking : c.linking = d.linking

variable {c d : Context}

namespace SameOptions

variable (h : c.SameOptions d) {render : Path → Shape → Except Error Schema} {path : Path}
include h

theorem version : c.version = d.version := h.toExport.schemaVersion

theorem primitiveSchema (kind : Primitive) : c.primitiveSchema path kind = d.primitiveSchema path kind := by
  unfold Context.primitiveSchema
  rw [h.toExport.bigIntAt]

theorem uri (r : Record) : c.uri r = d.uri r := by
  unfold Context.uri
  rw [h.linking, h.version, h.toExport.displayName, h.toExport.language]
  split
  · rfl
  · rw [h.toExport.specifier]

/-! ## Bodies and variants -/

theorem membersTurn (fields : List (Field String Shape)) :
    c.membersTurn render path fields = d.membersTurn render path fields := by
  apply mapM_congr
  intro f hf
  rw [memberTurn, memberTurn, h.toExport.isOptional]

theorem bodyTurn (name : String) (b : Body Shape) : c.bodyTurn render path name b = d.bodyTurn render path name b := by
  unfold Context.bodyTurn
  rw [h.version]
  simp only [h.membersTurn]

theorem variantTurn (r : Representation) (key : String) (b : Body Shape) :
    c.variantTurn render r path key b = d.variantTurn render r path key b := by
  unfold Context.variantTurn
  simp only [h.bodyTurn, h.membersTurn]

theorem variantsTurn (r : Representation) (vs : List (Variant Shape)) :
    c.variantsTurn render r path vs = d.variantsTurn render r path vs := by
  unfold Context.variantsTurn
  simp only [h.variantTurn]

end SameOptions

namespace Agrees

variable (h : c.Agrees d)
include h

theorem options : c.SameOptions d := ⟨h.toExport.toSameOptions, h.linking⟩

theorem resolve (k : TypeKey) : c.types.resolve k = d.types.resolve k := h.toExport.scope.resolve k

/-! ## Map keys -/

theorem nameTurn (answer : Walk.Spot → Path → Except Error (Option Schema)) (x : Walk.Spot) :
    c.nameTurn answer x = d.nameTurn answer x := by
  funext path
  unfold Context.nameTurn
  simp only [h.resolve, h.toExport.scope.represent]

theorem propertyNames? (path : Path) (seen : List TypeKey) (s : Shape) :
    c.propertyNames? path seen s = d.propertyNames? path seen s :=
  congrFun (congrFun (c.runs_propertyNames?.congr d.runs_propertyNames?.equation h.nameTurn) ⟨seen, s⟩) path

/-! ## Shapes -/

theorem schemaTurn (answer : Walk.Spot → Path → Except Error Schema) (x : Walk.Spot) :
    c.schemaTurn answer x = d.schemaTurn answer x := by
  funext path
  unfold Context.schemaTurn
  simp only [h.resolve, h.propertyNames?, h.toExport.scope.represent, h.options.primitiveSchema, h.options.uri,
    h.options.version, h.options.bodyTurn, h.options.variantsTurn]

theorem schemaIn (stack : List TypeKey) (path : Path) (s : Shape) :
    c.schemaIn stack path s = d.schemaIn stack path s :=
  congrFun (congrFun (c.runs_schemaIn.congr d.runs_schemaIn.equation h.schemaTurn) ⟨stack, s⟩) path

theorem definition (r : Record) : c.definition r = d.definition r := by
  unfold Context.definition Context.schema
  rw [h.schemaIn]

end Agrees

end ShapeExport.JsonSchema.Context
