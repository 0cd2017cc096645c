import ShapeExport.Shape.Basic

/-!
# References in a shape

* `Shape.references` : every reference in a shape, in order, a reference before the references in
  its arguments. It does not look into the records that are referred to;
* `Shape.mapKeyParameters` : the type parameters that a shape uses directly as map keys.
-/

namespace ShapeExport

structure Reference where
  id : TypeId
  arguments : List Shape
deriving Repr

namespace Shape

/-- The reference that a shape is itself. -/
def ownReference : Shape → List Reference
  | reference id arguments => [⟨id, arguments⟩]
  | _ => []

def references (s : Shape) : List Reference :=
  s.ownReference ++ s.children.attach.flatMap fun ⟨c, _⟩ => references c
termination_by sizeOf s
decreasing_by exact sizeOf_child_lt ‹_›

theorem references_eq (s : Shape) :
    s.references = s.ownReference ++ s.children.flatMap references := by
  rw [references]
  simp

/-- The shape under any number of nullables. -/
def stripNullable : Shape → Shape
  | nullable inner => inner.stripNullable
  | s => s

theorem sizeOf_stripNullable_le (s : Shape) : sizeOf s.stripNullable ≤ sizeOf s := by
  fun_induction stripNullable s with
  | case1 inner ih => simp; omega
  | case2 => exact Nat.le_refl _

/-- The parameter that is the key of this very map. -/
def ownKeyParameter : Shape → List String
  | map key _ =>
    match key.stripNullable with
    | placeholder name => [name]
    | _ => []
  | _ => []

def mapKeyParameters (s : Shape) : List String :=
  s.ownKeyParameter ++ s.children.attach.flatMap fun ⟨c, _⟩ => mapKeyParameters c
termination_by sizeOf s
decreasing_by exact sizeOf_child_lt ‹_›

theorem mapKeyParameters_eq (s : Shape) :
    s.mapKeyParameters = s.ownKeyParameter ++ s.children.flatMap mapKeyParameters := by
  rw [mapKeyParameters]
  simp

end Shape

end ShapeExport
