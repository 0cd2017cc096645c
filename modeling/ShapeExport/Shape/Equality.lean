import ShapeExport.Error

/-!
# Equality of shapes

Two shapes are equal when they have the same form, where numbers in literals are compared by value
and the labels of ids do not count.

* `Shape.sameHead` : equality of all that is not in the children;
* `Shape.same` : equality of the heads, and of the children one by one;
* `Shape.labels` : the labels of the enums in a shape;
* `Shape.countDistinct` : how many different shapes two are. Labels that are no scalars cannot be
  counted.
-/

namespace ShapeExport.Shape

def sameTagging : Option Tagging → Option Tagging → Bool
  | none, none => true
  | some t, some u => t.same u
  | _, _ => false

def sameHead : Shape → Shape → Bool
  | primitive k, primitive l => k == l
  | literal a, literal b => a.same b
  | list _ m u, list _ n v => m == n && u == v
  | map .., map .. => true
  | nullable _, nullable _ => true
  | tuple _, tuple _ => true
  | struct m b, struct n c => m == n && b.outline == c.outline
  | enum m vs t, enum n ws u => m == n && vs.map (·.outline) == ws.map (·.outline) && sameTagging t u
  | reference i _, reference j _ => i.key == j.key
  | foreign a, foreign b => a == b
  | placeholder m, placeholder n => m == n
  | _, _ => false

def same (a b : Shape) : Bool :=
  a.sameHead b && a.children.length == b.children.length &&
    (a.children.attach.zip b.children).all fun (⟨c, _⟩, d) => same c d
termination_by sizeOf a
decreasing_by exact sizeOf_child_lt ‹_›

/-- The labels of the shape itself. -/
def headLabels : Shape → List Json
  | enum _ _ (some t) => t.labels
  | _ => []

def labels (s : Shape) : List Json :=
  s.headLabels ++ s.children.attach.flatMap fun ⟨c, _⟩ => labels c
termination_by sizeOf s
decreasing_by exact sizeOf_child_lt ‹_›

def countDistinct (a b : Shape) : Except Error Nat :=
  match (a.labels ++ b.labels).find? (!·.isScalar) with
  | some label => .error (.unusableLabel label)
  | none => .ok (if a.same b then 1 else 2)

end ShapeExport.Shape
