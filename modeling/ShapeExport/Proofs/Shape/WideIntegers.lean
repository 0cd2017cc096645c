import ShapeExport.Proofs.Shape.Position
import ShapeExport.Shape.References

/-!
# Wide integers in a shape

A renderer comes from a shape to some of the shapes in it.

* `Shape.HasWide` : a wide integer is among the shapes that a renderer comes to;
* `Shape.HasWide.imp` : so another renderer that comes to more shapes meets it too.
-/

namespace ShapeExport.Shape

/-- A wide integer, or a shape with one among those that `below` leads to. -/
inductive HasWide (below : Shape → List Shape) : Shape → Prop
  | here {kind : Primitive} : kind.isBigInt → HasWide below (.primitive kind)
  | part {s c : Shape} : c ∈ below s → HasWide below c → HasWide below s

variable {below below' : Shape → List Shape} {s : Shape}

theorem HasWide.imp (h : s.HasWide below)
    (imp : ∀ s, ∀ c ∈ below s, c.HasWide below' → s.HasWide below') : s.HasWide below' := by
  induction h with
  | here hk => exact .here hk
  | part hc _ ih => exact imp _ _ hc ih

/-- Only an integer is wide by itself. -/
theorem hasWide_iff (h : ∀ kind, s ≠ .primitive kind) : s.HasWide below ↔ ∃ c ∈ below s, c.HasWide below := by
  constructor
  · intro hw
    cases hw with
    | here => exact absurd rfl (h _)
    | part hc hw => exact ⟨_, hc, hw⟩
  · rintro ⟨c, hc, hw⟩
    exact .part hc hw

theorem hasWide_primitive {kind : Primitive} (h : below (.primitive kind) = []) :
    (primitive kind).HasWide below ↔ kind.isBigInt := by
  constructor
  · intro hw
    cases hw with
    | here hk => exact hk
    | part hc =>
      rw [h] at hc
      cases hc
  · exact .here

theorem HasWide.of_stripNullable (inner : ∀ t, t ∈ below (nullable t)) (h : s.stripNullable.HasWide below) :
    s.HasWide below := by
  fun_induction stripNullable s with
  | case1 t ih => exact .part (inner t) (ih h)
  | case2 => exact h

end ShapeExport.Shape
