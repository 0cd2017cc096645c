import ShapeExport.Number.Text

/-!
# Numbers

A number is an integer of any size or a double. Equality is by value, so `1` equals `1.0`.
-/

namespace ShapeExport

inductive Number
  | integer (n : Int)
  | double (x : Binary64)
deriving DecidableEq, Repr, Inhabited

namespace Number

def eq : Number → Number → Bool
  | integer m, integer n => m == n
  | integer m, double y => y.eqInt m
  | double x, integer n => x.eqInt n
  | double x, double y => x.eq y

def text (style : FloatStyle) : Number → String
  | integer n => toString n
  | double x => x.text style

theorem eq_refl (x : Number) : x.eq x := by
  cases x with
  | integer n => simp [eq]
  | double x => exact x.eq_refl

theorem eq_comm (x y : Number) : x.eq y = y.eq x := by
  cases x <;> cases y <;> simp only [eq]
  · exact BEq.comm
  · exact Binary64.eq_comm _ _

end Number

end ShapeExport
