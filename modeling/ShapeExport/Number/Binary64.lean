/-!
# Double-precision numbers

* `Binary64` : a finite number is a sign and a count of units, where a unit is the least positive
  number `2 ^ (-1074)`; so each number has one form, and the two zeros differ in their sign;
* `Binary64.ulp` : the distance to the next number up, in units;
* `Binary64.ofRatio`, `Binary64.ofDecimal` : the nearest number to a ratio or to a decimal, where a
  tie goes to the even neighbour and what is too large is infinite;
* `Binary64.eq`, `Binary64.eqInt` : equality as numbers. A number that is not a number carries a
  serial, and equals only itself.
-/

namespace ShapeExport

inductive Binary64
  | nan (serial : Nat)
  | infinite (negative : Bool)
  | finite (negative : Bool) (units : Nat)
deriving DecidableEq, Repr, Inhabited

namespace Binary64

/-- One is this many units. -/
def unitsPerOne : Nat := Nat.pow 2 1074

/-- The least count of units that no finite number reaches. -/
def overflowUnits : Nat := Nat.pow 2 2098

/-- The significand has 53 bits. -/
def ulp (units : Nat) : Nat := Nat.pow 2 (Nat.log2 units - 52)

/-- The nearest integer to `num / den`; a tie goes to the even one. -/
def roundDiv (num den : Nat) : Nat :=
  let q := num / den
  let twice := 2 * (num % den)
  if twice < den then q else if den < twice then q + 1 else q + q % 2

/-- The nearest number to `num / den`. -/
def ofRatio (negative : Bool) (num den : Nat) : Binary64 :=
  let scaled := num * unitsPerOne
  let step := ulp (scaled / den)
  let units := roundDiv scaled (den * step) * step
  if overflowUnits ≤ units then infinite negative else finite negative units

/-- The number of decimal digits. -/
def decimalLength (n : Nat) : Nat := if n < 10 then 1 else decimalLength (n / 10) + 1

/-- The nearest number to `digits * 10 ^ exponent`. A decimal beyond the range of the finite
numbers is told by its order of magnitude alone. -/
def ofDecimal (negative : Bool) (digits : Nat) (exponent : Int) : Binary64 :=
  let magnitude := exponent + decimalLength digits
  if digits = 0 ∨ magnitude < -400 then finite negative 0
  else if 400 < magnitude then infinite negative
  else if 0 ≤ exponent then ofRatio negative (digits * Nat.pow 10 exponent.toNat) 1
  else ofRatio negative digits (Nat.pow 10 (-exponent).toNat)

/-- Equality as numbers: the zeros are equal, whatever their signs. -/
def eq : Binary64 → Binary64 → Bool
  | nan m, nan n => m == n
  | infinite s, infinite t => s == t
  | finite s m, finite t n => m == n && (s == t || m == 0)
  | _, _ => false

/-- Equality with an integer. -/
def eqInt : Binary64 → Int → Bool
  | finite negative units, n =>
    (if negative then -(units : Int) else units) == n * (unitsPerOne : Int)
  | _, _ => false

theorem eq_refl (x : Binary64) : x.eq x := by
  cases x <;> simp [eq]

theorem eq_comm (x y : Binary64) : x.eq y = y.eq x := by
  cases x <;> cases y <;> simp only [eq]
  · exact BEq.comm
  · exact BEq.comm
  · rename_i s m t n
    rw [BEq.comm (a := m), BEq.comm (a := s)]
    by_cases h : n = m
    · rw [h]
    · rw [beq_false_of_ne h]; rfl

end Binary64

end ShapeExport
