import ShapeExport.Number.Binary64

/-!
# Shortest decimals

The decimal with the fewest digits that rounds to a given positive number, and of those the nearest
one; a tie goes to the even last digit. A decimal rounds to the number when it lies between the
midpoints to the two neighbours. The midpoints themselves do so when the significand is even.

* `Decimal` : an integer of decimal digits and an exponent of ten;
* `Binary64.shortest` : tries 1, 2, … 17 digits. For each it looks at the two neighbours of the
  number on the grid of decimals with so many digits, since if any decimal of the grid rounds to the
  number then so does one of the neighbours.
-/

namespace ShapeExport

/-- The number `digits * 10 ^ exponent`. -/
structure Decimal where
  digits : Nat
  exponent : Int
deriving DecidableEq, Repr

namespace Binary64

/-- The exponent of the leading decimal digit of a positive number. -/
def leadingExponent (units : Nat) : Int :=
  (decimalLength (units * Nat.pow 10 400 / unitsPerOne) : Int) - 401

/-- Twice the distance from a number to the number below it. Just below a power of two the numbers
lie twice as close. -/
def gapBelow (units : Nat) : Nat :=
  let step := ulp units
  if 1 < step ∧ units = Nat.pow 2 (Nat.log2 units) then step else 2 * step

/-- A decimal grid around `units`: the number and its midpoints, and the mesh, over one scale. -/
structure Grid where
  value : Nat
  low : Nat
  high : Nat
  mesh : Nat
  closed : Bool

/-- The grid of the multiples of `10 ^ exponent`. -/
def grid (units : Nat) (exponent : Int) : Grid :=
  let up := Nat.pow 10 (-exponent).toNat
  { value := 4 * units * up
    low := (4 * units - gapBelow units) * up
    high := (4 * units + 2 * ulp units) * up
    mesh := 4 * unitsPerOne * Nat.pow 10 exponent.toNat
    closed := units / ulp units % 2 == 0 }

/-- Whether the point with index `d` rounds to the number. -/
def Grid.hits (g : Grid) (d : Nat) : Bool :=
  let x := d * g.mesh
  if g.closed then g.low ≤ x && x ≤ g.high else g.low < x && x < g.high

/-- The better neighbour of the number on the grid, if one rounds to it. -/
def Grid.nearest? (g : Grid) : Option Nat :=
  let d := g.value / g.mesh
  match g.hits d, g.hits (d + 1) with
  | false, false => none
  | true, false => some d
  | false, true => some (d + 1)
  | true, true =>
    let below := g.value - d * g.mesh
    let above := (d + 1) * g.mesh - g.value
    some (if below < above ∨ (below = above ∧ d % 2 = 0) then d else d + 1)

/-- The shortest decimal that rounds to a positive finite number of so many units. -/
def shortest (units : Nat) : Decimal :=
  let lead := leadingExponent units
  let candidate? (count : Nat) : Option Decimal :=
    let exponent := lead - count
    (grid units exponent).nearest?.map fun d => ⟨d, exponent⟩
  ((List.range 17).findSome? candidate?).getD ⟨units / unitsPerOne, 0⟩

end Binary64

end ShapeExport
