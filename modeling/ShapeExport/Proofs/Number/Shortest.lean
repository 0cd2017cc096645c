import Mathlib
import ShapeExport.Number.Shortest

/-!
# Seventeen digits suffice

The shortest decimal of a number rounds to the number: some grid of decimals with at most seventeen digits is
fine enough to have a point near it.

* `Binary64.Grid.exists_nearest` : a grid whose mesh is narrower than what rounds to a number has a point there;
* `Binary64.mesh_grid_le` : the mesh of the decimals with seventeen digits, relative to the number;
* `Binary64.lt_width` : what rounds to a number, relative to the number;
* `Binary64.shortest_hits` : the shortest decimal rounds to the number;
* `Binary64.shortest_digits_pos` : it is not zero.
-/

namespace ShapeExport.Binary64

variable {units : Nat}

/-! ## Grids -/

namespace Grid

variable {g : Grid} {d : Nat}

theorem hits_of_nearest? (h : g.nearest? = some d) : g.hits d := by
  unfold nearest? at h
  dsimp only at h
  split at h
  · cases h
  · next hd _ =>
    cases h
    exact hd
  · next _ hd =>
    cases h
    exact hd
  · next hd hd' =>
    cases h
    split
    · exact hd
    · exact hd'

theorem hits_of_lt (low : g.low < d * g.mesh) (high : d * g.mesh < g.high) : g.hits d := by
  unfold hits
  split
  · simp [low.le, high.le]
  · simp [low, high]

/-- The neighbours of the number cannot both lie outside when the mesh is narrower than what rounds to it. -/
theorem exists_nearest (positive : 0 < g.mesh) (low : g.low < g.value) (high : g.value < g.high)
    (narrow : g.low + g.mesh < g.high) : ∃ d, g.nearest? = some d := by
  have below : g.value / g.mesh * g.mesh ≤ g.value := Nat.div_mul_le_self _ _
  have above : g.value < (g.value / g.mesh + 1) * g.mesh := Nat.lt_mul_of_div_lt (Nat.lt_succ_self _) positive
  have one : g.hits (g.value / g.mesh) ∨ g.hits (g.value / g.mesh + 1) := by
    by_cases outside : g.low < g.value / g.mesh * g.mesh
    · exact Or.inl (hits_of_lt outside (by omega))
    · refine Or.inr (hits_of_lt (by omega) ?_)
      rw [Nat.succ_mul]
      omega
  unfold nearest?
  dsimp only
  split
  · next hd hd' =>
    rw [hd, hd'] at one
    simp at one
  · exact ⟨_, rfl⟩
  · exact ⟨_, rfl⟩
  · exact ⟨_, rfl⟩

end Grid

/-! ## The steps of binary numbers -/

theorem ulp_pos (units : Nat) : 0 < ulp units := Nat.pow_pos (by decide)

theorem ulp_le (positive : 0 < units) : ulp units ≤ units :=
  (Nat.pow_le_pow_right (by decide) (Nat.sub_le _ _)).trans (Nat.log2_self_le positive.ne')

/-- A significand has at most 53 bits. -/
theorem lt_ulp (units : Nat) : units < ulp units * 2 ^ 53 := by
  have bits : units < 2 ^ (Nat.log2 units + 1) := Nat.lt_log2_self
  refine bits.trans_le ?_
  show _ ≤ 2 ^ (Nat.log2 units - 52) * 2 ^ 53
  rw [← pow_add]
  exact Nat.pow_le_pow_right (by decide) (by omega)

theorem gapBelow_pos (units : Nat) : 0 < gapBelow units := by
  have := ulp_pos units
  unfold gapBelow
  dsimp only
  split <;> omega

theorem gapBelow_le (units : Nat) : gapBelow units ≤ 2 * ulp units := by
  unfold gapBelow
  dsimp only
  split <;> omega

/-- What rounds to a number, in quarters of units, is wider than four of 10 ^ 16 parts of the number. -/
theorem lt_width (units : Nat) : 4 * units < (gapBelow units + 2 * ulp units) * 10 ^ 16 := by
  have bits := lt_ulp units
  unfold gapBelow
  dsimp only
  split
  · next power =>
    -- Below a power of two the step is narrower, but a power of two has the least significand.
    obtain ⟨wide, power⟩ := power
    have large : 52 ≤ Nat.log2 units := by
      by_contra small
      rw [ulp, Nat.sub_eq_zero_of_le (by omega)] at wide
      exact absurd wide (by decide)
    have significand : units = ulp units * 2 ^ 52 := by
      show units = 2 ^ (Nat.log2 units - 52) * 2 ^ 52
      rw [← pow_add, Nat.sub_add_cancel large]
      exact power
    omega
  · omega

/-! ## The mesh of decimals -/

theorem decimalLength_pos (n : Nat) : 0 < decimalLength n := by
  unfold decimalLength
  split <;> omega

theorem pow_decimalLength_le {n : Nat} (positive : 0 < n) : 10 ^ (decimalLength n - 1) ≤ n := by
  induction n using Nat.strongRecOn with
  | ind n ih =>
    unfold decimalLength
    split
    · exact positive
    · next large =>
      have shorter := ih (n / 10) (Nat.div_lt_self positive (by decide)) (by omega)
      have length := decimalLength_pos (n / 10)
      calc 10 ^ (decimalLength (n / 10) + 1 - 1) = 10 ^ (decimalLength (n / 10) - 1) * 10 := by
            rw [← pow_succ, Nat.add_sub_cancel, Nat.sub_add_cancel length]
        _ ≤ n / 10 * 10 := Nat.mul_le_mul_right 10 shorter
        _ ≤ n := Nat.div_mul_le_self n 10

theorem unitsPerOne_pos : 0 < unitsPerOne := by decide +kernel

theorem unitsPerOne_le : unitsPerOne ≤ Nat.pow 10 400 := by decide +kernel

/-- A number whose leading digit is at `10 ^ (l - 1)` once it was scaled by `10 ^ n`, and the seventeenth digit
from there. -/
theorem mesh_le {l n : Nat} (length : 0 < l) (leading : 10 ^ (l - 1) * unitsPerOne ≤ units * Nat.pow 10 n)
    {exponent : Int} (last : exponent + n + 17 = l) :
    4 * unitsPerOne * 10 ^ exponent.toNat * 10 ^ 16 ≤ 4 * units * 10 ^ (-exponent).toNat := by
  have powers : 10 ^ exponent.toNat * 10 ^ 16 * 10 ^ n = 10 ^ (l - 1) * 10 ^ (-exponent).toNat := by
    rw [← pow_add, ← pow_add, ← pow_add]
    congr 1
    omega
  have positive : 0 < 10 ^ n := Nat.pow_pos (by decide)
  refine Nat.le_of_mul_le_mul_right (?_ : _ * 10 ^ n ≤ _ * 10 ^ n) positive
  calc 4 * unitsPerOne * 10 ^ exponent.toNat * 10 ^ 16 * 10 ^ n
      = 4 * unitsPerOne * (10 ^ exponent.toNat * 10 ^ 16 * 10 ^ n) := by ring
    _ = 4 * (10 ^ (l - 1) * unitsPerOne) * 10 ^ (-exponent).toNat := by rw [powers]; ring
    _ ≤ 4 * (units * 10 ^ n) * 10 ^ (-exponent).toNat :=
      Nat.mul_le_mul_right _ (Nat.mul_le_mul_left 4 leading)
    _ = 4 * units * 10 ^ (-exponent).toNat * 10 ^ n := by ring

/-- With seventeen digits the mesh is at most one of 10 ^ 16 parts of the number. -/
theorem mesh_grid_le (positive : 0 < units) :
    (grid units (leadingExponent units - 16)).mesh * 10 ^ 16 ≤
      (grid units (leadingExponent units - 16)).value := by
  have scaled : unitsPerOne ≤ units * Nat.pow 10 400 :=
    unitsPerOne_le.trans (Nat.le_mul_of_pos_left _ positive)
  have leading := pow_decimalLength_le (Nat.div_pos scaled unitsPerOne_pos)
  have last : leadingExponent units - 16 + (400 : Nat) + 17 =
      decimalLength (units * Nat.pow 10 400 / unitsPerOne) := by
    unfold leadingExponent
    omega
  exact mesh_le (decimalLength_pos _) ((Nat.le_div_iff_mul_le unitsPerOne_pos).1 leading) last

/-! ## The shortest decimal -/

theorem low_grid_pos (positive : 0 < units) (exponent : Int) : 0 < (grid units exponent).low := by
  have := ulp_le positive
  have := gapBelow_le units
  exact Nat.mul_pos (by omega) (Nat.pow_pos (by decide))

/-- With seventeen digits some decimal rounds to the number. -/
theorem exists_nearest_grid (positive : 0 < units) :
    ∃ d, (grid units (leadingExponent units - 16)).nearest? = some d := by
  have fine := mesh_grid_le positive
  have wide := lt_width units
  generalize leadingExponent units - 16 = exponent at fine
  have up : 0 < Nat.pow 10 (-exponent).toNat := Nat.pow_pos (by decide)
  have step := ulp_pos units
  have gap := gapBelow_pos units
  have := ulp_le positive
  have := gapBelow_le units
  unfold grid at fine ⊢
  dsimp only at fine
  apply Grid.exists_nearest
  · exact Nat.mul_pos (Nat.mul_pos (by decide) unitsPerOne_pos) (Nat.pow_pos (by decide))
  · exact Nat.mul_lt_mul_of_pos_right (by omega) up
  · exact Nat.mul_lt_mul_of_pos_right (by omega) up
  · have narrow : 4 * unitsPerOne * Nat.pow 10 exponent.toNat <
        (gapBelow units + 2 * ulp units) * Nat.pow 10 (-exponent).toNat := by
      refine Nat.lt_of_mul_lt_mul_right (a := 10 ^ 16) (fine.trans_lt ?_)
      rw [Nat.mul_right_comm (gapBelow units + _)]
      exact Nat.mul_lt_mul_of_pos_right wide up
    calc _ < (4 * units - gapBelow units) * Nat.pow 10 (-exponent).toNat +
          (gapBelow units + 2 * ulp units) * Nat.pow 10 (-exponent).toNat := Nat.add_lt_add_left narrow _
      _ = (4 * units + 2 * ulp units) * Nat.pow 10 (-exponent).toNat := by
        rw [← Nat.add_mul]
        congr 1
        omega

/-- The shortest decimal rounds to the number. -/
theorem shortest_hits (positive : 0 < units) :
    (grid units (shortest units).exponent).hits (shortest units).digits := by
  obtain ⟨d, found⟩ := exists_nearest_grid positive
  unfold shortest
  dsimp only
  cases hs : (List.range 17).findSome? fun count : Nat =>
      (grid units (leadingExponent units - count)).nearest?.map (Decimal.mk · (leadingExponent units - count)) with
  | none =>
    have last := List.findSome?_eq_none_iff.1 hs 16 (by decide)
    rw [Option.map_eq_none_iff] at last
    cases last.symm.trans found
  | some decimal =>
    obtain ⟨count, -, hc⟩ := List.exists_of_findSome?_eq_some hs
    obtain ⟨e, he, rfl⟩ := Option.map_eq_some_iff.1 hc
    rw [Option.getD_some]
    exact Grid.hits_of_nearest? he

theorem shortest_digits_pos (positive : 0 < units) : 0 < (shortest units).digits := by
  by_contra zero
  have hit := shortest_hits positive
  have low := low_grid_pos positive (shortest units).exponent
  rw [Nat.eq_zero_of_not_pos zero, Grid.hits, Nat.zero_mul] at hit
  split at hit
  · have := of_decide_eq_true (Bool.and_eq_true_iff.1 hit).1
    omega
  · exact absurd (of_decide_eq_true (Bool.and_eq_true_iff.1 hit).1) (Nat.not_lt_zero _)

end ShapeExport.Binary64
