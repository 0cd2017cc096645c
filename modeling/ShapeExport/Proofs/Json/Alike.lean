import ShapeExport.Json.Basic
import ShapeExport.Proofs.Number.Shortest
import ShapeExport.Proofs.OrderedMap

/-!
# Values that are alike

* `Number.eq_iff` : numbers are equal if their counts of units are;
* `Json.Alike` : values of one structure and with equal scalars, up to the order of members. Truth values are no
  numbers;
* `Json.asNumbers` : a value with one and zero in the place of truth values;
* `Json.Keyed` : the members of each object in a value have distinct keys;
* `Json.Keyed.same_iff` : two such values are the same exactly if they are alike once truth values are read as numbers.
-/

namespace ShapeExport

/-! ## Numbers -/

namespace Number

/-- What equal numbers have in common: the units of a finite one, and otherwise the number itself. -/
def value : Number → Int ⊕ Binary64
  | integer n => .inl (n * Binary64.unitsPerOne)
  | double (.finite negative units) => .inl (if negative then -(units : Int) else units)
  | double x => .inr x

theorem value_integer_inj {m n : Int} : (integer m).value = (integer n).value ↔ m = n :=
  Sum.inl_injective.eq_iff.trans
    (Int.mul_eq_mul_right_iff (Int.natCast_ne_zero.2 (Nat.ne_of_gt Binary64.unitsPerOne_pos)))

theorem eqInt_iff {x : Binary64} {n : Int} : x.eqInt n = true ↔ (double x).value = (integer n).value := by
  cases x with
  | finite negative units => exact beq_iff_eq.trans Sum.inl_injective.eq_iff.symm
  | nan | infinite => exact iff_of_false Bool.false_ne_true Sum.inr_ne_inl

theorem double_eq_iff {x y : Binary64} : x.eq y = true ↔ (double x).value = (double y).value := by
  cases x with
  | finite s m =>
    cases y with
    | finite t n =>
      refine Iff.trans ?_ Sum.inl_injective.eq_iff.symm
      cases s <;> cases t <;> simp [Binary64.eq] <;> omega
    | nan | infinite => exact iff_of_false Bool.false_ne_true Sum.inl_ne_inr
  | nan | infinite => cases y <;> simp [Binary64.eq, value]

theorem eq_iff {x y : Number} : x.eq y = true ↔ x.value = y.value := by
  cases x with
  | integer m =>
    cases y with
    | integer n => rw [value_integer_inj, eq, beq_iff_eq]
    | double y => exact eqInt_iff.trans ⟨Eq.symm, Eq.symm⟩
  | double x =>
    cases y with
    | integer n => exact eqInt_iff
    | double y => exact double_eq_iff

end Number

namespace Json

/-! ## Alike values -/

/-- The values have one structure and equal scalars. The order of members does not count. -/
inductive Alike : Json → Json → Prop
  | null : Alike .null .null
  | bool (b : Bool) : Alike (.bool b) (.bool b)
  | number {m n : Number} : m.eq n = true → Alike (.number m) (.number n)
  | string (s : String) : Alike (.string s) (.string s)
  | array {xs ys : List Json} : xs.length = ys.length →
      (∀ (i : Nat) (x y : Json), xs[i]? = some x → ys[i]? = some y → Alike x y) → Alike (.array xs) (.array ys)
  | object {ms ns : Members} : (∀ k, k ∈ ms.keys ↔ k ∈ ns.keys) →
      (∀ k x y, ms.lookup k = some x → ns.lookup k = some y → Alike x y) → Alike (.object ms) (.object ns)

variable {a b c : Json} {xs ys : List Json} {ms ns : Members}

theorem Alike.symm (h : a.Alike b) : b.Alike a := by
  induction h with
  | null => exact .null
  | bool b => exact .bool b
  | @number m n e => exact .number ((Number.eq_comm n m).trans e)
  | string s => exact .string s
  | array length _ ih => exact .array length.symm fun i y x hy hx => ih i x y hx hy
  | object keys _ ih => exact .object (fun k => (keys k).symm) fun k y x hy hx => ih k x y hx hy

theorem Alike.trans (h : a.Alike b) (h' : b.Alike c) : a.Alike c := by
  induction h generalizing c with
  | null => exact h'
  | bool b => exact h'
  | number e =>
    cases h' with
    | number e' => exact .number (Number.eq_iff.2 ((Number.eq_iff.1 e).trans (Number.eq_iff.1 e')))
  | string s => exact h'
  | array length _ ih =>
    cases h' with
    | array length' items =>
      refine .array (length.trans length') fun i x z hx hz => ?_
      have bound : i < _ := (List.getElem?_eq_some_iff.1 hx).1
      rw [length] at bound
      exact ih i x _ hx (List.getElem?_eq_getElem bound) (items i _ z (List.getElem?_eq_getElem bound) hz)
  | @object ms ns keys _ ih =>
    cases h' with
    | object keys' members =>
      refine .object (fun k => (keys k).trans (keys' k)) fun k x z hx hz => ?_
      obtain ⟨y, hy⟩ : ∃ y, ns.lookup k = some y := by
        refine Option.ne_none_iff_exists'.1 fun missing => ?_
        have absent := OrderedMap.lookup_eq_none.2 fun hk => OrderedMap.lookup_eq_none.1 missing ((keys k).1 hk)
        rw [hx] at absent
        cases absent
      exact ih k x y hx hy (members k y z hy hz)

/-! ## Truth values as numbers -/

mutual

/-- The value with one in the place of `true` and zero in the place of `false`. -/
def asNumbers : Json → Json
  | .bool b => .integer (if b then 1 else 0)
  | .array items => .array (itemsAsNumbers items)
  | .object members => .object (membersAsNumbers members)
  | j => j

def itemsAsNumbers : List Json → List Json
  | [] => []
  | x :: xs => asNumbers x :: itemsAsNumbers xs

def membersAsNumbers : List (String × Json) → List (String × Json)
  | [] => []
  | (k, v) :: ms => (k, asNumbers v) :: membersAsNumbers ms

end

theorem itemsAsNumbers_eq (xs : List Json) : itemsAsNumbers xs = xs.map asNumbers := by
  induction xs with
  | nil => rfl
  | cons x xs ih => rw [itemsAsNumbers, ih, List.map_cons]

theorem membersAsNumbers_eq (ms : Members) : membersAsNumbers ms = ms.map fun p => (p.1, p.2.asNumbers) := by
  induction ms with
  | nil => rfl
  | cons p ms ih => rw [membersAsNumbers, ih, List.map_cons]

theorem array_asNumbers (xs : List Json) : (array xs).asNumbers = .array (xs.map asNumbers) :=
  congrArg array (itemsAsNumbers_eq xs)

theorem object_asNumbers (ms : Members) : (object ms).asNumbers = .object (ms.map fun p => (p.1, p.2.asNumbers)) :=
  congrArg object (membersAsNumbers_eq ms)

theorem alike_array_asNumbers : (array xs).asNumbers.Alike (array ys).asNumbers ↔
    List.Forall₂ (fun x y => x.asNumbers.Alike y.asNumbers) xs ys := by
  rw [array_asNumbers, array_asNumbers]
  constructor
  · intro h
    cases h with
    | array length items =>
      rw [List.length_map, List.length_map] at length
      refine List.forall₂_iff_get.2 ⟨length, fun i hx hy => items i _ _ ?_ ?_⟩
      · simp [hx]
      · simp [hy]
  · intro h
    refine .array (by simpa using h.length_eq) fun i x y hx hy => ?_
    rw [List.getElem?_map, Option.map_eq_some_iff] at hx hy
    obtain ⟨x, hx, rfl⟩ := hx
    obtain ⟨y, hy, rfl⟩ := hy
    obtain ⟨hi, rfl⟩ := List.getElem?_eq_some_iff.1 hx
    obtain ⟨hj, rfl⟩ := List.getElem?_eq_some_iff.1 hy
    exact h.get hi hj

theorem alike_object_asNumbers : (object ms).asNumbers.Alike (object ns).asNumbers ↔
    (∀ k, k ∈ ms.keys ↔ k ∈ ns.keys) ∧
      ∀ k x y, ms.lookup k = some x → ns.lookup k = some y → x.asNumbers.Alike y.asNumbers := by
  have keys (ms : Members) : OrderedMap.keys (ms.map fun p => (p.1, p.2.asNumbers)) = ms.keys := by
    unfold OrderedMap.keys
    rw [List.map_map]
    rfl
  rw [object_asNumbers, object_asNumbers]
  constructor
  · intro h
    cases h with
    | object same members =>
      rw [keys, keys] at same
      refine ⟨same, fun k x y hx hy => members k _ _ ?_ ?_⟩
      · rw [OrderedMap.lookup_map, hx, Option.map_some]
      · rw [OrderedMap.lookup_map, hy, Option.map_some]
  · rintro ⟨same, members⟩
    refine .object (fun k => by rw [keys, keys]; exact same k) fun k x y hx hy => ?_
    rw [OrderedMap.lookup_map, Option.map_eq_some_iff] at hx hy
    obtain ⟨x, hx, rfl⟩ := hx
    obtain ⟨y, hy, rfl⟩ := hy
    exact members k x y hx hy

/-- Values that are alike stay alike. -/
theorem Alike.asNumbers (h : a.Alike b) : a.asNumbers.Alike b.asNumbers := by
  induction h with
  | null => exact .null
  | bool b => exact .number (Number.eq_refl _)
  | number e => exact .number e
  | string s => exact .string s
  | @array xs ys length _ ih =>
    refine alike_array_asNumbers.2 (List.forall₂_iff_get.2 ⟨length, fun i hx hy => ih i _ _ ?_ ?_⟩)
    · simp [hx]
    · simp [hy]
  | object keys _ ih => exact alike_object_asNumbers.2 ⟨keys, ih⟩

/-! ## Distinct keys -/

/-- The members of each object in the value have distinct keys. -/
inductive Keyed : Json → Prop
  | scalar {j : Json} : j.isScalar → Keyed j
  | array {xs : List Json} : (∀ x ∈ xs, Keyed x) → Keyed (.array xs)
  | object {ms : Members} : ms.keys.Nodup → (∀ p ∈ ms, Keyed p.2) → Keyed (.object ms)

theorem Keyed.alike_refl (h : a.Keyed) : a.Alike a := by
  induction h with
  | @scalar j scalar =>
    cases j with
    | null => exact .null
    | bool b => exact .bool b
    | number n => exact .number (Number.eq_refl n)
    | string s => exact .string s
    | array | object => cases scalar
  | array _ ih =>
    refine .array rfl fun i x y hx hy => ?_
    obtain rfl : x = y := Option.some.inj (hx.symm.trans hy)
    exact ih x (List.mem_of_getElem? hx)
  | object _ _ ih =>
    refine .object (fun k => Iff.rfl) fun k x y hx hy => ?_
    obtain rfl : x = y := Option.some.inj (hx.symm.trans hy)
    exact ih (k, x) (mem_of_lookup hx)

/-! ## The equality of values -/

theorem sameItems_iff : sameItems xs ys = true ↔ List.Forall₂ (fun x y => x.same y = true) xs ys := by
  induction xs generalizing ys with
  | nil => cases ys <;> simp [sameItems]
  | cons x xs ih => cases ys <;> simp [sameItems, ih]

theorem sameMembers_iff : sameMembers ms ns = true ↔ ∀ p ∈ ms, ∃ w, ns.lookup p.1 = some w ∧ p.2.same w = true := by
  induction ms with
  | nil => simp [sameMembers]
  | cons p ms ih =>
    rw [sameMembers, Bool.and_eq_true, ih, List.forall_mem_cons]
    refine and_congr_left' ?_
    cases ns.lookup p.1 <;> simp

/-- Objects with distinct keys are the same if they have the same keys, and the same value for each of them. -/
theorem same_object_iff (distinct : ms.keys.Nodup) (distinct' : ns.keys.Nodup) :
    (object ms).same (object ns) = true ↔ (∀ k, k ∈ ms.keys ↔ k ∈ ns.keys) ∧
      ∀ k x y, ms.lookup k = some x → ns.lookup k = some y → x.same y = true := by
  refine Bool.and_eq_true_iff.trans ((and_congr beq_iff_eq sameMembers_iff).trans ⟨?_, ?_⟩)
  · rintro ⟨length, members⟩
    have subset : ms.keys ⊆ ns.keys := by
      intro k hk
      obtain ⟨p, hp, rfl⟩ := List.mem_map.1 hk
      obtain ⟨w, hw, -⟩ := members p hp
      exact List.mem_map.2 ⟨(p.1, w), mem_of_lookup hw, rfl⟩
    have perm : ms.keys.Perm ns.keys :=
      (distinct.subperm subset).perm_of_length_le (by simp [OrderedMap.keys, length])
    refine ⟨fun k => perm.mem_iff, fun k x y hx hy => ?_⟩
    obtain ⟨w, hw, same⟩ := members (k, x) (mem_of_lookup hx)
    obtain rfl : w = y := Option.some.inj (hw.symm.trans hy)
    exact same
  · rintro ⟨shared, members⟩
    have perm : ms.keys.Perm ns.keys := (List.perm_ext_iff_of_nodup distinct distinct').2 shared
    refine ⟨by simpa [OrderedMap.keys] using perm.length_eq, fun p hp => ?_⟩
    have hk : p.1 ∈ ns.keys := (shared p.1).1 (List.mem_map_of_mem hp)
    obtain ⟨w, hw⟩ := Option.ne_none_iff_exists'.1 fun missing => OrderedMap.lookup_eq_none.1 missing hk
    exact ⟨w, hw, members p.1 p.2 w (OrderedMap.lookup_of_mem distinct hp) hw⟩

theorem alike_number {m n : Number} : (number m).Alike (number n) ↔ m.eq n = true := by
  constructor
  · intro h
    cases h with
    | number e => exact e
  · exact .number

/-- A truth value or a number is the same as one that stands for an equal number. -/
theorem same_numeric_iff {m : Number} (h : a.asNumbers = .number m)
    (same : a.same b = b.numeric?.any m.eq) : a.same b = true ↔ a.asNumbers.Alike b.asNumbers := by
  rw [same, h]
  cases b with
  | bool t => exact alike_number.symm
  | number n => exact alike_number.symm
  | null | string | array | object =>
    refine iff_of_false Bool.false_ne_true fun h => ?_
    cases h

theorem same_scalar_iff (ha : a.isScalar) : a.same b = true ↔ a.asNumbers.Alike b.asNumbers := by
  cases a with
  | null =>
    cases b with
    | null => exact iff_of_true rfl .null
    | bool | number | string | array | object =>
      refine iff_of_false Bool.false_ne_true fun h => ?_
      cases h
  | bool t => exact same_numeric_iff rfl rfl
  | number m => exact same_numeric_iff rfl rfl
  | string s =>
    cases b with
    | string t =>
      refine Iff.trans beq_iff_eq ⟨?_, ?_⟩
      · rintro rfl
        exact .string s
      · intro h
        cases h
        rfl
    | null | bool | number | array | object =>
      refine iff_of_false Bool.false_ne_true fun h => ?_
      cases h
  | array | object => cases ha

/-- **The equality of values.** Values with distinct keys are the same exactly if they are alike once truth values are
read as numbers. -/
theorem Keyed.same_iff (ha : a.Keyed) (hb : b.Keyed) : a.same b = true ↔ a.asNumbers.Alike b.asNumbers := by
  induction ha generalizing b with
  | scalar h => exact same_scalar_iff h
  | @array xs _ ih =>
    cases b with
    | array ys =>
      cases hb with
      | scalar h => cases h
      | array hb =>
        rw [alike_array_asNumbers, List.forall₂_iff_get]
        refine sameItems_iff.trans (List.forall₂_iff_get.trans (and_congr_right fun _ => forall_congr' fun i => ?_))
        exact forall₂_congr fun hx hy => ih _ (List.get_mem xs ⟨i, hx⟩) (hb _ (List.get_mem ys ⟨i, hy⟩))
    | null | bool | number | string | object =>
      refine iff_of_false Bool.false_ne_true fun h => ?_
      cases h
  | @object ms keys _ ih =>
    cases b with
    | object ns =>
      cases hb with
      | scalar h => cases h
      | object keys' hb =>
        rw [alike_object_asNumbers, same_object_iff keys keys']
        refine and_congr_right fun _ => forall_congr' fun k => forall₂_congr fun x y => ?_
        exact forall₂_congr fun hx hy => ih (k, x) (mem_of_lookup hx) (hb (k, y) (mem_of_lookup hy))
    | null | bool | number | string | array =>
      refine iff_of_false Bool.false_ne_true fun h => ?_
      cases h

end Json

end ShapeExport
