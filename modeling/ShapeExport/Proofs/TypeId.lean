import Mathlib
import ShapeExport.TypeId

/-!
# Hashes that stay apart

A step of the hash is a bijection of the words: the prime is odd, so it can be taken back.

* `fnvBack`, `fnvBack_fnvStep` : a step is undone;
* `foldl_fnvStep_injective` : so are the steps of any bytes, and what differed before them differs behind them;
* `fnvLoop`, `toNat_fnv1a` : the hash in natural numbers, kept below `2 ^ 64` by a remainder;
* `utf8_injective`, `zero_mem_utf8` : the bytes of a text, and the one character with a zero byte;
* `fnv1a_separates` : inputs that differ in one byte have different hashes, and the hashed bytes tell both names.
-/

namespace ShapeExport

/-! ## Steps that are undone -/

/-- The inverse of the prime modulo `2 ^ 64`. -/
def fnvInverse : UInt64 := 0xce965057aff6957b

/-- The word before a step. -/
def fnvBack (h : UInt64) (byte : UInt8) : UInt64 := h * fnvInverse ^^^ byte.toUInt64

theorem mul_fnvPrime_mul_fnvInverse (h : UInt64) : h * fnvPrime * fnvInverse = h := by
  have unit : fnvPrime * fnvInverse = 1 := by decide
  rw [UInt64.mul_assoc, unit, UInt64.mul_one]

theorem fnvBack_fnvStep (h : UInt64) (byte : UInt8) : fnvBack (fnvStep h byte) byte = h := by
  rw [fnvBack, fnvStep, mul_fnvPrime_mul_fnvInverse, UInt64.xor_assoc, UInt64.xor_self, UInt64.xor_zero]

theorem fnvStep_injective (byte : UInt8) : Function.Injective fun h => fnvStep h byte :=
  Function.LeftInverse.injective (g := fun h => fnvBack h byte) fun h => fnvBack_fnvStep h byte

/-- From one word, different bytes lead to different words. -/
theorem fnvStep_right_injective (h : UInt64) : Function.Injective (fnvStep h) := by
  intro b c e
  have words := congrArg (· * fnvInverse) e
  simp only [fnvStep, mul_fnvPrime_mul_fnvInverse] at words
  exact UInt8.toUInt64_inj.1 ((UInt64.xor_right_inj h).1 words)

theorem foldl_fnvStep_injective (bytes : List UInt8) : Function.Injective fun h => bytes.foldl fnvStep h := by
  induction bytes with
  | nil => exact Function.injective_id
  | cons byte bytes ih => exact ih.comp (fnvStep_injective byte)

/-- The hash of a front, one byte and a rest. -/
theorem fnv1a_append_cons (front : List UInt8) (byte : UInt8) (rest : List UInt8) :
    fnv1a (front ++ byte :: rest) = rest.foldl fnvStep (fnvStep (fnv1a front) byte) := by
  rw [fnv1a, List.foldl_append, List.foldl_cons, fnv1a]

theorem fnv1a_append_cons_inj {front rest : List UInt8} {b c : UInt8} :
    fnv1a (front ++ b :: rest) = fnv1a (front ++ c :: rest) ↔ b = c := by
  rw [fnv1a_append_cons, fnv1a_append_cons, (foldl_fnvStep_injective rest).eq_iff,
    (fnvStep_right_injective _).eq_iff]

/-! ## In natural numbers -/

/-- The hash in natural numbers. -/
def fnvLoop (bytes : List UInt8) : Nat :=
  bytes.foldl (fun value byte => (value ^^^ byte.toNat) * 0x100000001b3 % 2 ^ 64) 0xcbf29ce484222325

theorem toNat_fnvStep (h : UInt64) (byte : UInt8) :
    (fnvStep h byte).toNat = (h.toNat ^^^ byte.toNat) * 0x100000001b3 % 2 ^ 64 := by
  rw [fnvStep, UInt64.toNat_mul, UInt64.toNat_xor, UInt8.toNat_toUInt64]
  rfl

theorem toNat_fnv1a (bytes : List UInt8) : (fnv1a bytes).toNat = fnvLoop bytes := by
  have run (h : UInt64) : (bytes.foldl fnvStep h).toNat =
      bytes.foldl (fun value byte => (value ^^^ byte.toNat) * 0x100000001b3 % 2 ^ 64) h.toNat := by
    induction bytes generalizing h with
    | nil => rfl
    | cons byte bytes ih => rw [List.foldl_cons, List.foldl_cons, ih, toNat_fnvStep]
  exact run fnvOffset

theorem fnvLoop_lt (bytes : List UInt8) : fnvLoop bytes < 2 ^ 64 :=
  toNat_fnv1a bytes ▸ (fnv1a bytes).toNat_lt

/-! ## Bytes of names -/

theorem utf8_injective : Function.Injective utf8 := by
  intro s t h
  exact String.toByteArray_inj.1 (ByteArray.ext (Array.toList_inj.1 h))

theorem utf8_eq (s : String) : utf8 s = s.toList.flatMap String.utf8EncodeChar := by
  have bytes : s.toByteArray = s.toList.utf8Encode := String.utf8Encode_toList.symm
  show s.toByteArray.data.toList = _
  rw [bytes, List.utf8Encode, List.data_toByteArray]

/-- A longer character has a mark in each of its bytes. -/
theorem eq_zero_of_zero_mem_utf8EncodeChar {c : Char} (h : 0 ∈ String.utf8EncodeChar c) : c = '\x00' := by
  have marked {bits mark : UInt8} (set : mark ≠ 0) : 0 ≠ bits ||| mark :=
    fun e => set (UInt8.or_eq_zero_iff.1 e.symm).2
  rcases Char.utf8Size_eq c with one | two | three | four
  · rw [String.utf8EncodeChar_eq_singleton one, List.mem_singleton] at h
    have short : c.val.toNat ≤ 127 := UInt32.le_iff_toNat_le.1 (Char.utf8Size_eq_one_iff.1 one)
    have byte : c.val.toNat % 256 = 0 := by
      rw [← UInt32.toNat_toUInt8, ← h]
      rfl
    exact Char.toNat_inj.1 (show c.val.toNat = 0 by omega)
  · simp only [String.utf8EncodeChar_eq_cons_cons two, List.mem_cons, List.not_mem_nil, or_false] at h
    rcases h with e | e <;> exact absurd e (marked (by decide))
  · simp only [String.utf8EncodeChar_eq_cons_cons_cons three, List.mem_cons, List.not_mem_nil, or_false] at h
    rcases h with e | e | e <;> exact absurd e (marked (by decide))
  · simp only [String.utf8EncodeChar_eq_cons_cons_cons_cons four, List.mem_cons, List.not_mem_nil, or_false] at h
    rcases h with e | e | e | e <;> exact absurd e (marked (by decide))

/-- Only the character zero has a zero byte. -/
theorem zero_mem_utf8 {s : String} (h : 0 ∈ utf8 s) : '\x00' ∈ s.toList := by
  rw [utf8_eq] at h
  obtain ⟨c, hc, zero⟩ := List.mem_flatMap.1 h
  exact eq_zero_of_zero_mem_utf8EncodeChar zero ▸ hc

theorem takeWhile_append_zero {front : List UInt8} (h : 0 ∉ front) (rest : List UInt8) :
    (front ++ 0 :: rest).takeWhile (· != 0) = front := by
  have free : ∀ b ∈ front, (b != 0) = true := by
    intro b hb
    rw [bne_iff_ne]
    rintro rfl
    exact h hb
  rw [List.takeWhile_append_of_pos free, List.takeWhile_cons_of_neg (by decide), List.append_nil]

/-- Without a zero in it, the short name ends in front of the first zero byte. -/
theorem nameBytes_inj {short short' unique unique' : String} (h : '\x00' ∉ short.toList)
    (h' : '\x00' ∉ short'.toList) :
    nameBytes short unique = nameBytes short' unique' ↔ short = short' ∧ unique = unique' := by
  constructor
  · intro e
    have fronts := congrArg (List.takeWhile (· != 0)) e
    rw [nameBytes, nameBytes, takeWhile_append_zero (mt zero_mem_utf8 h),
      takeWhile_append_zero (mt zero_mem_utf8 h')] at fronts
    rw [nameBytes, nameBytes, fronts] at e
    have rests := (List.cons.inj (List.append_cancel_left e)).2
    exact ⟨utf8_injective fronts, utf8_injective rests⟩
  · rintro ⟨rfl, rfl⟩
    rfl

/-! ## Hashes and what they are made of -/

/-- **The hash separates.** Bytes that differ in one place have different hashes. The hash is the word that the loop
in natural numbers comes to, and below `2 ^ 64`. And the bytes that are hashed for a short name without a zero and a
unique name tell both of them. -/
theorem fnv1a_separates :
    (∀ (p q : List UInt8) (b c : UInt8), b ≠ c → fnv1a (p ++ b :: q) ≠ fnv1a (p ++ c :: q)) ∧
    (∀ bytes, (fnv1a bytes).toNat = fnvLoop bytes ∧ fnvLoop bytes < 2 ^ 64) ∧
    (∀ short unique, (TypeId.ofName short unique).key.hash = fnvLoop (nameBytes short unique)) ∧
    ∀ short short' unique unique' : String, '\x00' ∉ short.toList → '\x00' ∉ short'.toList →
      nameBytes short unique = nameBytes short' unique' → short = short' ∧ unique = unique' := by
  refine ⟨fun p q b c ne => ?_, fun bytes => ⟨toNat_fnv1a bytes, fnvLoop_lt bytes⟩, fun short unique => ?_,
    fun short short' unique unique' h h' e => (nameBytes_inj h h').1 e⟩
  · exact mt fnv1a_append_cons_inj.1 ne
  · exact toNat_fnv1a (nameBytes short unique)

/-- One name in two modules, and two names whose joined texts are the same. -/
theorem fnv1a_separates_widgets :
    (0x61 : UInt8) ≠ 0x62 ∧
    nameBytes "Widget" "a.Widget" = utf8 "Widget\x00" ++ 0x61 :: utf8 ".Widget" ∧
    nameBytes "Widget" "b.Widget" = utf8 "Widget\x00" ++ 0x62 :: utf8 ".Widget" ∧
    (TypeId.ofName "Widget" "a.Widget").key ≠ (TypeId.ofName "Widget" "b.Widget").key ∧
    fnvLoop (nameBytes "Widget" "a.Widget") < 2 ^ 64 ∧
    '\x00' ∉ "AB".toList ∧ '\x00' ∉ "A".toList ∧ nameBytes "AB" "x.Y" ≠ nameBytes "A" "Bx.Y" := by
  obtain ⟨apart, bounded, hash, tells⟩ := fnv1a_separates
  have first : nameBytes "Widget" "a.Widget" = utf8 "Widget\x00" ++ 0x61 :: utf8 ".Widget" := by decide
  have second : nameBytes "Widget" "b.Widget" = utf8 "Widget\x00" ++ 0x62 :: utf8 ".Widget" := by decide
  refine ⟨by decide, first, second, fun e => ?_, (bounded _).2, by decide, by decide, fun e => ?_⟩
  · refine apart (utf8 "Widget\x00") (utf8 ".Widget") 0x61 0x62 (by decide) (UInt64.toNat_inj.1 ?_)
    rw [← first, ← second, (bounded _).1, (bounded _).1, ← hash, ← hash]
    exact congrArg TypeKey.hash e
  · exact absurd (tells "AB" "A" "x.Y" "Bx.Y" (by decide) (by decide) e).1 (by decide)

end ShapeExport
