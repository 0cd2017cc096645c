import Mathlib
import ShapeExport.Naming

/-!
# Literals and keys that are read back

* `Text.hexNumber?_hexDigits` : digits stand for the number that they were made of;
* `Text.escape?_unit` : the escape of a unit, which takes the low half of a pair along;
* `Text.readLiteral?_literal` : a literal is read back as its text;
* `Text.literal_injective`, `Language.propertyKey_injective` : so different texts have different literals, and
  different keys are written differently.
-/

namespace ShapeExport

namespace Text

variable {rest : List Char} {repertoire : Repertoire}

/-! ## Units -/

theorem hexNumber?_concat {cs : List Char} (h : cs ≠ []) (c : Char) :
    hexNumber? (cs ++ [c]) = (hexNumber? cs).bind fun n => (hexValue? c).map (16 * n + ·) := by
  simp [hexNumber?, h, List.foldlM_append]

/-- One digit more, behind a filled numeral. -/
theorem hexDigits_concat {w n d : Nat} (hd : d < 16) :
    hexDigits (w + 2) (16 * n + d) = hexDigits (w + 1) n ++ [d.digitChar] := by
  unfold hexDigits
  rw [Nat.toDigits_eq_if (by decide)]
  rcases Nat.eq_zero_or_pos n with rfl | hn
  · rw [if_pos (by omega), Nat.toDigits_zero]
    simp [List.replicate_succ']
  · rw [if_neg (by omega), show (16 * n + d) / 16 = n by omega, show (16 * n + d) % 16 = d by omega]
    dsimp only
    rw [List.length_append, List.length_singleton, ← List.append_assoc,
      show w + 2 - ((Nat.toDigits 16 n).length + 1) = w + 1 - (Nat.toDigits 16 n).length by omega]

theorem hexNumber?_hexDigits (w : Nat) {n : Nat} (h : n < 16 ^ (w + 1)) :
    (hexDigits (w + 1) n).length = w + 1 ∧ hexNumber? (hexDigits (w + 1) n) = some n := by
  induction w generalizing n with
  | zero =>
    have single : ∀ n < 16, (hexDigits 1 n).length = 1 ∧ hexNumber? (hexDigits 1 n) = some n := by decide
    exact single n h
  | succ w ih =>
    have value : ∀ d < 16, hexValue? d.digitChar = some d := by decide
    have digit : n % 16 < 16 := Nat.mod_lt _ (by decide)
    obtain ⟨length, number⟩ := ih (n := n / 16) (by rw [pow_succ] at h; omega)
    have ne : hexDigits (w + 1) (n / 16) ≠ [] := by
      intro e
      rw [e] at length
      cases length
    rw [← Nat.div_add_mod n 16, hexDigits_concat digit, hexNumber?_concat ne, number]
    simp [length, value _ digit]

theorem escape?_unit {n : Nat} (h : n < 0x10000) (rest : List Char) :
    escape? ('u' :: (hexDigits 4 n ++ rest)) = some (completeUnit n rest) := by
  obtain ⟨four, number⟩ := hexNumber?_hexDigits 3 (n := n) h
  obtain ⟨d₁, d₂, d₃, d₄, e⟩ := List.length_eq_four.1 four
  rw [e] at number ⊢
  show (unit? d₁ d₂ d₃ d₄).map (completeUnit · rest) = _
  rw [unit?, number, Option.map_some]

/-- A unit that is no surrogate is a character. -/
theorem completeUnit_of_char {c : Char} (h : c.toNat < 0x10000) : completeUnit c.toNat rest = (c, rest) := by
  have valid : c.toNat < 0xd800 ∨ 0xdfff < c.toNat := by
    rcases c.valid with hv | hv
    · exact Or.inl hv
    · exact Or.inr hv.1
  have noPair (low : Nat) : surrogatePair? c.toNat low = none := if_neg (by omega)
  have unit : unitChar c.toNat = c := by rw [unitChar, if_neg (by omega), Char.ofNat_toNat]
  unfold completeUnit
  split
  · cases unit? _ _ _ _ <;> simp [noPair, unit]
  · rw [unit]

/-- A high surrogate and the low one behind it are one character. -/
theorem completeUnit_pair {high low : Nat} (hlow : low < 0x10000) {c : Char}
    (pair : surrogatePair? high low = some c) : completeUnit high (unitEscape low ++ rest) = (c, rest) := by
  obtain ⟨four, number⟩ := hexNumber?_hexDigits 3 (n := low) hlow
  obtain ⟨d₁, d₂, d₃, d₄, e⟩ := List.length_eq_four.1 four
  rw [e] at number
  have unit : (unit? d₁ d₂ d₃ d₄).bind (surrogatePair? high) = some c := by rw [unit?, number, Option.bind_some, pair]
  rw [unitEscape, e]
  show completeUnit high ('\\' :: 'u' :: d₁ :: d₂ :: d₃ :: d₄ :: rest) = _
  simp only [completeUnit, unit]

/-! ## Literals -/

theorem escape?_letter {letter c : Char} (h : (letter, c) ∈ letterEscapes) :
    escape? (letter :: rest) = some (c, rest) := by
  simp only [letterEscapes, List.mem_cons, List.not_mem_nil, or_false, Prod.mk.injEq] at h
  rcases h with ⟨rfl, rfl⟩ | ⟨rfl, rfl⟩ | ⟨rfl, rfl⟩ | ⟨rfl, rfl⟩ | ⟨rfl, rfl⟩ | ⟨rfl, rfl⟩ | ⟨rfl, rfl⟩ <;> rfl

theorem readLiteral?_escape {c : Char} {escaped : List Char} (h : escape? (escaped ++ rest) = some (c, rest)) :
    readLiteral? ('\\' :: escaped ++ rest) = (readLiteral? rest).map fun p => (c :: p.1, p.2) := by
  rw [List.cons_append, readLiteral?, if_neg (by decide), if_pos rfl]
  split
  · next e => cases e.symm.trans h
  · next e =>
    cases e.symm.trans h
    cases readLiteral? rest <;> rfl

theorem readLiteral?_unitEscape {c : Char} (h : c.toNat < 0x10000) :
    readLiteral? (unitEscape c.toNat ++ rest) = (readLiteral? rest).map fun p => (c :: p.1, p.2) := by
  refine readLiteral?_escape ?_
  rw [List.cons_append, escape?_unit h, completeUnit_of_char h]

theorem readLiteral?_unicodeEscape (c : Char) :
    readLiteral? (unicodeEscape c ++ rest) = (readLiteral? rest).map fun p => (c :: p.1, p.2) := by
  unfold unicodeEscape
  split
  · next h => exact readLiteral?_unitEscape h
  · next h =>
    have small : c.toNat < 0x110000 := by
      rcases c.valid with hv | hv
      · exact Nat.lt_trans hv (by decide)
      · exact hv.2
    have pair : surrogatePair? (0xd800 + (c.toNat - 0x10000) / 0x400) (0xdc00 + (c.toNat - 0x10000) % 0x400) =
        some c := by
      rw [surrogatePair?, if_pos (by omega)]
      rw [show 0x10000 + (0xd800 + (c.toNat - 0x10000) / 0x400 - 0xd800) * 0x400 +
        (0xdc00 + (c.toNat - 0x10000) % 0x400 - 0xdc00) = c.toNat by omega, Char.ofNat_toNat]
    have both (high low : Nat) : unitEscape high ++ unitEscape low ++ rest =
        '\\' :: ('u' :: (hexDigits 4 high ++ unitEscape low)) ++ rest := by simp [unitEscape]
    rw [both]
    refine readLiteral?_escape ?_
    rw [List.cons_append, List.append_assoc, escape?_unit (by omega), completeUnit_pair (by omega) pair]

theorem readLiteral?_literalChar (repertoire : Repertoire) (c : Char) :
    readLiteral? (literalChar repertoire c ++ rest) = (readLiteral? rest).map fun p => (c :: p.1, p.2) := by
  unfold literalChar
  split
  · next letter d found =>
    obtain rfl : d = c := by simpa using List.find?_some found
    exact readLiteral?_escape (escape?_letter (List.mem_of_find?_eq_some found))
  · next none =>
    split
    · next control => exact readLiteral?_unitEscape (by omega)
    · next printable =>
      split
      · exact readLiteral?_unicodeEscape c
      · have plain : ∀ p ∈ letterEscapes, p.2 ≠ c := by
          intro p hp e
          exact List.find?_eq_none.1 none p hp (decide_eq_true e)
        have quote : c ≠ '"' := fun e => plain ('"', '"') (by decide) e.symm
        have backslash : c ≠ '\\' := fun e => plain ('\\', '\\') (by decide) e.symm
        rw [List.singleton_append, readLiteral?, if_neg quote, if_neg backslash, if_neg printable]
        cases readLiteral? rest <;> rfl

/-- A literal is read back as its text. -/
theorem readLiteral?_literal (repertoire : Repertoire) (cs rest : List Char) :
    readLiteral? (cs.flatMap (literalChar repertoire) ++ '"' :: rest) = some (cs, rest) := by
  induction cs with
  | nil => rw [List.flatMap_nil, List.nil_append, readLiteral?, if_pos rfl]
  | cons c cs ih => rw [List.flatMap_cons, List.append_assoc, readLiteral?_literalChar, ih, Option.map_some]

theorem literal_injective (repertoire : Repertoire) : Function.Injective (literal repertoire) := by
  intro s t h
  have chars : literalChars repertoire s.toList = literalChars repertoire t.toList := String.ofList_injective h
  have bodies := List.append_cancel_right (List.cons.inj chars).2
  have read := readLiteral?_literal repertoire s.toList []
  rw [bodies, readLiteral?_literal repertoire t.toList []] at read
  exact String.toList_inj.1 (Prod.mk.inj (Option.some.inj read)).1.symm

end Text

/-! ## Property keys -/

theorem ne_quote_of_isIdentifierStart {c : Char} (h : isIdentifierStart c) : c ≠ '"' := by
  rintro rfl
  cases h

/-- What is written without quotes does not start with one. -/
theorem head?_ne_of_isPlainKey {key : String} (h : isPlainKey key) : key.toList.head? ≠ some '"' := by
  have start : ∀ cs : List Char, isIdentifierChars cs → cs.head? ≠ some '"' := by
    intro cs hcs
    cases cs with
    | nil => cases hcs
    | cons c cs =>
      rw [isIdentifierChars, Bool.and_eq_true] at hcs
      exact fun e => ne_quote_of_isIdentifierStart hcs.1 (Option.some.inj e)
  unfold isPlainKey at h
  rw [Bool.or_eq_true, Bool.and_eq_true] at h
  rcases h with h | ⟨-, h⟩
  · exact start _ h
  · have prefixed : key.toList.dropLast.head? ≠ some '"' := start _ h
    cases hk : key.toList with
    | nil => exact (Option.some_ne_none _).symm
    | cons c cs =>
      cases cs with
      | nil =>
        rw [hk] at h
        cases h
      | cons d cs =>
        rw [hk] at prefixed
        exact prefixed

theorem Language.propertyKey_injective (l : Language) : Function.Injective l.propertyKey := by
  have quoted (s : String) : (Text.literal .ascii s).toList.head? = some '"' := by
    simp [Text.literal, Text.literalChars]
  intro s t h
  unfold propertyKey at h
  split at h
  · next hs =>
    rw [Bool.and_eq_true] at hs
    split at h
    · exact h
    · exact absurd (h ▸ quoted t) (head?_ne_of_isPlainKey hs.1)
  · split at h
    · next ht =>
      rw [Bool.and_eq_true] at ht
      exact absurd (h ▸ quoted s) (head?_ne_of_isPlainKey ht.1)
    · exact Text.literal_injective .ascii h

end ShapeExport
