import Mathlib
import ShapeExport.Casing
import ShapeExport.Proofs.Text.Pieces

/-!
# Casings that lose no name

The rules for variants put separators in front of capitals, the rules for fields cut at separators. On names of ASCII
letters and digits that start with a capital they undo each other.

* `isVariantName` : these names;
* `pascalChars_snakeChars` : a name comes back from its snake form;
* `upper_undone`, `undashed_dashed` : what capitals and dashes replace in a snake form can be put back;
* `onField_onVariant_snake` : a rule on the snake form of a name is the rule on the name;
* `wordwise`, `onVariant_injOn` : the rules that keep different names apart.
-/

namespace ShapeExport.Casing
open Text (upperChar lowerChar splitChars)

/-! ## Names of variants -/

/-- ASCII letters and digits, with a capital in front. -/
def isVariantChars : List Char → Bool
  | [] => false
  | c :: cs => c.isUpper && cs.all Char.isAlphanum

def isVariantName (s : String) : Bool := isVariantChars s.toList

variable {c : Char} {cs ds : List Char}

theorem isVariantChars_cons : isVariantChars (c :: cs) ↔ c.isUpper ∧ ∀ d ∈ cs, d.isAlphanum := by
  simp [isVariantChars]

theorem exists_cons_of_isVariantChars (h : isVariantChars cs) :
    ∃ c rest, cs = c :: rest ∧ c.isUpper ∧ ∀ d ∈ rest, d.isAlphanum := by
  cases cs with
  | nil => cases h
  | cons c rest => exact ⟨c, rest, rfl, isVariantChars_cons.1 h⟩

/-! ## ASCII characters -/

theorem isAlphanum_of_isUpper (h : c.isUpper) : c.isAlphanum := by
  simp [Char.isAlphanum, Char.isAlpha, h]

theorem isAscii_of_isAlphanum (h : c.isAlphanum) : c.toNat < 0x80 := by
  simp only [Char.isAlphanum, Char.isAlpha, Char.isUpper, Char.isLower, Char.isDigit, Bool.or_eq_true,
    Bool.and_eq_true, decide_eq_true_eq, UInt32.le_iff_toNat_le, ge_iff_le] at h
  show c.val.toNat < 0x80
  have Z : 'Z'.val.toNat = 90 := rfl
  have z : 'z'.val.toNat = 122 := rfl
  have nine : '9'.val.toNat = 57 := rfl
  omega

theorem lowerChar_of_isAscii (h : c.toNat < 0x80) : lowerChar c = [c.toLower] := if_pos h

theorem upperChar_of_isAscii (h : c.toNat < 0x80) : upperChar c = [c.toUpper] := if_pos h

/-- The characters of a snake form: small letters, digits and underscores. -/
def isSnake (c : Char) : Bool := c == '_' || c.isAlphanum && !c.isUpper

theorem isSnake_iff : isSnake c ↔ c = '_' ∨ c.isAlphanum ∧ ¬ c.isUpper := by
  simp [isSnake]

theorem isSnake_toLower (h : c.isAlphanum) : isSnake c.toLower := by
  refine isSnake_iff.2 (Or.inr ⟨?_, by simp⟩)
  by_cases hc : c.isUpper
  · have alpha : c.toLower.isAlpha := by simp [Char.isAlpha, hc]
    simp [Char.isAlphanum, alpha]
  · rwa [Char.toLower_eq_of_not_isUpper hc]

theorem toLower_ne_underscore (h : c.isUpper) : c.toLower ≠ '_' := by
  intro e
  have alpha : c.toLower.isAlpha := by simp [Char.isAlpha, h]
  rw [e] at alpha
  cases alpha

theorem toUpper_toLower_of_isUpper (h : c.isUpper) : c.toLower.toUpper = c := by
  rw [Char.toUpper_toLower_eq_toUpper, Char.toUpper_eq_of_not_isLower (Char.not_isLower_of_isUpper h)]

section Snake

variable (h : isSnake c)
include h

theorem isAscii_of_isSnake : c.toNat < 0x80 := by
  rcases isSnake_iff.1 h with rfl | ⟨word, -⟩
  · decide
  · exact isAscii_of_isAlphanum word

theorem toLower_toUpper_of_isSnake : c.toUpper.toLower = c := by
  rw [Char.toLower_toUpper_eq_toLower]
  apply Char.toLower_eq_of_not_isUpper
  rcases isSnake_iff.1 h with rfl | ⟨-, small⟩
  · decide
  · exact small

theorem ne_dash_of_isSnake : c ≠ '-' := by
  rintro rfl
  cases h

/-- The capital of a dash is a dash. -/
theorem toUpper_ne_dash_of_isSnake : c.toUpper ≠ '-' := by
  intro e
  have back := toLower_toUpper_of_isSnake h
  rw [e] at back
  exact ne_dash_of_isSnake h back.symm

theorem isAscii_toUpper_of_isSnake : c.toUpper.toNat < 0x80 := by
  by_cases small : c.isLower
  · have alpha : c.toUpper.isAlpha := by simp [Char.isAlpha, small]
    exact isAscii_of_isAlphanum (by simp [Char.isAlphanum, alpha])
  · rw [Char.toUpper_eq_of_not_isLower small]
    exact isAscii_of_isSnake h

end Snake

/-! ## Snake forms -/

/-- A capital starts a word. -/
theorem snakeChar_of_isAlphanum (h : c.isAlphanum) : snakeChar c = if c.isUpper then ['_', c.toLower] else [c] := by
  have ascii := isAscii_of_isAlphanum h
  have capital : Text.isCapital c = c.isUpper := if_pos ascii
  rw [snakeChar, capital, lowerChar_of_isAscii ascii]
  split
  · rfl
  · next small => rw [Char.toLower_eq_of_not_isUpper small]

theorem isSnake_of_mem_snakeChar (h : c.isAlphanum) {d : Char} (hd : d ∈ snakeChar c) : isSnake d := by
  rw [snakeChar_of_isAlphanum h] at hd
  split at hd
  · rcases List.mem_cons.1 hd with rfl | hd
    · rfl
    · exact List.mem_singleton.1 hd ▸ isSnake_toLower h
  · next small => exact List.mem_singleton.1 hd ▸ isSnake_iff.2 (Or.inr ⟨h, small⟩)

theorem snakeChars_cons (h : c.isUpper) : snakeChars (c :: cs) = c.toLower :: cs.flatMap snakeChar := by
  rw [snakeChars, lowerChar_of_isAscii (isAscii_of_isAlphanum (isAlphanum_of_isUpper h)), List.singleton_append]

theorem isSnake_of_mem_snakeChars (h : isVariantChars cs) {d : Char} (hd : d ∈ snakeChars cs) : isSnake d := by
  obtain ⟨c, rest, rfl, capital, word⟩ := exists_cons_of_isVariantChars h
  rw [snakeChars_cons capital] at hd
  rcases List.mem_cons.1 hd with rfl | hd
  · exact isSnake_toLower (isAlphanum_of_isUpper capital)
  · obtain ⟨e, he, hd⟩ := List.mem_flatMap.1 hd
    exact isSnake_of_mem_snakeChar (word e he) hd

/-! ## Words of snake forms -/

theorem mapFirst_append (f : Char → List Char) {front : List Char} (h : front ≠ []) (rest : List Char) :
    mapFirst f (front ++ rest) = mapFirst f front ++ rest := by
  cases front with
  | nil => exact absurd rfl h
  | cons c front => simp [mapFirst]

theorem pascalChars_append (word rest : List Char) (h : '_' ∉ word) :
    pascalChars (word ++ '_' :: rest) = mapFirst upperChar word ++ pascalChars rest := by
  rw [pascalChars, Text.splitChars_append h, List.flatMap_cons, pascalChars]

/-- A word that has begun, and the snake form of what follows. The induction takes one character of the name at a
time: a capital ends the word, and all else goes on with it. -/
theorem pascalChars_append_flatMap {word : List Char} (start : word ≠ []) (whole : '_' ∉ word)
    (h : ∀ d ∈ cs, d.isAlphanum) :
    pascalChars (word ++ cs.flatMap snakeChar) = mapFirst upperChar word ++ cs := by
  induction cs generalizing word with
  | nil => simp [pascalChars, Text.splitChars_of_not_mem whole]
  | cons c cs ih =>
    rw [List.forall_mem_cons] at h
    rw [List.flatMap_cons, snakeChar_of_isAlphanum h.1]
    split
    · next capital =>
      have next : pascalChars ([c.toLower] ++ cs.flatMap snakeChar) = mapFirst upperChar [c.toLower] ++ cs :=
        ih (List.cons_ne_nil _ _) (by simpa using (toLower_ne_underscore capital).symm) h.2
      have ascii : c.toLower.toNat < 0x80 := isAscii_of_isSnake (isSnake_toLower h.1)
      have first : mapFirst upperChar [c.toLower] = [c] := by
        rw [mapFirst, upperChar_of_isAscii ascii, toUpper_toLower_of_isUpper capital, List.append_nil]
      rw [List.cons_append, pascalChars_append _ _ whole, next, first, List.singleton_append]
    · next small =>
      have underscore : c ≠ '_' := by
        rintro rfl
        cases h.1
      have longer : '_' ∉ word ++ [c] := by simpa using ⟨whole, underscore.symm⟩
      rw [← List.append_assoc, ih (List.append_ne_nil_of_left_ne_nil start _) longer h.2, mapFirst_append _ start,
        List.append_assoc, List.singleton_append]

/-- A name comes back from its snake form. -/
theorem pascalChars_snakeChars (h : isVariantChars cs) : pascalChars (snakeChars cs) = cs := by
  obtain ⟨c, rest, rfl, capital, word⟩ := exists_cons_of_isVariantChars h
  have ascii : c.toLower.toNat < 0x80 := isAscii_of_isSnake (isSnake_toLower (isAlphanum_of_isUpper capital))
  have run := pascalChars_append_flatMap (List.cons_ne_nil c.toLower [])
    (by simpa using (toLower_ne_underscore capital).symm) word
  rw [snakeChars_cons capital, ← List.singleton_append, run, mapFirst, upperChar_of_isAscii ascii,
    toUpper_toLower_of_isUpper capital]
  rfl

/-! ## Capitals and dashes -/

/-- Capitals are taken back. -/
theorem upper_undone (h : ∀ d ∈ cs, isSnake d) : (cs.flatMap upperChar).flatMap lowerChar = cs := by
  induction cs with
  | nil => rfl
  | cons c cs ih =>
    rw [List.forall_mem_cons] at h
    rw [List.flatMap_cons, List.flatMap_append, ih h.2, upperChar_of_isAscii (isAscii_of_isSnake h.1),
      List.flatMap_singleton, lowerChar_of_isAscii (isAscii_toUpper_of_isSnake h.1),
      toLower_toUpper_of_isSnake h.1, List.singleton_append]

theorem ne_dash_of_mem_upper (h : ∀ d ∈ cs, isSnake d) {d : Char} (hd : d ∈ cs.flatMap upperChar) : d ≠ '-' := by
  obtain ⟨c, hc, hd⟩ := List.mem_flatMap.1 hd
  rw [upperChar_of_isAscii (isAscii_of_isSnake (h c hc)), List.mem_singleton] at hd
  exact hd ▸ toUpper_ne_dash_of_isSnake (h c hc)

/-- Underscores for dashes. -/
def undashed (cs : List Char) : List Char := cs.map fun c => if c = '-' then '_' else c

theorem undashed_dashed (h : ∀ d ∈ cs, d ≠ '-') : undashed (dashed cs) = cs := by
  rw [undashed, dashed, List.map_map]
  refine (List.map_congr_left fun c hc => ?_).trans (List.map_id cs)
  have plain := h c hc
  by_cases hu : c = '_' <;> simp [hu, plain]

theorem eq_of_dashed (h : ∀ d ∈ cs, d ≠ '-') (h' : ∀ d ∈ ds, d ≠ '-') (e : dashed cs = dashed ds) : cs = ds := by
  rw [← undashed_dashed h, e, undashed_dashed h']

/-! ## Rules that lose nothing -/

/-- The rules that keep the words of a name apart. -/
def wordwise : List Casing := [camel, snake, screamingSnake, kebab, screamingKebab]

theorem mem_wordwise {rule : Casing} :
    rule ∈ wordwise ↔ rule = camel ∨ rule = snake ∨ rule = screamingSnake ∨ rule = kebab ∨ rule = screamingKebab := by
  simp [wordwise]

section Injective

variable (hc : isVariantChars cs) (hd : isVariantChars ds)
include hc hd

theorem eq_of_snakeChars (e : snakeChars cs = snakeChars ds) : cs = ds := by
  rw [← pascalChars_snakeChars hc, e, pascalChars_snakeChars hd]

theorem eq_of_mapFirst_lowerChar (e : mapFirst lowerChar cs = mapFirst lowerChar ds) : cs = ds := by
  obtain ⟨c, cs, rfl, capital, -⟩ := exists_cons_of_isVariantChars hc
  obtain ⟨d, ds, rfl, capital', -⟩ := exists_cons_of_isVariantChars hd
  rw [mapFirst, mapFirst, lowerChar_of_isAscii (isAscii_of_isAlphanum (isAlphanum_of_isUpper capital)),
    lowerChar_of_isAscii (isAscii_of_isAlphanum (isAlphanum_of_isUpper capital'))] at e
  obtain ⟨first, rest⟩ := List.cons.inj e
  rw [← toUpper_toLower_of_isUpper capital, first, toUpper_toLower_of_isUpper capital']
  exact congrArg (d :: ·) rest

theorem eq_of_upper_snakeChars (e : (snakeChars cs).flatMap upperChar = (snakeChars ds).flatMap upperChar) :
    cs = ds := by
  have back := congrArg (List.flatMap lowerChar) e
  rw [upper_undone fun d => isSnake_of_mem_snakeChars hc, upper_undone fun d => isSnake_of_mem_snakeChars hd] at back
  exact eq_of_snakeChars hc hd back

theorem eq_of_variantChars {rule : Casing} (hr : rule ∈ wordwise) (e : rule.variantChars cs = rule.variantChars ds) :
    cs = ds := by
  have snakes {es : List Char} (he : isVariantChars es) : ∀ d ∈ snakeChars es, isSnake d :=
    fun d => isSnake_of_mem_snakeChars he
  have plain {es : List Char} (he : isVariantChars es) : ∀ d ∈ snakeChars es, d ≠ '-' :=
    fun d hd => ne_dash_of_isSnake (snakes he d hd)
  have plain' {es : List Char} (he : isVariantChars es) : ∀ d ∈ (snakeChars es).flatMap upperChar, d ≠ '-' :=
    fun d hd => ne_dash_of_mem_upper (snakes he) hd
  rcases mem_wordwise.1 hr with rfl | rfl | rfl | rfl | rfl
  · exact eq_of_mapFirst_lowerChar hc hd e
  · exact eq_of_snakeChars hc hd e
  · exact eq_of_upper_snakeChars hc hd e
  · exact eq_of_snakeChars hc hd (eq_of_dashed (plain hc) (plain hd) e)
  · exact eq_of_upper_snakeChars hc hd (eq_of_dashed (plain' hc) (plain' hd) e)

end Injective

/-! ## Names -/

/-- A rule on the snake form of a name is the rule on the name. -/
theorem onField_onVariant_snake {rule : Casing} (hr : rule ∈ pascal :: wordwise) {v : String} (h : isVariantName v) :
    rule.onField (snake.onVariant v) = rule.onVariant v := by
  rw [onField, onVariant, onVariant, String.toList_ofList]
  refine congrArg String.ofList ?_
  rcases List.mem_cons.1 hr with rfl | hr
  · exact pascalChars_snakeChars h
  rcases mem_wordwise.1 hr with rfl | rfl | rfl | rfl | rfl
  · exact congrArg (mapFirst lowerChar) (pascalChars_snakeChars h)
  · rfl
  · rfl
  · rfl
  · rfl

/-- Different names stay different. -/
theorem onVariant_injOn {rule : Casing} (hr : rule ∈ wordwise) : Set.InjOn rule.onVariant {v | isVariantName v} := by
  intro v hv w hw e
  exact String.toList_inj.1 (eq_of_variantChars hv hw hr (String.ofList_injective e))

end ShapeExport.Casing
