import Mathlib
import ShapeExport.Json.Printer
import ShapeExport.Json.Token
import ShapeExport.Proofs.Number.Shortest
import ShapeExport.Proofs.Script.Scanning
import ShapeExport.Proofs.Text.Literals

/-!
# Tokens of written JSON

What is written is read as the tokens that it was written from.

* `Json.numberOf?_toDigits`, `Json.numberOf?_magnitude` : the digits of a number are read up to what stops them;
* `Json.Token.scan_lineBreak`, `Json.Token.scan_literal`, `Json.Token.scan_number` : tokens and blanks.
-/

namespace ShapeExport

namespace Json

/-! ## Numbers -/

/-- Digits, at least one. -/
def IsDigits (cs : List Char) : Prop := cs ≠ [] ∧ ∀ c ∈ cs, c.isDigit

/-- No digit comes next. -/
def EndsDigits (rest : List Char) : Prop := ∀ c, rest.head? = some c → c.isDigit = false

/-- A comma or a line break comes next: what stands behind the items of arrays and objects. -/
def Stops (rest : List Char) : Prop := rest.head? = some ',' ∨ rest.head? = some '\n'

variable {cs ds rest : List Char}

theorem IsDigits.append (hc : IsDigits cs) (hd : ∀ c ∈ ds, c.isDigit) : IsDigits (cs ++ ds) :=
  ⟨List.append_ne_nil_of_left_ne_nil hc.1 ds, List.forall_mem_append.2 ⟨hc.2, hd⟩⟩

theorem endsDigits_cons {c : Char} (h : c.isDigit = false) : EndsDigits (c :: rest) := by
  intro d hd
  cases hd
  exact h

theorem Stops.endsDigits (h : Stops rest) : EndsDigits rest := by
  intro c hc
  rcases h with h | h <;> cases h.symm.trans hc <;> rfl

theorem takeWhile_digits (h : ∀ c ∈ cs, c.isDigit) (ends : EndsDigits rest) :
    (cs ++ rest).takeWhile Char.isDigit = cs := by
  rw [List.takeWhile_append_of_pos h]
  cases rest with
  | nil => rw [List.takeWhile_nil, List.append_nil]
  | cons c rest => rw [List.takeWhile_cons_of_neg (by simp [ends c rfl]), List.append_nil]

theorem dropWhile_digits (h : ∀ c ∈ cs, c.isDigit) (ends : EndsDigits rest) :
    (cs ++ rest).dropWhile Char.isDigit = rest := by
  rw [List.dropWhile_append_of_pos h]
  cases rest with
  | nil => rfl
  | cons c rest => rw [List.dropWhile_cons_of_neg (by simp [ends c rfl])]

/-! ### Parts of a number -/

/-- Digits that do not start with a zero. -/
def Leads (cs : List Char) : Prop := IsDigits cs ∧ cs.head? ≠ some '0'

/-- A whole part: digits that start with a zero only if that is all. -/
def IsWhole (cs : List Char) : Prop := cs = ['0'] ∨ Leads cs

theorem IsWhole.ne_nil (h : IsWhole cs) : cs ≠ [] := by
  rcases h with rfl | ⟨h, -⟩
  · exact List.cons_ne_nil _ _
  · exact h.1

theorem wholeOf_append (h : IsWhole cs) (ends : EndsDigits rest) : wholeOf (cs ++ rest) = (cs, rest) := by
  rcases h with rfl | ⟨digits, start⟩
  · rfl
  · unfold wholeOf
    split
    · next more e =>
      cases cs with
      | nil => exact absurd rfl digits.1
      | cons c cs =>
        cases e
        exact absurd rfl start
    · rw [takeWhile_digits digits.2 ends, dropWhile_digits digits.2 ends]

theorem fractionOf_point (h : IsDigits cs) (ends : EndsDigits rest) :
    fractionOf ('.' :: (cs ++ rest)) = (cs, rest) := by
  show (if ((cs ++ rest).takeWhile Char.isDigit).isEmpty then _ else _) = _
  rw [takeWhile_digits h.2 ends, dropWhile_digits h.2 ends, if_neg (by simpa using h.1)]

theorem fractionOf_of_ne (h : rest.head? ≠ some '.') : fractionOf rest = ([], rest) := by
  unfold fractionOf
  split
  · exact absurd rfl h
  · rfl

theorem exponentOf_stops (h : Stops rest) : exponentOf rest = (none, rest) := by
  cases rest with
  | nil => rfl
  | cons c rest =>
    unfold exponentOf
    rcases h with h | h <;> cases h <;> rfl

theorem exponentOf_sign {sign : Char} (hs : sign = '-' ∨ sign = '+') (h : IsDigits cs) (ends : EndsDigits rest) :
    ∃ e, exponentOf ('e' :: sign :: (cs ++ rest)) = (some e, rest) := by
  obtain ⟨negative, signed⟩ : ∃ negative, readSign (sign :: (cs ++ rest)) = (negative, cs ++ rest) := by
    rcases hs with rfl | rfl <;> exact ⟨_, rfl⟩
  rw [exponentOf, if_pos (Or.inl rfl), signed]
  dsimp only
  rw [takeWhile_digits h.2 ends, dropWhile_digits h.2 ends, if_neg (by simpa using h.1)]
  exact ⟨_, rfl⟩

/-! ### Whole numbers and decimals -/

/-- The text of a number without its sign: it is read as a scalar, up to what stops it. -/
def IsNumeral (cs : List Char) : Prop :=
  ∀ negative rest, Stops rest → ∃ j, numberOf? negative (cs ++ rest) = some (.scalar j, rest)

theorem numberOf?_of_parts {negative : Bool} {r₁ r₂ r₃ whole fraction : List Char} {exponent : Option Int}
    (hw : wholeOf cs = (whole, r₁)) (hn : whole ≠ []) (hf : fractionOf r₁ = (fraction, r₂))
    (he : exponentOf r₂ = (exponent, r₃)) :
    numberOf? negative cs = some (if fraction.isEmpty && exponent.isNone then integerOf negative whole
      else doubleOf negative whole fraction (exponent.getD 0), r₃) := by
  unfold numberOf?
  rw [hw]
  dsimp only
  rw [if_neg (by simpa using hn), hf]
  dsimp only
  rw [he]
  dsimp only
  split <;> rfl

theorem isNumeral_whole (h : IsWhole cs) (short : cs.length ≤ maxDigits) : IsNumeral cs := by
  intro negative rest stops
  have noPoint : rest.head? ≠ some '.' := by
    rcases stops with stops | stops <;> rw [stops] <;> decide
  rw [numberOf?_of_parts (wholeOf_append h stops.endsDigits) h.ne_nil (fractionOf_of_ne noPoint)
    (exponentOf_stops stops), if_pos (by rfl), integerOf, if_neg (Nat.not_lt.2 short)]
  exact ⟨_, rfl⟩

theorem isNumeral_decimal (hw : IsWhole cs) (hf : IsDigits ds) : IsNumeral (cs ++ '.' :: ds) := by
  intro negative rest stops
  rw [List.append_assoc, List.cons_append, numberOf?_of_parts (wholeOf_append hw (endsDigits_cons rfl)) hw.ne_nil
    (fractionOf_point hf stops.endsDigits) (exponentOf_stops stops), if_neg (by simp [hf.1]), doubleOf]
  exact ⟨_, rfl⟩

theorem isNumeral_exponent (hw : IsWhole cs) {fraction : List Char} (hf : ∀ c ∈ fraction, c.isDigit)
    {sign : Char} (hs : sign = '-' ∨ sign = '+') (hd : IsDigits ds) :
    IsNumeral (cs ++ (if fraction.isEmpty then [] else '.' :: fraction) ++ 'e' :: sign :: ds) := by
  intro negative rest stops
  obtain ⟨e, exponent⟩ := exponentOf_sign hs hd stops.endsDigits
  have letter : EndsDigits ('e' :: sign :: (ds ++ rest)) := endsDigits_cons rfl
  rw [List.append_assoc, List.append_assoc, List.cons_append, List.cons_append]
  cases fraction with
  | nil =>
    have noPoint : 'e' ≠ '.' := by decide
    rw [if_pos (by rfl), List.nil_append, numberOf?_of_parts (wholeOf_append hw letter) hw.ne_nil
      (fractionOf_of_ne fun e => noPoint (Option.some.inj e)) exponent, if_neg (by simp), doubleOf]
    exact ⟨_, rfl⟩
  | cons c fraction =>
    have point := fractionOf_point ⟨List.cons_ne_nil c fraction, hf⟩ letter
    rw [if_neg (by simp), List.cons_append, numberOf?_of_parts (wholeOf_append hw (endsDigits_cons rfl)) hw.ne_nil
      point exponent, if_neg (by simp), doubleOf]
    exact ⟨_, rfl⟩

/-- The text of a double without its sign: a whole part with a fraction, an exponent or both. -/
inductive IsDecimal : List Char → Prop
  | point {whole fraction : List Char} : IsWhole whole → IsDigits fraction →
      IsDecimal (whole ++ '.' :: fraction)
  | exponent {whole fraction ds : List Char} {sign : Char} : IsWhole whole →
      (∀ c ∈ fraction, c.isDigit) → (sign = '-' ∨ sign = '+') → IsDigits ds →
      IsDecimal (whole ++ (if fraction.isEmpty then [] else '.' :: fraction) ++ 'e' :: sign :: ds)

theorem IsDecimal.isNumeral (h : IsDecimal cs) : IsNumeral cs := by
  cases h with
  | point hw hf => exact isNumeral_decimal hw hf
  | exponent hw hf hs hd => exact isNumeral_exponent hw hf hs hd

/-! ### Written numbers -/

theorem isDigits_toDigits (n : Nat) : IsDigits (Nat.toDigits 10 n) :=
  ⟨Nat.toDigits_ne_nil, fun _ hc => Nat.isDigit_of_mem_toDigits (by decide) (by decide) hc⟩

theorem isDigit_of_mem_zeros {n : Nat} {c : Char} (h : c ∈ zeros n) : c.isDigit := by
  rw [List.eq_of_mem_replicate h]
  rfl

/-- A positive number does not start with a zero. -/
theorem head?_toDigits_ne {n : Nat} (positive : 0 < n) : (Nat.toDigits 10 n).head? ≠ some '0' := by
  induction n using Nat.strongRecOn with
  | ind n ih =>
    rw [Nat.toDigits_eq_if (by decide)]
    split
    · next small =>
      have digits : ∀ m < 10, 0 < m → [m.digitChar].head? ≠ some '0' := by decide
      exact digits n small positive
    · next large =>
      rw [List.head?_append_of_ne_nil _ Nat.toDigits_ne_nil]
      exact ih (n / 10) (Nat.div_lt_self positive (by decide)) (by omega)

theorem isWhole_toDigits (n : Nat) : IsWhole (Nat.toDigits 10 n) := by
  rcases Nat.eq_zero_or_pos n with rfl | positive
  · exact Or.inl rfl
  · exact Or.inr ⟨isDigits_toDigits n, head?_toDigits_ne positive⟩

/-- The digits of a positive decimal start where they did with the zeros at the end. -/
theorem leads_significant {d : Decimal} (positive : 0 < d.digits) : Leads d.significant.1 := by
  have start := head?_toDigits_ne positive
  have digits := isDigits_toDigits d.digits
  unfold Decimal.significant
  dsimp only
  generalize Nat.toDigits 10 d.digits = all at start digits
  have nonempty : (all.reverse.dropWhile (· == '0')).reverse ≠ [] := by
    intro empty
    rw [List.reverse_eq_nil_iff, List.dropWhile_eq_nil_iff] at empty
    cases all with
    | nil => exact digits.1 rfl
    | cons c all => exact start (congrArg some (beq_iff_eq.1 (empty c (by simp))))
  obtain ⟨dropped, e⟩ : (all.reverse.dropWhile (· == '0')).reverse <+: all := by
    rw [← List.reverse_suffix, List.reverse_reverse]
    exact List.dropWhile_suffix _
  rw [← e] at start digits
  rw [List.head?_append_of_ne_nil _ nonempty] at start
  exact ⟨⟨nonempty, (List.forall_mem_append.1 digits.2).1⟩, start⟩

/-- The first digits, with zeros where there are none. -/
theorem isWhole_take (h : Leads ds) (n : Nat) : IsWhole (ds.take (n + 1) ++ zeros (n + 1 - ds.length)) := by
  obtain ⟨digits, start⟩ := h
  cases ds with
  | nil => exact absurd rfl digits.1
  | cons d ds =>
    have first : IsDigits ((d :: ds).take (n + 1)) :=
      ⟨List.cons_ne_nil _ _, fun c hc => digits.2 c (List.mem_of_mem_take hc)⟩
    exact Or.inr ⟨first.append fun c => isDigit_of_mem_zeros, start⟩

theorem isDecimal_positional (h : Leads ds) (lead : Int) : IsDecimal (positional ds lead) := by
  unfold positional
  split
  · have fraction : IsDigits (zeros (-lead - 1).toNat ++ ds) :=
      ⟨List.append_ne_nil_of_right_ne_nil _ h.1.1,
        List.forall_mem_append.2 ⟨fun c => isDigit_of_mem_zeros, h.1.2⟩⟩
    exact .point (Or.inl rfl) fraction
  · refine .point (isWhole_take h lead.toNat) ?_
    split
    · exact ⟨List.cons_ne_nil _ _, List.forall_mem_singleton.2 rfl⟩
    · next more => exact ⟨by simpa using more, fun c hc => h.1.2 c (List.mem_of_mem_drop hc)⟩

theorem isDecimal_scientific (h : Leads ds) (lead : Int) : IsDecimal (scientific ds lead) := by
  have whole : IsWhole (ds.take 1) := by
    have first := isWhole_take h 0
    rwa [Nat.sub_eq_zero_of_le (List.length_pos_iff.2 h.1.1), zeros, List.replicate_zero, List.append_nil] at first
  have exponent (n : Nat) : IsDigits (zeros (2 - (Nat.toDigits 10 n).length) ++ Nat.toDigits 10 n) :=
    ⟨List.append_ne_nil_of_right_ne_nil _ (isDigits_toDigits n).1,
      List.forall_mem_append.2 ⟨fun c => isDigit_of_mem_zeros, (isDigits_toDigits n).2⟩⟩
  have fraction : ∀ c ∈ ds.drop 1, c.isDigit := fun c hc => h.1.2 c (List.mem_of_mem_drop hc)
  have sign : (if lead < 0 then '-' else '+') = '-' ∨ (if lead < 0 then '-' else '+') = '+' := by
    split
    · exact Or.inl rfl
    · exact Or.inr rfl
  exact .exponent whole fraction sign (exponent lead.natAbs)

theorem isDecimal_magnitude (style : FloatStyle) (units : Nat) :
    IsDecimal (Binary64.magnitudeChars style units) := by
  unfold Binary64.magnitudeChars
  split
  · have zero : IsDigits ['0'] := ⟨List.cons_ne_nil _ _, List.forall_mem_singleton.2 rfl⟩
    exact .point (Or.inl rfl) zero
  · next positive =>
    have leads := leads_significant (Binary64.shortest_digits_pos (Nat.pos_of_ne_zero positive))
    dsimp only
    split
    · exact isDecimal_positional leads _
    · exact isDecimal_scientific leads _

/-! ## Tokens -/

theorem exists_digit_of_numberOf? {negative : Bool} {found : Token × List Char}
    (h : numberOf? negative cs = some found) : ∃ c more, cs = c :: more ∧ c.isDigit := by
  cases cs with
  | nil => cases h
  | cons c more =>
    refine ⟨c, more, rfl, ?_⟩
    by_contra other
    have none : wholeOf (c :: more) = ([], c :: more) := by
      unfold wholeOf
      split
      · next e =>
        cases e
        exact absurd rfl other
      · rw [List.takeWhile_cons_of_neg other, List.dropWhile_cons_of_neg other]
    unfold numberOf? at h
    rw [none] at h
    cases h

theorem ne_of_isDigit {c d : Char} (h : c.isDigit) (hd : d.isDigit = false) : c ≠ d := by
  rintro rfl
  rw [hd] at h
  cases h

namespace Token

theorem scan_of_first? {c : Char} {cs rest : List Char} {t : Token} (space : isSpace c = false)
    (h : first? (c :: cs) = some (t, rest)) : scan (c :: cs) = t :: scan rest := by
  rw [scan, if_neg (by simp [space])]
  split
  · next e => cases e.symm.trans h
  · next e =>
    cases e.symm.trans h
    rfl

theorem scan_lineBreak (level : Nat) : scan (lineBreak level ++ rest) = scan rest := by
  have blanks (n : Nat) : scan (List.replicate n ' ' ++ rest) = scan rest := by
    induction n with
    | zero => rfl
    | succ n ih => rw [List.replicate_succ, List.cons_append, scan, if_pos (by decide), ih]
  rw [lineBreak, List.cons_append, scan, if_pos (by decide), blanks]

theorem scan_punctuation {c : Char} {t : Token} (h : punctuation.lookup c = some t) :
    scan (c :: rest) = t :: scan rest := by
  have space : isSpace c = false := by
    cases blank : isSpace c with
    | false => rfl
    | true =>
      simp only [isSpace, Bool.or_eq_true, beq_iff_eq] at blank
      rcases blank with ((rfl | rfl) | rfl) | rfl <;> cases h
  refine scan_of_first? space ?_
  rw [first?, h]

theorem scan_literal (s : String) :
    scan (Text.literalChars .unicode s.toList ++ rest) = .string s :: scan rest := by
  have read := Text.readLiteral?_literal .unicode s.toList rest
  rw [Text.literalChars, List.cons_append, List.cons_append, List.append_assoc, List.singleton_append]
  refine scan_of_first? rfl ?_
  show (Text.readLiteral? _).map _ = _
  rw [read, Option.map_some, String.ofList_toList]

theorem first?_of_isDigit {c : Char} (digit : c.isDigit) : first? (c :: cs) = numberOf? false (c :: cs) := by
  have ne {d : Char} (hd : d.isDigit = false) : c ≠ d := ne_of_isDigit digit hd
  have mark : punctuation.lookup c = none := by
    rw [List.lookup_eq_none_iff]
    simpa [punctuation] using ⟨ne (d := '[') rfl, ne (d := ']') rfl, ne (d := '\x7b') rfl, ne (d := '\x7d') rfl,
      ne (d := ',') rfl, ne (d := ':') rfl⟩
  have word : wordOf? (c :: cs) = none := by
    rw [wordOf?, Option.map_eq_none_iff, List.find?_eq_none]
    simp [words, (ne (d := 'n') rfl).symm, (ne (d := 't') rfl).symm, (ne (d := 'f') rfl).symm,
      (ne (d := 'N') rfl).symm, (ne (d := 'I') rfl).symm, (ne (d := '-') rfl).symm]
  rw [first?, mark]
  dsimp only
  rw [if_neg (ne rfl), scalarOf?, word]
  dsimp only
  unfold signedNumberOf?
  split
  · next e =>
    cases e
    cases digit
  · rfl

theorem first?_minus {c : Char} (digit : c.isDigit) : first? ('-' :: c :: cs) = numberOf? true (c :: cs) := by
  have word : wordOf? ('-' :: c :: cs) = none := by
    rw [wordOf?, Option.map_eq_none_iff, List.find?_eq_none]
    simp [words, (ne_of_isDigit (d := 'I') digit rfl).symm]
  show scalarOf? ('-' :: c :: cs) = _
  rw [scalarOf?, word]
  rfl

theorem scan_numeral (h : IsNumeral cs) (stops : Stops rest) : ∃ j, scan (cs ++ rest) = .scalar j :: scan rest := by
  obtain ⟨j, number⟩ := h false rest stops
  obtain ⟨c, more, e, digit⟩ := exists_digit_of_numberOf? number
  rw [e] at number ⊢
  have ne {d : Char} (hd : d.isDigit = false) : c ≠ d := ne_of_isDigit digit hd
  have space : isSpace c = false := by
    simp [isSpace, ne (d := ' ') rfl, ne (d := '\n') rfl, ne (d := '\t') rfl, ne (d := '\r') rfl]
  exact ⟨j, scan_of_first? space ((first?_of_isDigit digit).trans number)⟩

theorem scan_negative (h : IsNumeral cs) (stops : Stops rest) :
    ∃ j, scan ('-' :: cs ++ rest) = .scalar j :: scan rest := by
  obtain ⟨j, number⟩ := h true rest stops
  obtain ⟨c, more, e, digit⟩ := exists_digit_of_numberOf? number
  rw [List.cons_append]
  rw [e] at number ⊢
  exact ⟨j, scan_of_first? rfl ((first?_minus digit).trans number)⟩

/-- A number is read as a scalar, unless it is an integer with too many digits. -/
theorem scan_number {n : Number} (short : hasShortIntegers (.number n)) (stops : Stops rest) :
    ∃ j, scan ((n.text .json).toList ++ rest) = .scalar j :: scan rest := by
  cases n with
  | integer n =>
    have digits : IsNumeral (Nat.toDigits 10 n.natAbs) :=
      isNumeral_whole (isWhole_toDigits _) (of_decide_eq_true short)
    rw [Number.text, Int.toString_eq_repr]
    cases n with
    | ofNat m =>
      show ∃ j, scan (m.repr.toList ++ rest) = _
      rw [Nat.toList_repr]
      exact scan_numeral digits stops
    | negSucc m =>
      show ∃ j, scan (("-" ++ m.succ.repr).toList ++ rest) = _
      rw [String.toList_append, Nat.toList_repr]
      exact scan_negative digits stops
  | double x =>
    cases x with
    | nan serial =>
      show ∃ j, scan ("NaN".toList ++ rest) = .scalar j :: scan rest
      exact ⟨_, scan_of_first? (c := 'N') rfl rfl⟩
    | infinite negative =>
      cases negative
      · exact ⟨_, scan_of_first? (c := 'I') rfl rfl⟩
      · exact ⟨_, scan_of_first? (c := '-') rfl rfl⟩
    | finite negative units =>
      have digits := (isDecimal_magnitude .json units).isNumeral
      rw [Number.text, Binary64.text, String.toList_append, String.toList_ofList]
      cases negative
      · exact scan_numeral digits stops
      · exact scan_negative digits stops

end Token

end Json

end ShapeExport
