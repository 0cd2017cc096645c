import Mathlib
import ShapeExport.Proofs.Export.Statements
import ShapeExport.Proofs.Json.Scanning
import ShapeExport.Proofs.TypeScript.Grouping

/-!
# Unions of property keys

The grammar of the types that may stand behind `in` in a mapped type, apart from symbols, read off the text.

* `TypeScript.KeyAtom`, `TypeScript.KeyUnion` : the grammar. A name counts for the type that is declared
  under it;
* `TypeScript.Single` : a text without a bar outside its brackets;
* `TypeScript.KeyUnion.split` : a union is one of property keys only if both sides of each bar are;
* `TypeScript.KeyUnion.of_single` : without a bar it is a single key, or a name;
* `TypeScript.KeyUnion.not_null` : null is no member.
-/

namespace ShapeExport.TypeScript

/-! ## The grammar -/

/-- A number as it is written without its sign. -/
def IsUnsigned (cs : List Char) : Prop := Json.IsWhole cs ∨ Json.IsDecimal cs

/-- `string`, `number`, the union without members, and the literals of both. -/
inductive KeyAtom : List Char → Prop
  | builtin {name : String} : name ∈ ["string", "number", "never"] → KeyAtom name.toList
  | literal (s : String) : KeyAtom (Text.literal .ascii s).toList
  | positive {cs : List Char} : IsUnsigned cs → KeyAtom cs
  | negative {cs : List Char} : IsUnsigned cs → KeyAtom ('-' :: cs)

/-- Nothing, or arguments in angle brackets. -/
def IsArguments (cs : List Char) : Prop :=
  cs = [] ∨ ∃ inner outer, Whole inner outer ∧ cs = '<' :: (inner ++ ['>'])

/-- What stands around the bar of a union. -/
def barred (l r : List Char) : List Char := l ++ ' ' :: '|' :: ' ' :: r

/-- Unions of keys, where names are looked up in declarations. -/
inductive KeyUnion (D : List Statement) : List Char → Prop
  | atom {cs : List Char} : KeyAtom cs → KeyUnion D cs
  | named {name : String} {arguments : List Char} {ps : List String} {type : TypeExpr} :
      .typeAlias name ps type ∈ D → IsArguments arguments → KeyUnion D type.text.toList →
      KeyUnion D (name.toList ++ arguments)
  | union {l r : List Char} : KeyUnion D l → KeyUnion D r → KeyUnion D (barred l r)

/-! ## Texts without a bar -/

/-- There is no bar outside the brackets. -/
def Single (cs : List Char) : Prop := ∃ outer, Whole cs outer ∧ '|' ∉ outer

theorem HasOperators.single {s : String} (h : HasOperators s []) : Single s.toList := by
  obtain ⟨outer, hw, none⟩ := h.outside
  exact ⟨outer, hw, fun hb => List.filter_eq_nil_iff.1 none _ hb rfl⟩

theorem Single.append {a b : List Char} (ha : Single a) (hb : Single b) : Single (a ++ b) := by
  obtain ⟨o, ho, hno⟩ := ha
  obtain ⟨p, hp, hnp⟩ := hb
  exact ⟨o ++ p, ho.append hp, by simp [hno, hnp]⟩

theorem Whole.cancel {a b o p : List Char} (ha : Whole a o) (h : Whole (a ++ b) p) :
    ∃ q, p = o ++ q ∧ Whole b q := by
  have scan (toClose rest : List Char) :
      (outerFrom toClose (b ++ rest)).map ((if toClose.isEmpty then o else []) ++ ·) =
        (outerFrom toClose rest).map ((if toClose.isEmpty then p else []) ++ ·) := by
    rw [← ha, ← h, List.append_assoc]
  have ends : outerFrom [] [] = some [] := by
    rw [outerFrom]
    rfl
  obtain ⟨q, hq, rfl⟩ : ∃ q, outerFrom [] b = some q ∧ o ++ q = p := by
    have alone := scan [] []
    rw [List.append_nil, ends] at alone
    simpa using alone
  refine ⟨q, rfl, fun toClose rest => ?_⟩
  have both := scan toClose rest
  cases toClose with
  | nil =>
    apply Option.map_injective (f := (o ++ ·)) fun _ _ e => List.append_cancel_left e
    simpa [Option.map_map, Function.comp_def] using both
  | cons c cs => simpa using both

theorem whole_bar (r : List Char) {outer : List Char} (h : Whole r outer) :
    Whole (' ' :: '|' :: ' ' :: r) (' ' :: '|' :: ' ' :: outer) := by
  have bar : Whole [' ', '|', ' '] [' ', '|', ' '] := .chars (List.all_eq_true.1 (by decide))
  exact bar.append h

/-- A bar outside brackets is seen. -/
theorem not_single_bar {a b : List Char} {o : List Char} (ha : Whole a o) :
    ¬ Single (a ++ ' ' :: '|' :: b) := by
  rintro ⟨p, hp, hb⟩
  obtain ⟨q, rfl, hq⟩ := ha.cancel hp
  have front : Whole [' ', '|'] [' ', '|'] := Whole.chars (List.all_eq_true.1 (by decide))
  obtain ⟨q', rfl, -⟩ := front.cancel (b := b) hq
  simp at hb

/-! ## Members -/

theorem isAlpha_of_isDigit {c : Char} (h : c.isDigit) : c.isAlpha = false := by
  grind [Char.isAlpha, Char.isUpper, Char.isLower, Char.isDigit]

theorem isLetter_of_isDigit {c : Char} (h : c.isDigit) : Text.isLetter c = false := by
  have small : c.toNat < 0x80 := by
    have code : c.val ≤ '9'.val := by simp_all [Char.isDigit]
    exact Nat.lt_of_le_of_lt (UInt32.le_iff_toNat_le.1 code) (by decide)
  rw [Text.isLetter, if_pos small, isAlpha_of_isDigit h]

theorem isNumberChar_of_isDigit {c : Char} (h : c.isDigit) : IsNumberChar c :=
  Or.inl (by simp [Char.isAlphanum, h])

theorem IsUnsigned.isNumberChar {cs : List Char} (h : IsUnsigned cs) : ∀ c ∈ cs, IsNumberChar c := by
  have digits {ds : List Char} (hd : Json.IsDigits ds) : ∀ c ∈ ds, IsNumberChar c :=
    fun c hc => isNumberChar_of_isDigit (hd.2 c hc)
  have whole {ds : List Char} (hw : Json.IsWhole ds) : ∀ c ∈ ds, IsNumberChar c := by
    rcases hw with rfl | ⟨hd, -⟩
    · exact List.forall_mem_singleton.2 (isNumberChar_of_isDigit rfl)
    · exact digits hd
  have mark {c : Char} (hc : c ∈ ['-', '+', '.']) : IsNumberChar c := Or.inr hc
  rcases h with h | h
  · exact whole h
  · cases h with
    | point hw hf =>
      exact List.forall_mem_append.2 ⟨whole hw, List.forall_mem_cons.2 ⟨mark (by decide), digits hf⟩⟩
    | @exponent _ fraction _ sign hw hf hs hd =>
      have fractions : ∀ c ∈ (if fraction.isEmpty then [] else '.' :: fraction), IsNumberChar c := by
        split
        · exact List.forall_mem_nil _
        · exact List.forall_mem_cons.2 ⟨mark (by decide), fun c hc => isNumberChar_of_isDigit (hf c hc)⟩
      have signed : IsNumberChar sign := by
        rcases hs with rfl | rfl <;> exact mark (by decide)
      have letter : IsNumberChar 'e' := Or.inl (by decide)
      exact List.forall_mem_append.2 ⟨List.forall_mem_append.2 ⟨whole hw, fractions⟩,
        List.forall_mem_cons.2 ⟨letter, List.forall_mem_cons.2 ⟨signed, digits hd⟩⟩⟩

theorem exists_digit_of_isWhole {cs : List Char} (h : Json.IsWhole cs) (rest : List Char) :
    ∃ c more, cs ++ rest = c :: more ∧ c.isDigit := by
  rcases h with rfl | ⟨⟨hne, hd⟩, -⟩
  · exact ⟨'0', rest, rfl, rfl⟩
  · obtain ⟨c, cs, rfl⟩ := List.exists_cons_of_ne_nil hne
    exact ⟨c, cs ++ rest, rfl, hd c List.mem_cons_self⟩

theorem IsUnsigned.exists_digit {cs : List Char} (h : IsUnsigned cs) :
    ∃ c more, cs = c :: more ∧ c.isDigit := by
  rcases h with h | h
  · simpa using exists_digit_of_isWhole h []
  · cases h with
    | point hw => exact exists_digit_of_isWhole hw _
    | exponent hw =>
      rw [List.append_assoc]
      exact exists_digit_of_isWhole hw _

/-- How a key may start. -/
def isKeyHead (c : Char) : Bool := c == '"' || c == '-' || c == '_' || c.isDigit || Text.isLetter c

/-- How a key may end: with a quote, with a closing angle, or without any blank and bar in it. -/
def Tight (cs : List Char) : Prop :=
  cs.getLast? = some '"' ∨ cs.getLast? = some '>' ∨ ' ' ∉ cs ∧ '|' ∉ cs

/-- A text of its own between bars. -/
structure IsMember (cs : List Char) : Prop where
  head : ∃ c rest, cs = c :: rest ∧ isKeyHead c
  tight : Tight cs
  single : Single cs

theorem single_of_isNumberChar {cs : List Char} (h : ∀ c ∈ cs, IsNumberChar c) : Single cs := by
  have plain : isPlainText (String.ofList cs) := isPlainText_of_isNumberChar (by simpa using h)
  simpa using (hasOperators_of_isPlainText plain).single

theorem tight_of_isNumberChar {cs : List Char} (h : ∀ c ∈ cs, IsNumberChar c) : Tight cs := by
  refine Or.inr (Or.inr ⟨fun hc => ?_, fun hc => ?_⟩)
  · rcases h _ hc with h | h
    · cases h
    · exact absurd h (by decide)
  · rcases h _ hc with h | h
    · cases h
    · exact absurd h (by decide)

theorem KeyAtom.isMember {cs : List Char} (h : KeyAtom cs) : IsMember cs := by
  cases h with
  | @builtin name hm =>
    have plain : isPlainText name := by
      have all : ["string", "number", "never"].all isPlainText := by decide
      exact List.all_eq_true.1 all name hm
    refine ⟨?_, Or.inr (Or.inr ?_), (hasOperators_of_isPlainText plain).single⟩
    · simp only [List.mem_cons, List.not_mem_nil, or_false] at hm
      rcases hm with rfl | rfl | rfl <;> exact ⟨_, _, rfl, by decide⟩
    · simp only [List.mem_cons, List.not_mem_nil, or_false] at hm
      rcases hm with rfl | rfl | rfl <;> decide
  | literal s =>
    have e : (Text.literal .ascii s).toList =
        '"' :: (s.toList.flatMap (Text.literalChar .ascii) ++ ['"']) := by
      simp [Text.literal, Text.literalChars]
    refine ⟨⟨'"', _, e, rfl⟩, Or.inl ?_, (hasOperators_literal .ascii s).single⟩
    rw [e, ← List.cons_append, List.getLast?_concat]
  | positive hu =>
    obtain ⟨c, more, rfl, hd⟩ := hu.exists_digit
    exact ⟨⟨c, more, rfl, by simp [isKeyHead, hd]⟩, tight_of_isNumberChar hu.isNumberChar,
      single_of_isNumberChar hu.isNumberChar⟩
  | @negative cs hu =>
    have chars : ∀ c ∈ '-' :: cs, IsNumberChar c :=
      List.forall_mem_cons.2 ⟨Or.inr (by decide), hu.isNumberChar⟩
    exact ⟨⟨'-', cs, rfl, rfl⟩, tight_of_isNumberChar chars, single_of_isNumberChar chars⟩

theorem IsArguments.single {cs : List Char} (h : IsArguments cs) : Single cs := by
  rcases h with rfl | ⟨inner, outer, hw, rfl⟩
  · exact ⟨[], .nil, List.not_mem_nil⟩
  · have angles : ('<', '>') ∈ brackets := by decide
    exact ⟨[], hw.bracketed angles, List.not_mem_nil⟩

theorem not_mem_of_isTypeName {name : String} (h : isTypeName name) {c : Char}
    (hc : (Text.isWordChar c || c == '_') = false) : c ∉ name.toList := by
  intro hm
  rcases isWordChar_of_isTypeName h hm with hw | rfl
  · simp [hw] at hc
  · simp at hc

theorem isMember_named {name : String} (h : isTypeName name) {arguments : List Char}
    (ha : IsArguments arguments) : IsMember (name.toList ++ arguments) := by
  have single : Single name.toList := (hasOperators_of_isPlainText (isPlainText_of_isTypeName h)).single
  refine ⟨?_, ?_, single.append ha.single⟩
  · have start := h
    unfold isTypeName at start
    cases hs : name.toList with
    | nil =>
      rw [hs] at start
      cases start
    | cons c rest =>
      rw [hs, isTypeNameChars] at start
      have first := (Bool.and_eq_true_iff.1 start).1
      refine ⟨c, rest ++ arguments, rfl, ?_⟩
      rcases Bool.or_eq_true_iff.1 first with hl | hu
      · simp [isKeyHead, hl]
      · simp [isKeyHead, hu]
  · rcases ha with rfl | ⟨inner, outer, -, rfl⟩
    · rw [List.append_nil]
      exact Or.inr (Or.inr ⟨not_mem_of_isTypeName h (by decide), not_mem_of_isTypeName h (by decide)⟩)
    · refine Or.inr (Or.inl ?_)
      rw [← List.cons_append, ← List.append_assoc, List.getLast?_concat]

theorem Tight.getLast?_ne {cs : List Char} (h : Tight cs) : cs.getLast? ≠ some '|' := by
  intro hb
  rcases h with h | h | ⟨-, h⟩
  · cases h.symm.trans hb
  · cases h.symm.trans hb
  · exact h (List.mem_of_getLast? hb)

/-- What ends with a blank somewhere before a letter is no member. -/
theorem Tight.not_suffix {cs : List Char} (h : Tight cs) : ¬ [' ', '|', ' ', 'n', 'u', 'l', 'l'] <:+ cs := by
  rintro ⟨front, rfl⟩
  rcases h with h | h | ⟨h, -⟩
  · simp at h
  · simp at h
  · simp at h

/-! ## Unions -/

/-- Declared names are names, and none is a word of the language. -/
structure DeclaresNames (D : List Statement) : Prop where
  typeName {name : String} {ps : List String} {type : TypeExpr} :
    .typeAlias name ps type ∈ D → isTypeName name
  unreserved {name : String} {ps : List String} {type : TypeExpr} :
    .typeAlias name ps type ∈ D → name ∉ Language.typescript.reservedTypeNames

namespace KeyUnion

variable {D : List Statement} {cs l r : List Char}

theorem exists_whole (names : DeclaresNames D) (h : KeyUnion D cs) : ∃ outer, Whole cs outer := by
  induction h with
  | atom ha =>
    obtain ⟨outer, hw, -⟩ := ha.isMember.single
    exact ⟨outer, hw⟩
  | named hd ha =>
    obtain ⟨outer, hw, -⟩ := (isMember_named (names.typeName hd) ha).single
    exact ⟨outer, hw⟩
  | union _ _ ihl ihr =>
    obtain ⟨o, ho⟩ := ihl
    obtain ⟨p, hp⟩ := ihr
    exact ⟨_, ho.append (whole_bar _ hp)⟩

theorem exists_head (names : DeclaresNames D) (h : KeyUnion D cs) :
    ∃ c rest, cs = c :: rest ∧ isKeyHead c := by
  induction h with
  | atom ha => exact ha.isMember.head
  | named hd ha => exact (isMember_named (names.typeName hd) ha).head
  | union _ _ ihl =>
    obtain ⟨c, rest, rfl, hc⟩ := ihl
    exact ⟨c, _, rfl, hc⟩

theorem getLast?_ne (names : DeclaresNames D) (h : KeyUnion D cs) : cs.getLast? ≠ some '|' := by
  induction h with
  | atom ha => exact ha.isMember.tight.getLast?_ne
  | named hd ha => exact (isMember_named (names.typeName hd) ha).tight.getLast?_ne
  | union _ hr _ ihr =>
    obtain ⟨c, rest, rfl, -⟩ := hr.exists_head names
    rwa [barred, List.getLast?_append_of_ne_nil _ (List.cons_ne_nil _ _), List.getLast?_cons_cons,
      List.getLast?_cons_cons, List.getLast?_cons_cons]

theorem not_head (names : DeclaresNames D) {c : Char} (hc : isKeyHead c = false) :
    ¬ KeyUnion D (c :: cs) := by
  intro h
  obtain ⟨d, rest, e, hd⟩ := h.exists_head names
  cases e
  rw [hc] at hd
  cases hd

/-- How a bar can stand at the start of a text that goes on to a bar. -/
theorem bar_cases {x u r : List Char} (h : ' ' :: '|' :: ' ' :: u = x ++ ' ' :: '|' :: ' ' :: r) :
    x = [] ∧ u = r ∨ x = [' ', '|'] ∧ u = '|' :: ' ' :: r ∨
      ∃ x', x = ' ' :: '|' :: ' ' :: x' ∧ u = barred x' r := by
  rcases x with - | ⟨a, - | ⟨b, - | ⟨c, x⟩⟩⟩
  · simp_all
  · simp at h
  · simp only [List.cons_append, List.nil_append, List.cons.injEq, true_and] at h
    obtain ⟨rfl, rfl, rfl⟩ := h
    exact Or.inr (Or.inl ⟨rfl, rfl⟩)
  · simp only [List.cons_append, List.cons.injEq] at h
    obtain ⟨rfl, rfl, rfl, rfl⟩ := h
    exact Or.inr (Or.inr ⟨x, rfl, rfl⟩)

/-- Both sides of a bar outside brackets are unions of keys. -/
theorem split (names : DeclaresNames D) {t u outer : List Char} (ht : Whole t outer)
    (h : KeyUnion D (barred t u)) : KeyUnion D t ∧ KeyUnion D u := by
  generalize e : barred t u = cs at h
  induction h generalizing t u outer with
  | atom ha => exact absurd (e ▸ ha.isMember.single) (not_single_bar ht)
  | named hd ha => exact absurd (e ▸ (isMember_named (names.typeName hd) ha).single) (not_single_bar ht)
  | @union l r hl hr ihl ihr =>
    rcases List.append_eq_append_iff.1 e with ⟨x, hx, hr'⟩ | ⟨y, hy, hr'⟩
    · -- The left side of the derivation is `t` and more.
      rcases bar_cases hr' with ⟨rfl, rfl⟩ | ⟨rfl, -⟩ | ⟨x', rfl, rfl⟩
      · rw [hx, List.append_nil] at hl
        exact ⟨hl, hr⟩
      · exact absurd (by simp [hx]) (hl.getLast?_ne names)
      · obtain ⟨hl, hx⟩ := ihl ht hx.symm
        exact ⟨hl, hx.union hr⟩
    · -- It ends inside `t`.
      obtain ⟨o, ho⟩ := hl.exists_whole names
      rcases bar_cases hr' with ⟨rfl, rfl⟩ | ⟨-, rfl⟩ | ⟨y', rfl, rfl⟩
      · rw [hy, List.append_nil]
        exact ⟨hl, hr⟩
      · exact absurd hr (not_head names rfl)
      · rw [hy] at ht ⊢
        obtain ⟨q, -, hq⟩ := ho.cancel ht
        have front : Whole [' ', '|', ' '] [' ', '|', ' '] := Whole.chars (List.all_eq_true.1 (by decide))
        obtain ⟨q', -, hq'⟩ := front.cancel (b := y') hq
        obtain ⟨hy, hu⟩ := ihr hq' rfl
        exact ⟨hl.union hy, hu⟩

/-- A union without a bar outside brackets is one key, or the name of a declared union. -/
theorem of_single (names : DeclaresNames D) (h : KeyUnion D cs) (single : Single cs) : KeyAtom cs ∨
    ∃ name arguments ps type, cs = name.toList ++ arguments ∧ .typeAlias name ps type ∈ D ∧
      IsArguments arguments ∧ KeyUnion D type.text.toList := by
  cases h with
  | atom ha => exact Or.inl ha
  | named hd ha ht => exact Or.inr ⟨_, _, _, _, rfl, hd, ha, ht⟩
  | union hl hr =>
    obtain ⟨o, ho⟩ := hl.exists_whole names
    exact absurd single (not_single_bar ho)

/-- A word of letters and minus signs is a key only if it is built in or declared. -/
theorem not_word (names : DeclaresNames D) {w : String} (word : w.toList.all fun c => c.isAlpha || c == '-')
    (other : w ∉ ["string", "number", "never"]) (undeclared : ∀ ps type, .typeAlias w ps type ∉ D) :
    ¬ KeyUnion D w.toList := by
  intro h
  have letter {c : Char} (hc : c ∈ w.toList) : (c.isAlpha || c == '-') = true := List.all_eq_true.1 word c hc
  have undigit {c : Char} (hc : c ∈ w.toList) : c.isDigit = false := by
    by_contra hd
    have digit : c.isDigit = true := by simpa using hd
    have minus : c ≠ '-' := Json.ne_of_isDigit digit rfl
    have := letter hc
    simp [isAlpha_of_isDigit digit, minus] at this
  have plain : isPlainText w := by
    refine isPlainText_of_not_mem fun c hc => ?_
    exact not_mem_marks (p := fun c => c.isAlpha || c == '-') (by decide) (letter hc)
  -- A word has no bar, so it is an atom or the name of a declared union.
  rcases h.of_single names (hasOperators_of_isPlainText plain).single with
    ha | ⟨name, arguments, ps, type, e, hd, ha, -⟩
  · generalize e : w.toList = cs at ha
    cases ha with
    | builtin hm =>
      rw [String.toList_inj] at e
      rw [e] at other
      exact other hm
    | literal s =>
      have quote : '"' ∈ w.toList := by
        rw [e]
        simp [Text.literal, Text.literalChars]
      have := letter quote
      simp at this
    | positive hu =>
      obtain ⟨c, more, rfl, hc⟩ := hu.exists_digit
      rw [undigit (e ▸ List.mem_cons_self)] at hc
      cases hc
    | negative hu =>
      obtain ⟨c, more, rfl, hc⟩ := hu.exists_digit
      rw [undigit (e ▸ List.mem_cons_of_mem _ List.mem_cons_self)] at hc
      cases hc
  · rcases ha with rfl | ⟨inner, outer, -, rfl⟩
    · rw [List.append_nil, String.toList_inj] at e
      rw [e] at undeclared
      exact undeclared ps type hd
    · have angle : '<' ∈ w.toList := by
        rw [e]
        simp
      have := letter angle
      simp at this

theorem not_null (names : DeclaresNames D) : ¬ KeyUnion D "null".toList :=
  not_word names (by decide) (by decide) fun _ _ hd => names.unreserved hd (by decide)

/-- A union that ends with null is none of keys. -/
theorem not_suffix (names : DeclaresNames D) (h : KeyUnion D cs) :
    ¬ [' ', '|', ' ', 'n', 'u', 'l', 'l'] <:+ cs := by
  induction h with
  | atom ha => exact ha.isMember.tight.not_suffix
  | named hd ha => exact (isMember_named (names.typeName hd) ha).tight.not_suffix
  | @union l r hl hr _ ihr =>
    intro hs
    obtain ⟨c, rest, rfl, hc⟩ := hr.exists_head names
    have own : ' ' :: '|' :: ' ' :: c :: rest <:+ barred l (c :: rest) := List.suffix_append _ _
    rcases List.suffix_or_suffix_of_suffix hs own with hs | hs
    · -- The right side ends with it too, since a key does not start with a blank or a bar.
      rcases List.suffix_cons_iff.1 hs with e | hs
      · cases e
        exact not_null names hr
      rcases List.suffix_cons_iff.1 hs with e | hs
      · cases e
      rcases List.suffix_cons_iff.1 hs with e | hs
      · cases e
        cases hc
      exact ihr hs
    · rcases List.suffix_cons_iff.1 hs with e | hs
      · cases e
        exact not_null names hr
      · simp [List.suffix_cons_iff] at hs

/-- A union of types is one of keys exactly if each type is. -/
theorem union_iff (names : DeclaresNames D) {e : TypeExpr} {es : List TypeExpr}
    (whole : ∀ a ∈ e :: es, ∃ outer, Whole a.text.toList outer) :
    KeyUnion D (TypeExpr.union (e :: es)).text.toList ↔ ∀ a ∈ e :: es, KeyUnion D a.text.toList := by
  induction es generalizing e with
  | nil =>
    have alone : (TypeExpr.union [e]).text.toList = e.text.toList := by
      show (e.text ++ "").toList = _
      simp
    rw [alone, List.forall_mem_singleton]
  | cons f es ih =>
    rw [List.forall_mem_cons] at whole
    have more : (TypeExpr.union (e :: f :: es)).text.toList =
        barred e.text.toList (TypeExpr.union (f :: es)).text.toList := by
      show (e.text ++ (" | " ++ f.text ++ TypeExpr.texts " | " es)).toList =
        barred e.text.toList (f.text ++ TypeExpr.texts " | " es).toList
      simp [barred]
    rw [List.forall_mem_cons, ← ih whole.2, more]
    obtain ⟨outer, ho⟩ := whole.1
    exact ⟨split names ho, fun h => h.1.union h.2⟩

/-- Types that are written alike count once. -/
theorem unionOf_iff (names : DeclaresNames D) {es : List TypeExpr} (hne : es ≠ [])
    (whole : ∀ e ∈ es, ∃ outer, Whole e.text.toList outer) :
    KeyUnion D (TypeExpr.unionOf es).text.toList ↔ ∀ e ∈ es, KeyUnion D e.text.toList := by
  have kept {e : TypeExpr} (he : e ∈ es) : ∃ d ∈ Text.distinctBy TypeExpr.text es, d.text = e.text :=
    Text.exists_of_distinctBy he
  obtain ⟨e, es', he⟩ : ∃ e es', Text.distinctBy TypeExpr.text es = e :: es' := by
    obtain ⟨e, hm⟩ := List.exists_mem_of_ne_nil es hne
    obtain ⟨d, hd, -⟩ := kept hm
    exact List.exists_cons_of_ne_nil (List.ne_nil_of_mem hd)
  have subset {d : TypeExpr} (hd : d ∈ e :: es') : d ∈ es := Text.mem_of_mem_distinctBy (he ▸ hd)
  rw [TypeExpr.unionOf, he, union_iff names fun d hd => whole d (subset hd)]
  refine ⟨fun h d hd => ?_, fun h d hd => h d (subset hd)⟩
  obtain ⟨d', hd', ht⟩ := kept hd
  rw [← ht]
  exact h d' (he ▸ hd')

end KeyUnion

/-! ## Types that renderers write -/

theorem exists_arguments (target : TypeKey) (name : String) {arguments : List TypeExpr}
    (h : ∀ a ∈ arguments, TypeExpr.Formed plainNames a) : ∃ cs, IsArguments cs ∧
      (TypeExpr.named target name arguments).text.toList = name.toList ++ cs := by
  cases arguments with
  | nil => exact ⟨[], Or.inl rfl, (List.append_nil _).symm⟩
  | cons a as =>
    rw [List.forall_mem_cons] at h
    have comma : HasOperators ", " [] := hasOperators_of_isPlainText (by decide)
    have rest := TypeExpr.hasOperators_texts comma fun b hb => (h.2 b hb).hasOperators
    obtain ⟨outer, hw, -⟩ := (h.1.hasOperators.append rest).outside
    refine ⟨_, Or.inr ⟨_, outer, hw, rfl⟩, ?_⟩
    show (name ++ "<" ++ a.text ++ TypeExpr.texts ", " as ++ ">").toList = _
    simp

/-- The name in front of arguments. -/
theorem name_eq_of_arguments {m n : String} (hm : isTypeName m) (hn : isTypeName n) {as bs : List Char}
    (ha : IsArguments as) (hb : IsArguments bs) (h : m.toList ++ as = n.toList ++ bs) : m = n := by
  have front {n : String} (hn : isTypeName n) {as : List Char} (ha : IsArguments as) :
      (n.toList ++ as).takeWhile (· != '<') = n.toList := by
    have angle : '<' ∉ n.toList := not_mem_of_isTypeName hn (by decide)
    rw [List.takeWhile_append_of_pos fun c hc => by simpa using ne_of_mem_of_not_mem hc angle]
    rcases ha with rfl | ⟨inner, outer, -, rfl⟩ <;> simp
  rw [← String.toList_inj, ← front hm ha, h, front hn hb]

/-- A declared name is none of the keys that are built in. -/
theorem KeyAtom.not_name {name : String} (hn : isTypeName name)
    (unreserved : name ∉ Language.typescript.reservedTypeNames) {cs : List Char} (hc : IsArguments cs) :
    ¬ KeyAtom (name.toList ++ cs) := by
  intro h
  obtain ⟨c, rest, e, start⟩ : ∃ c rest, name.toList = c :: rest ∧ (Text.isLetter c || c == '_') := by
    unfold isTypeName at hn
    cases hs : name.toList with
    | nil =>
      rw [hs] at hn
      cases hn
    | cons c rest =>
      rw [hs, isTypeNameChars] at hn
      exact ⟨c, rest, rfl, (Bool.and_eq_true_iff.1 hn).1⟩
  -- The other atoms start as no name does.
  have other {d : Char} {ds : List Char} (hd : (Text.isLetter d || d == '_') = false)
      (same : name.toList ++ cs = d :: ds) : False := by
    rw [e] at same
    cases same
    rw [start] at hd
    cases hd
  generalize whole : name.toList ++ cs = text at h
  cases h with
  | @builtin word hm =>
    have reserved : word ∈ Language.typescript.reservedTypeNames := by
      have all : ["string", "number", "never"].all Language.typescript.reservedTypeNames.contains := by decide
      simpa using List.all_eq_true.1 all word hm
    have typeName : isTypeName word := by
      have all : ["string", "number", "never"].all isTypeName := by decide
      exact List.all_eq_true.1 all word hm
    have same : name = word :=
      name_eq_of_arguments hn typeName hc (Or.inl rfl) (whole.trans (List.append_nil _).symm)
    exact unreserved (same ▸ reserved)
  | literal s =>
    have opening : (Text.literal .ascii s).toList =
        '"' :: (s.toList.flatMap (Text.literalChar .ascii) ++ ['"']) :=
      String.toList_ofList
    exact other (by decide) (whole.trans opening)
  | positive hu =>
    obtain ⟨d, more, rfl, hd⟩ := hu.exists_digit
    have under : d ≠ '_' := Json.ne_of_isDigit hd rfl
    exact other (by simp [isLetter_of_isDigit hd, under]) whole
  | negative => exact other (d := '-') (by decide) whole

/-- Which literals are written as keys: strings and finite numbers. -/
def isKeyLiteral : Literal → Bool
  | .string _ | .char _ | .integer .. | .float _ (.integer _) | .float _ (.double (.finite ..)) => true
  | .bool _ | .none | .float _ (.double (.nan _)) | .float _ (.double (.infinite _)) => false

theorem keyAtom_integer (n : Int) : KeyAtom (Number.text .message (.integer n)).toList := by
  have digits (m : Nat) : IsUnsigned (Nat.toDigits 10 m) := Or.inl (Json.isWhole_toDigits m)
  rw [Number.text, Int.toString_eq_repr]
  cases n with
  | ofNat m =>
    show KeyAtom m.repr.toList
    rw [Nat.toList_repr]
    exact .positive (digits m)
  | negSucc m =>
    show KeyAtom ("-" ++ m.succ.repr).toList
    rw [String.toList_append, Nat.toList_repr]
    exact .negative (digits m.succ)

theorem keyAtom_literal {l : Literal} (h : isKeyLiteral l) : KeyAtom l.typeExpr.text.toList := by
  cases l with
  | bool | none => cases h
  | string s => exact .literal s
  | char c => exact .literal _
  | integer width value _ => exact keyAtom_integer value
  | float width value =>
    cases value with
    | integer n => exact keyAtom_integer n
    | double d =>
      cases d with
      | nan | infinite => cases h
      | finite negative units =>
        show KeyAtom ((if negative then "-" else "") ++
          String.ofList (Binary64.magnitudeChars .message units)).toList
        have digits : IsUnsigned (Binary64.magnitudeChars .message units) :=
          Or.inr (Json.isDecimal_magnitude .message units)
        rw [String.toList_append, String.toList_ofList]
        cases negative
        · exact .positive digits
        · exact .negative digits

end ShapeExport.TypeScript
