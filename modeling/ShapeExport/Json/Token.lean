import ShapeExport.Json.Basic
import ShapeExport.Text.Literal

/-!
# JSON tokens

* `Json.Token` : a bracket, a separator, a string or another scalar;
* `Json.Token.first?` : the token at the start of a text, with a rest that is shorter;
* `Json.Token.scan` : the tokens of a text, up to the first place where none starts. Blank are the
  space, the tab, the line feed and the carriage return. Besides JSON's own numbers `NaN`, `Infinity`
  and `-Infinity` are numbers.
-/

namespace ShapeExport.Json

inductive Token
  | openArray
  | closeArray
  | openObject
  | closeObject
  | comma
  | colon
  | string (s : String)
  | scalar (j : Json)
  /-- An integer that has more digits than are read. -/
  | longInteger (digits : Nat)
  /-- A place where no token starts. -/
  | unreadable
deriving Repr

def isSpace (c : Char) : Bool := c == ' ' || c == '\n' || c == '\t' || c == '\r'

/-! ## Numbers -/

/-- A fraction: a point and at least one digit, or nothing. -/
def fractionOf : List Char → List Char × List Char
  | '.' :: rest =>
    let digits := rest.takeWhile Char.isDigit
    if digits.isEmpty then ([], '.' :: rest) else (digits, rest.dropWhile Char.isDigit)
  | rest => ([], rest)

/-- An exponent: a letter, perhaps a sign, and at least one digit, or nothing. -/
def exponentOf (cs : List Char) : Option Int × List Char :=
  match cs with
  | c :: rest =>
    if c = 'e' ∨ c = 'E' then
      let (negative, rest') := readSign rest
      let digits := rest'.takeWhile Char.isDigit
      if digits.isEmpty then (none, cs)
      else
        (some (if negative then -(digitsValue digits : Int) else digitsValue digits),
          rest'.dropWhile Char.isDigit)
    else (none, cs)
  | [] => (none, [])

/-- A whole part starts with a digit, and with a zero only if that is all of it. -/
def wholeOf : List Char → List Char × List Char
  | '0' :: rest => (['0'], rest)
  | rest => (rest.takeWhile Char.isDigit, rest.dropWhile Char.isDigit)

def integerOf (negative : Bool) (digits : List Char) : Token :=
  if digits.length > maxDigits then .longInteger digits.length
  else
    let n := digitsValue digits
    .scalar (integer (if negative then -(n : Int) else n))

def doubleOf (negative : Bool) (whole fraction : List Char) (exponent : Int) : Token :=
  .scalar (.number (.double
    (.ofDecimal negative (digitsValue (whole ++ fraction)) (exponent - fraction.length))))

/-- A number without its sign. Only a fraction or an exponent makes it a double. -/
def numberOf? (negative : Bool) (cs : List Char) : Option (Token × List Char) :=
  let (whole, rest) := wholeOf cs
  if whole.isEmpty then none
  else
    let (fraction, rest) := fractionOf rest
    let (exponent, rest) := exponentOf rest
    if fraction.isEmpty && exponent.isNone then some (integerOf negative whole, rest)
    else some (doubleOf negative whole fraction (exponent.getD 0), rest)

/-! ## Tokens -/

/-- The words that are scalars. -/
def words : List (List Char × Json) :=
  [(['n', 'u', 'l', 'l'], .null),
    (['t', 'r', 'u', 'e'], .bool true),
    (['f', 'a', 'l', 's', 'e'], .bool false),
    (['N', 'a', 'N'], .number (.double (.nan 0))),
    (['I', 'n', 'f', 'i', 'n', 'i', 't', 'y'], .number (.double (.infinite false))),
    (['-', 'I', 'n', 'f', 'i', 'n', 'i', 't', 'y'], .number (.double (.infinite true)))]

/-- The word at the start of a text. -/
def wordOf? (cs : List Char) : Option (Json × List Char) :=
  (words.find? fun w => w.1.isPrefixOf cs).map fun w => (w.2, cs.drop w.1.length)

def signedNumberOf? : List Char → Option (Token × List Char)
  | '-' :: rest => numberOf? true rest
  | rest => numberOf? false rest

/-- A word is looked for first, since one starts with a minus. -/
def scalarOf? (cs : List Char) : Option (Token × List Char) :=
  match wordOf? cs with
  | some found => some (.scalar found.1, found.2)
  | none => signedNumberOf? cs

/-! ## What is left is shorter -/

theorem length_dropWhile_lt {p : Char → Bool} {cs : List Char} (h : cs.takeWhile p ≠ []) :
    (cs.dropWhile p).length < cs.length := by
  have e := congrArg List.length (List.takeWhile_append_dropWhile (p := p) (l := cs))
  have := List.length_pos_iff.2 h
  simp only [List.length_append] at e
  omega

theorem length_dropWhile_le (p : Char → Bool) (cs : List Char) :
    (cs.dropWhile p).length ≤ cs.length := (List.dropWhile_suffix p).length_le

theorem length_readSign_le (cs : List Char) : (readSign cs).2.length ≤ cs.length := by
  fun_cases readSign cs with grind

theorem length_fractionOf_le (cs : List Char) : (fractionOf cs).2.length ≤ cs.length := by
  fun_cases fractionOf cs with grind [length_dropWhile_le]

theorem length_exponentOf_le (cs : List Char) : (exponentOf cs).2.length ≤ cs.length := by
  fun_cases exponentOf cs with grind [length_dropWhile_le, length_readSign_le]

theorem length_wholeOf_lt {cs : List Char} (h : (wholeOf cs).1 ≠ []) :
    (wholeOf cs).2.length < cs.length := by
  unfold wholeOf at h ⊢
  split
  · simp
  · next hd => exact length_dropWhile_lt (by simpa using h)

theorem length_lt_of_numberOf? {negative : Bool} {cs rest : List Char} {t : Token}
    (h : numberOf? negative cs = some (t, rest)) : rest.length < cs.length := by
  grind [numberOf?, length_wholeOf_lt, length_fractionOf_le, length_exponentOf_le]

theorem words_pos : ∀ w ∈ words, 0 < w.1.length := by
  simp [words]

theorem length_lt_of_wordOf? {cs rest : List Char} {j : Json} (h : wordOf? cs = some (j, rest)) :
    rest.length < cs.length := by
  obtain ⟨w, hw, e⟩ := Option.map_eq_some_iff.1 h
  obtain ⟨_, rfl⟩ := Prod.mk.inj e
  have hp : w.1 <+: cs := by simpa using List.find?_some hw
  have := words_pos w (List.mem_of_find?_eq_some hw)
  have := hp.length_le
  simp only [List.length_drop]
  omega

theorem length_lt_of_signedNumberOf? {cs rest : List Char} {t : Token}
    (h : signedNumberOf? cs = some (t, rest)) : rest.length < cs.length := by
  unfold signedNumberOf? at h
  split at h
  · exact Nat.lt_succ_of_lt (length_lt_of_numberOf? h)
  · exact length_lt_of_numberOf? h

theorem length_lt_of_scalarOf? {cs rest : List Char} {t : Token}
    (h : scalarOf? cs = some (t, rest)) : rest.length < cs.length := by
  unfold scalarOf? at h
  split at h
  · next found e =>
    obtain ⟨_, rfl⟩ := Prod.mk.inj (Option.some.inj h)
    exact length_lt_of_wordOf? e
  · exact length_lt_of_signedNumberOf? h

namespace Token

/-- The tokens of one character. -/
def punctuation : List (Char × Token) :=
  [('[', .openArray), (']', .closeArray), ('\x7b', .openObject), ('\x7d', .closeObject),
    (',', .comma), (':', .colon)]

/-- The token that starts with the first character. -/
def first? : List Char → Option (Token × List Char)
  | [] => none
  | c :: rest =>
    match punctuation.lookup c with
    | some token => some (token, rest)
    | none =>
      if c = '"' then
        (Text.readLiteral? rest).map fun found => (.string (String.ofList found.1), found.2)
      else scalarOf? (c :: rest)

theorem length_lt_of_first? {cs rest : List Char} {t : Token} (h : first? cs = some (t, rest)) :
    rest.length < cs.length := by
  cases cs with
  | nil => simp [first?] at h
  | cons c cs =>
    rw [first?] at h
    split at h
    · simp_all
    · split at h
      · obtain ⟨found, e, hr⟩ := Option.map_eq_some_iff.1 h
        obtain ⟨_, rfl⟩ := Prod.mk.inj hr
        exact Nat.lt_succ_of_lt (Text.length_lt_of_readLiteral? e)
      · exact length_lt_of_scalarOf? h

/-- The tokens of a text. -/
def scan (cs : List Char) : List Token :=
  match cs with
  | [] => []
  | c :: rest =>
    if isSpace c then scan rest
    else match _ : first? (c :: rest) with
      | none => [.unreadable]
      | some (token, rest') => token :: scan rest'
termination_by cs.length
decreasing_by
  · simp
  · exact length_lt_of_first? ‹_›

end Token

end ShapeExport.Json
