import ShapeExport.Text.Hex

/-!
# Double-quoted literals

The string literal of JSON, which is one of TypeScript too. A double quote, a backslash and the
control characters below U+0020 are always escaped; a literal for `Repertoire.ascii` also escapes
everything beyond the printable ASCII characters, by UTF-16 units.

* `literal` : writes a literal;
* `readLiteral?` : reads one from behind its opening quote and returns its text and the rest. A
  surrogate that stands alone is read as U+FFFD, since texts hold no surrogates.
-/

namespace ShapeExport.Text

/-- Which characters a literal may hold as they are. -/
inductive Repertoire
  | ascii
  | unicode
deriving DecidableEq, Repr

/-- The escape of one UTF-16 unit. -/
def unitEscape (n : Nat) : List Char := '\\' :: 'u' :: hexDigits 4 n

/-- A character beyond U+FFFF is two units. -/
def unicodeEscape (c : Char) : List Char :=
  if c.toNat < 0x10000 then unitEscape c.toNat
  else
    let offset := c.toNat - 0x10000
    unitEscape (0xd800 + offset / 0x400) ++ unitEscape (0xdc00 + offset % 0x400)

/-- The escapes of one letter: the letter after the backslash and the character. -/
def letterEscapes : List (Char × Char) :=
  [('"', '"'), ('\\', '\\'), ('n', '\n'), ('r', '\r'), ('t', '\t'),
    ('b', Char.ofNat 8), ('f', Char.ofNat 12)]

def literalChar (repertoire : Repertoire) (c : Char) : List Char :=
  match letterEscapes.find? (·.2 = c) with
  | some (letter, _) => ['\\', letter]
  | none =>
    if c.toNat < 0x20 then unitEscape c.toNat
    else if repertoire = .ascii ∧ 0x7e < c.toNat then unicodeEscape c
    else [c]

def literalChars (repertoire : Repertoire) (cs : List Char) : List Char :=
  '"' :: cs.flatMap (literalChar repertoire) ++ ['"']

def literal (repertoire : Repertoire) (s : String) : String :=
  String.ofList (literalChars repertoire s.toList)

/-- The four digits of a unit. -/
def unit? (a b c d : Char) : Option Nat := hexNumber? [a, b, c, d]

/-- The character of two units, when they are a high and a low surrogate. -/
def surrogatePair? (high low : Nat) : Option Char :=
  if 0xd800 ≤ high ∧ high < 0xdc00 ∧ 0xdc00 ≤ low ∧ low < 0xe000 then
    some (Char.ofNat (0x10000 + (high - 0xd800) * 0x400 + (low - 0xdc00)))
  else none

def unitChar (n : Nat) : Char :=
  if 0xd800 ≤ n ∧ n < 0xe000 then Char.ofNat 0xfffd else Char.ofNat n

/-- The character of a unit that was read. A high surrogate takes the low one behind it along. -/
def completeUnit (n : Nat) (rest : List Char) : Char × List Char :=
  match rest with
  | '\\' :: 'u' :: a :: b :: c :: d :: rest' =>
    match (unit? a b c d).bind (surrogatePair? n) with
    | some pair => (pair, rest')
    | none => (unitChar n, rest)
  | _ => (unitChar n, rest)

/-- Reads the digits of a unit. -/
def unitOf? : List Char → Option (Char × List Char)
  | a :: b :: c :: d :: rest => (unit? a b c d).map (completeUnit · rest)
  | _ => none

/-- The character that an escape stands for, read from behind its backslash. -/
def escape? : List Char → Option (Char × List Char)
  | [] => none
  | letter :: rest =>
    if letter = 'u' then unitOf? rest
    else if letter = '/' then some ('/', rest)
    else (letterEscapes.lookup letter).map (·, rest)

theorem length_completeUnit_le (n : Nat) (rest : List Char) :
    (completeUnit n rest).2.length ≤ rest.length := by
  unfold completeUnit
  split
  · split
    · simp only [List.length_cons]; omega
    · exact Nat.le_refl _
  · exact Nat.le_refl _

theorem length_lt_of_unitOf? {cs rest : List Char} {c : Char} (h : unitOf? cs = some (c, rest)) :
    rest.length < cs.length := by
  unfold unitOf? at h
  split at h
  · next a b c' d cs =>
    obtain ⟨n, _, e⟩ := Option.map_eq_some_iff.1 h
    have : rest.length ≤ cs.length := by
      simpa [e] using length_completeUnit_le n cs
    simp only [List.length_cons]
    omega
  · simp at h

theorem length_lt_of_escape? {cs rest : List Char} {c : Char} (h : escape? cs = some (c, rest)) :
    rest.length < cs.length := by
  cases cs with
  | nil => simp [escape?] at h
  | cons letter cs =>
    rw [escape?] at h
    split at h
    · exact Nat.lt_succ_of_lt (length_lt_of_unitOf? h)
    · split at h
      · simp_all
      · obtain ⟨_, _, e⟩ := Option.map_eq_some_iff.1 h
        obtain ⟨rfl, rfl⟩ := Prod.mk.inj e
        simp

/-- Refuses control characters, unknown escapes and a literal without end. -/
def readLiteral? (cs : List Char) : Option (List Char × List Char) :=
  match cs with
  | [] => none
  | c :: rest =>
    if c = '"' then some ([], rest)
    else if c = '\\' then
      match _ : escape? rest with
      | none => none
      | some (e, rest') =>
        match readLiteral? rest' with
        | none => none
        | some (s, end') => some (e :: s, end')
    else if c.toNat < 0x20 then none
    else
      match readLiteral? rest with
      | none => none
      | some (s, end') => some (c :: s, end')
termination_by cs.length
decreasing_by
  · have := length_lt_of_escape? ‹_›
    simp only [List.length_cons]
    omega
  · simp

theorem length_lt_of_readLiteral? {cs s rest : List Char} (h : readLiteral? cs = some (s, rest)) :
    rest.length < cs.length := by
  fun_induction readLiteral? cs generalizing s with
    grind [→ length_lt_of_escape?]

end ShapeExport.Text
