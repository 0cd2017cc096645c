import ShapeExport.Number.Shortest
import ShapeExport.Text.Blank
import ShapeExport.Text.Digits

/-!
# Numbers as text

* `FloatStyle` : how a double is written; `FloatStyle.message` is used in messages and in script
  output, `FloatStyle.json` in JSON;
* `Binary64.text` : the shortest digits that read back. An exponent of the leading digit within the
  style's bounds gives the positional form, which always has a fractional part; any other gives one
  digit before the point and an exponent with a sign and at least two digits;
* `Binary64.read?` : reads a decimal, `inf` or `nan`, with blanks around it.
-/

namespace ShapeExport

structure FloatStyle where
  firstPositional : Int
  pastPositional : Int
  nan : String
  infinity : String

namespace FloatStyle

def message : FloatStyle := ⟨-4, 16, "nan", "inf"⟩

def json : FloatStyle := ⟨-4, 16, "NaN", "Infinity"⟩

end FloatStyle

namespace Decimal

/-- The digits without trailing zeros, and the exponent of the first of them. -/
def significant (d : Decimal) : List Char × Int :=
  let digits := Nat.toDigits 10 d.digits
  ((digits.reverse.dropWhile (· == '0')).reverse, d.exponent + digits.length - 1)

end Decimal

def zeros (n : Nat) : List Char := List.replicate n '0'

/-- Digits that start at `10 ^ lead`, written without an exponent. -/
def positional (digits : List Char) (lead : Int) : List Char :=
  if lead < 0 then '0' :: '.' :: (zeros (-lead - 1).toNat ++ digits)
  else
    let whole := lead.toNat + 1
    let fraction := digits.drop whole
    digits.take whole ++ zeros (whole - digits.length) ++
      '.' :: (if fraction.isEmpty then ['0'] else fraction)

/-- Digits that start at `10 ^ lead`, written with an exponent. -/
def scientific (digits : List Char) (lead : Int) : List Char :=
  let exponent := Nat.toDigits 10 lead.natAbs
  let fraction := digits.drop 1
  digits.take 1 ++ (if fraction.isEmpty then [] else '.' :: fraction) ++
    'e' :: (if lead < 0 then '-' else '+') :: (zeros (2 - exponent.length) ++ exponent)

namespace Binary64

def magnitudeChars (style : FloatStyle) (units : Nat) : List Char :=
  if units = 0 then ['0', '.', '0']
  else
    let (digits, lead) := (shortest units).significant
    if style.firstPositional ≤ lead ∧ lead < style.pastPositional then positional digits lead
    else scientific digits lead

def text (style : FloatStyle) : Binary64 → String
  | nan _ => style.nan
  | infinite negative => (if negative then "-" else "") ++ style.infinity
  | finite negative units =>
    (if negative then "-" else "") ++ String.ofList (magnitudeChars style units)

end Binary64

/-- The number that decimal digits stand for. -/
def digitsValue (cs : List Char) : Nat := cs.foldl (fun n c => 10 * n + (c.toNat - 0x30)) 0

/-- Drops a sign and tells whether it was a minus. -/
def readSign : List Char → Bool × List Char
  | '-' :: cs => (true, cs)
  | '+' :: cs => (false, cs)
  | cs => (false, cs)

namespace Binary64

/-- Reads an exponent behind its letter. -/
def readExponent? (cs : List Char) : Option Int :=
  let (negative, digits) := readSign cs
  if digits.isEmpty || !digits.all Char.isDigit then none
  else some (if negative then -(digitsValue digits : Int) else digitsValue digits)

/-- Reads digits with an optional point and an optional exponent. -/
def readMagnitude? (negative : Bool) (cs : List Char) : Option Binary64 := do
  let whole := cs.takeWhile Char.isDigit
  let rest := cs.dropWhile Char.isDigit
  let (fraction, rest) := match rest with
    | '.' :: more => (more.takeWhile Char.isDigit, more.dropWhile Char.isDigit)
    | _ => ([], rest)
  if whole.isEmpty && fraction.isEmpty then none
  let exponent ← match rest with
    | [] => some 0
    | c :: more => if c = 'e' ∨ c = 'E' then readExponent? more else none
  some (ofDecimal negative (digitsValue (whole ++ fraction)) (exponent - fraction.length))

/-- Reads the text of a double; a result that is not a number gets the serial. -/
def read? (serial : Nat) (s : String) : Option Binary64 :=
  let (negative, cs) := readSign ((Text.trim s).toList.map Char.toLower)
  if cs = ['n', 'a', 'n'] then some (nan serial)
  else if cs = ['i', 'n', 'f'] ∨ cs = ['i', 'n', 'f', 'i', 'n', 'i', 't', 'y'] then
    some (infinite negative)
  else readMagnitude? negative (Text.ungrouped Char.isDigit cs)

end Binary64

end ShapeExport
