import ShapeExport.Text.Blank
import ShapeExport.Text.Digits

/-!
# Hexadecimal numerals

* `hexDigits` : the digits of a number in lower case, filled with zeros to a least width;
* `hexValue?` : the number that a digit of either case stands for;
* `hexNumber?`, `hexNumeral?` : the number of a whole text. A numeral may have blanks around it, and
  a plus sign or `0x` in front.
-/

namespace ShapeExport.Text

def hexDigits (width n : Nat) : List Char :=
  let digits := Nat.toDigits 16 n
  List.replicate (width - digits.length) '0' ++ digits

def hexText (width n : Nat) : String := String.ofList (hexDigits width n)

def hexValue? (c : Char) : Option Nat :=
  let n := c.toNat
  if 0x30 ≤ n ∧ n ≤ 0x39 then some (n - 0x30)
  else if 0x61 ≤ n ∧ n ≤ 0x66 then some (n - 0x61 + 10)
  else if 0x41 ≤ n ∧ n ≤ 0x46 then some (n - 0x41 + 10)
  else none

/-- The number a whole text of hexadecimal digits stands for. -/
def hexNumber? (cs : List Char) : Option Nat :=
  if cs.isEmpty then none
  else cs.foldlM (fun n c => (hexValue? c).map (16 * n + ·)) 0

/-- What follows the plus sign that may be in front. -/
def withoutPlus : List Char → List Char
  | '+' :: cs => cs
  | cs => cs

/-- What follows the mark of a hexadecimal numeral, which may be in front. -/
def withoutHexMark : List Char → List Char
  | '0' :: 'x' :: '_' :: cs | '0' :: 'X' :: '_' :: cs | '0' :: 'x' :: cs | '0' :: 'X' :: cs => cs
  | cs => cs

def hexNumeral? (s : String) : Option Nat :=
  hexNumber? <| ungrouped (fun c => (hexValue? c).isSome)
    (withoutHexMark (withoutPlus (trim s).toList))

end ShapeExport.Text
