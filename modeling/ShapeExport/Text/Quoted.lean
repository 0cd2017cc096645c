import ShapeExport.Text.Hex
import ShapeExport.Text.Printable

/-!
# Quoted texts in messages

A message quotes a text with apostrophes, or with double quotes when it holds an apostrophe and no
double quote. The quote in use and the backslash are escaped, and so is what is not printable.
-/

namespace ShapeExport.Text

def quoteMark (cs : List Char) : Char :=
  if cs.contains (Char.ofNat 0x27) && !cs.contains '"' then '"' else Char.ofNat 0x27

def quotedChar (mark c : Char) : List Char :=
  if c = mark ∨ c = '\\' then ['\\', c]
  else if c = '\n' then ['\\', 'n']
  else if c = '\r' then ['\\', 'r']
  else if c = '\t' then ['\\', 't']
  else if isPrintable c then [c]
  else if c.toNat < 0x100 then '\\' :: 'x' :: hexDigits 2 c.toNat
  else if c.toNat < 0x10000 then '\\' :: 'u' :: hexDigits 4 c.toNat
  else '\\' :: 'U' :: hexDigits 8 c.toNat

def quotedChars (cs : List Char) : List Char :=
  let mark := quoteMark cs
  mark :: cs.flatMap (quotedChar mark) ++ [mark]

def quoted (s : String) : String := String.ofList (quotedChars s.toList)

end ShapeExport.Text
