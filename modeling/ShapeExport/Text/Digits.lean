/-!
# Grouped digits

In a numeral that comes as a text of its own, an underscore may stand between two digits.
`Text.ungrouped` takes these underscores out; others stay, and make the text no numeral.
-/

namespace ShapeExport.Text

def ungrouped (isDigit : Char → Bool) : List Char → List Char
  | a :: '_' :: b :: cs =>
    if isDigit a && isDigit b then a :: ungrouped isDigit (b :: cs)
    else a :: '_' :: ungrouped isDigit (b :: cs)
  | c :: cs => c :: ungrouped isDigit cs
  | [] => []

end ShapeExport.Text
