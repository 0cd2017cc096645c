/-!
# Styled text

For a terminal the escape character, an opening bracket, parameters and a letter change the style of
what follows.

* `Text.afterStyle?` : what follows such a sequence;
* `Text.unstyled` : a text without them, as it is printed elsewhere.
-/

namespace ShapeExport.Text

def isStyleParameter (c : Char) : Bool := c == ';' || c == '?' || c.isDigit

/-- What follows the sequence that starts with an escape character; read from behind that. -/
def afterStyle? : List Char → Option (List Char)
  | '[' :: cs =>
    match cs.dropWhile isStyleParameter with
    | c :: rest => if c.isAlpha then some rest else none
    | [] => none
  | _ => none

theorem length_afterStyle?_le {cs rest : List Char} (h : afterStyle? cs = some rest) :
    rest.length ≤ cs.length := by
  unfold afterStyle? at h
  split at h
  · next cs =>
    have := (List.dropWhile_suffix isStyleParameter (l := cs)).length_le
    grind
  · simp at h

def unstyledChars (cs : List Char) : List Char :=
  match cs with
  | [] => []
  | c :: cs =>
    if c = '\x1b' then
      match _ : afterStyle? cs with
      | some rest => unstyledChars rest
      | none => c :: unstyledChars cs
    else c :: unstyledChars cs
termination_by cs.length
decreasing_by
  · exact Nat.lt_succ_of_le (length_afterStyle?_le ‹_›)
  · simp
  · simp

def unstyled (s : String) : String := String.ofList (unstyledChars s.toList)

end ShapeExport.Text
