import ShapeExport.Json.Basic
import ShapeExport.Text.Literal

/-!
# Writing JSON

* `Json.compact` : on one line, with a blank after each comma and colon;
* `Json.pretty` : one item or member a line, indented by two blanks a level. Empty arrays and objects
  stay on one line.
-/

namespace ShapeExport.Json
open Text (Repertoire literalChars)

def scalarChars (b : Bool) : List Char :=
  if b then ['t', 'r', 'u', 'e'] else ['f', 'a', 'l', 's', 'e']

/-! ## On one line -/

mutual

def compactChars (r : Repertoire) : Json → List Char
  | .null => ['n', 'u', 'l', 'l']
  | .bool b => scalarChars b
  | .number n => (n.text .json).toList
  | .string s => literalChars r s.toList
  | .array [] => ['[', ']']
  | .array (x :: xs) => '[' :: (compactChars r x ++ compactItems r xs)
  | .object [] => ['\x7b', '\x7d']
  | .object ((k, v) :: ms) =>
    '\x7b' :: (literalChars r k.toList ++ ':' :: ' ' :: (compactChars r v ++ compactMembers r ms))

/-- The items behind the first, and the closing bracket. -/
def compactItems (r : Repertoire) : List Json → List Char
  | [] => [']']
  | x :: xs => ',' :: ' ' :: (compactChars r x ++ compactItems r xs)

/-- The members behind the first, and the closing brace. -/
def compactMembers (r : Repertoire) : List (String × Json) → List Char
  | [] => ['\x7d']
  | (k, v) :: ms =>
    ',' :: ' ' :: (literalChars r k.toList ++ ':' :: ' ' :: (compactChars r v ++ compactMembers r ms))

end

def compact (r : Repertoire) (j : Json) : String := String.ofList (compactChars r j)

/-! ## Indented -/

/-- A line break and the indentation of a level. -/
def lineBreak (level : Nat) : List Char := '\n' :: List.replicate (2 * level) ' '

mutual

def prettyChars (r : Repertoire) (level : Nat) : Json → List Char
  | .null => ['n', 'u', 'l', 'l']
  | .bool b => scalarChars b
  | .number n => (n.text .json).toList
  | .string s => literalChars r s.toList
  | .array [] => ['[', ']']
  | .array (x :: xs) =>
    '[' :: (lineBreak (level + 1) ++ prettyChars r (level + 1) x ++ prettyItems r level xs)
  | .object [] => ['\x7b', '\x7d']
  | .object ((k, v) :: ms) =>
    '\x7b' :: (lineBreak (level + 1) ++ literalChars r k.toList ++ ':' :: ' ' ::
      (prettyChars r (level + 1) v ++ prettyMembers r level ms))

def prettyItems (r : Repertoire) (level : Nat) : List Json → List Char
  | [] => lineBreak level ++ [']']
  | x :: xs =>
    ',' :: (lineBreak (level + 1) ++ prettyChars r (level + 1) x ++ prettyItems r level xs)

def prettyMembers (r : Repertoire) (level : Nat) : List (String × Json) → List Char
  | [] => lineBreak level ++ ['\x7d']
  | (k, v) :: ms =>
    ',' :: (lineBreak (level + 1) ++ literalChars r k.toList ++ ':' :: ' ' ::
      (prettyChars r (level + 1) v ++ prettyMembers r level ms))

end

def pretty (r : Repertoire) (j : Json) : String := String.ofList (prettyChars r 0 j)

end ShapeExport.Json
