import ShapeExport.Number.Basic
import ShapeExport.OrderedMap
import ShapeExport.Text.Quoted

/-!
# JSON values

* `Json` : a value; an object is a list of members in order;
* `Json.same` : the equality used to collapse repeated schemas. It compares numbers by value, takes
  `true` and `false` for one and zero, and ignores the order of members;
* `Json.isTruthy` : whether a value counts as set;
* `Json.quoted` : the text of a value in a message;
* `Json.depth`, `Json.hasShortIntegers` : how deeply arrays and objects lie in each other, and whether
  integers have few digits. Both have a limit where texts are read and written.
-/

namespace ShapeExport

inductive Json
  | null
  | bool (b : Bool)
  | number (n : Number)
  | string (s : String)
  | array (items : List Json)
  | object (members : List (String × Json))
deriving Repr, Inhabited

namespace Json

def integer (n : Int) : Json := .number (.integer n)

/-- A text, or null. -/
def ofText? (s : Option String) : Json := (s.map string).getD null

/-- The members of an object, in order. -/
abbrev Members := OrderedMap Json

/-- The number a value stands for when it is compared. -/
def numeric? : Json → Option Number
  | .bool b => some (.integer (if b then 1 else 0))
  | .number n => some n
  | _ => none

mutual

def same : Json → Json → Bool
  | .null, .null => true
  | .bool b, y => y.numeric?.any (Number.eq (.integer (if b then 1 else 0)))
  | .number n, y => y.numeric?.any (Number.eq n)
  | .string s, .string t => s == t
  | .array xs, .array ys => sameItems xs ys
  | .object ms, .object ns => ms.length == ns.length && sameMembers ms ns
  | _, _ => false

def sameItems : List Json → List Json → Bool
  | [], [] => true
  | x :: xs, y :: ys => same x y && sameItems xs ys
  | _, _ => false

/-- Whether each member has an equal member of the same key among `ns`. -/
def sameMembers : List (String × Json) → Members → Bool
  | [], _ => true
  | (k, v) :: ms, ns =>
    (match ns.lookup k with
      | some w => same v w
      | none => false) && sameMembers ms ns

end

def isTruthy : Json → Bool
  | .null => false
  | .bool b => b
  | .number n => !n.eq (.integer 0)
  | .string s => !s.isEmpty
  | .array items => !items.isEmpty
  | .object members => !members.isEmpty

mutual

def quoted : Json → String
  | .null => "None"
  | .bool b => if b then "True" else "False"
  | .number n => n.text .message
  | .string s => Text.quoted s
  | .array [] => "[]"
  | .array (x :: xs) => "[" ++ quoted x ++ quotedItems xs
  | .object [] => "\x7b\x7d"
  | .object ((k, v) :: ms) => "\x7b" ++ Text.quoted k ++ ": " ++ quoted v ++ quotedMembers ms

def quotedItems : List Json → String
  | [] => "]"
  | x :: xs => ", " ++ quoted x ++ quotedItems xs

def quotedMembers : List (String × Json) → String
  | [] => "\x7d"
  | (k, v) :: ms => ", " ++ Text.quoted k ++ ": " ++ quoted v ++ quotedMembers ms

end

/-! ## Nesting -/

mutual

/-- How many arrays and objects lie in each other. -/
def depth : Json → Nat
  | .array items => itemsDepth items + 1
  | .object members => membersDepth members + 1
  | _ => 0

def itemsDepth : List Json → Nat
  | [] => 0
  | x :: xs => Nat.max (depth x) (itemsDepth xs)

def membersDepth : List (String × Json) → Nat
  | [] => 0
  | (_, v) :: ms => Nat.max (depth v) (membersDepth ms)

end

/-- The depth up to which values are read and written. -/
def maxDepth : Nat := 988

/-! ## Long integers -/

/-- How many digits an integer may have. -/
def maxDigits : Nat := 4300

mutual

/-- Whether no integer has more digits than are read and written. -/
def hasShortIntegers : Json → Bool
  | .number (.integer n) => decide ((Nat.toDigits 10 n.natAbs).length ≤ maxDigits)
  | .array items => itemsHaveShortIntegers items
  | .object members => membersHaveShortIntegers members
  | _ => true

def itemsHaveShortIntegers : List Json → Bool
  | [] => true
  | x :: xs => hasShortIntegers x && itemsHaveShortIntegers xs

def membersHaveShortIntegers : List (String × Json) → Bool
  | [] => true
  | (_, v) :: ms => hasShortIntegers v && membersHaveShortIntegers ms

end

/-! ## Reading members -/

def isScalar : Json → Bool
  | .array _ | .object _ => false
  | _ => true

def get? (j : Json) (key : String) : Option Json :=
  match j with
  | .object members => members.lookup key
  | _ => none

def string? : Json → Option String
  | .string s => some s
  | _ => none

def bool? : Json → Option Bool
  | .bool b => some b
  | _ => none

def int? : Json → Option Int
  | .number (.integer n) => some n
  | _ => none

def array? : Json → Option (List Json)
  | .array items => some items
  | _ => none

def object? : Json → Option Members
  | .object members => some members
  | _ => none

end Json

end ShapeExport
