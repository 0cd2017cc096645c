import ShapeExport.Error
import ShapeExport.Json.Reader

/-!
# Checks of generated code

A check that generated code is whole, made before it is written.

* `Script.afterString?`, `Script.afterBlock?` : what follows a string literal or a block comment;
* `Script.bracket?` : what a character does to the brackets that are open;
* `Script.check` : brackets outside literals and comments are balanced, and all of these have an end;
* `Language.checkOutput` : the check for a language. JSON Schema must be JSON. What makes a text
  unreadable without being against the rules of JSON is an error of its own.
-/

namespace ShapeExport

namespace Script

/-- The marks that open a string literal. -/
def isQuote (c : Char) : Bool := c == '"' || c == Char.ofNat 0x27 || c == Char.ofNat 0x60

/-- What follows the literal that `mark` closes. A backslash protects the character behind it. -/
def afterString? (mark : Char) : List Char → Option (List Char)
  | [] => none
  | c :: cs =>
    if c = '\\' then
      match cs with
      | [] => none
      | _ :: rest => afterString? mark rest
    else if c = mark then some cs
    else afterString? mark cs

/-- What follows a block comment, read from behind its opening. -/
def afterBlock? : List Char → Option (List Char)
  | '*' :: '/' :: rest => some rest
  | _ :: rest => afterBlock? rest
  | [] => none

/-- What follows a line comment; the line break is not part of it. -/
def afterLine (cs : List Char) : List Char := cs.dropWhile (· ≠ '\n')

/-! ## Brackets -/

/-- The brackets that open, and the ones that close them. -/
def brackets : List (Char × Char) := [('\x7b', '\x7d'), ('[', ']'), ('(', ')')]

/-- The brackets that are to be closed after a character, the innermost first; nothing if the
character closes another bracket. -/
def bracket? (toClose : List Char) (c : Char) : Option (List Char) :=
  match brackets.lookup c with
  | some closing => some (closing :: toClose)
  | none =>
    if brackets.any (·.2 = c) then
      match toClose with
      | [] => none
      | closing :: rest => if closing = c then some rest else none
    else some toClose

/-! ## What is left is shorter -/

theorem length_afterString?_le {mark : Char} {cs rest : List Char}
    (h : afterString? mark cs = some rest) : rest.length ≤ cs.length := by
  fun_induction afterString? mark cs with grind

theorem length_afterBlock?_le {cs rest : List Char} (h : afterBlock? cs = some rest) :
    rest.length ≤ cs.length := by
  fun_induction afterBlock? cs with grind

theorem length_afterLine_le (cs : List Char) : (afterLine cs).length ≤ cs.length :=
  (List.dropWhile_suffix _).length_le

/-! ## The check -/

/-- Checks what is left of a script of the given length. -/
def checkFrom (length : Nat) (toClose : List Char) (cs : List Char) : Except OutputFault Unit :=
  match cs with
  | [] => if toClose.isEmpty then .ok () else .error (.unclosed toClose.length)
  | c :: cs =>
    if isQuote c then
      match _ : afterString? c cs with
      | none => .error (.unterminatedString (length - (cs.length + 1)))
      | some rest => checkFrom length toClose rest
    else if c = '/' ∧ cs.head? = some '/' then checkFrom length toClose (afterLine cs)
    else if c = '/' ∧ cs.head? = some '*' then
      match _ : afterBlock? cs.tail with
      | none => .error .unterminatedComment
      | some rest => checkFrom length toClose rest
    else match bracket? toClose c with
      | none => .error (.unbalanced c (length - (cs.length + 1)))
      | some toClose => checkFrom length toClose cs
termination_by cs.length
decreasing_by
  · exact Nat.lt_succ_of_le (length_afterString?_le ‹_›)
  · exact Nat.lt_succ_of_le (length_afterLine_le cs)
  · have := length_afterBlock?_le ‹_›
    simp only [List.length_tail, List.length_cons] at *
    omega
  · simp

def check (s : String) : Except OutputFault Unit := checkFrom s.length [] s.toList

end Script

namespace Error

/-- The error of JSON output that is not read. -/
def ofUnreadOutput : Json.ReadFault → Error
  | .malformed => .invalidOutput .notJson
  | .longInteger digits => .longInteger digits
  | .tooDeep => .tooDeep

end Error

namespace Language

def checkOutput (l : Language) (s : String) : Except Error Unit :=
  match l with
  | typescript | zod => (Script.check s).mapError .invalidOutput
  | jsonschema => ((Json.read s).map fun _ => ()).mapError .ofUnreadOutput

end Language

/-- The check for the language with the given name. -/
def checkOutput (language s : String) : Except Error Unit :=
  match Language.ofName? language with
  | some l => l.checkOutput s
  | none => .error (.unknownOutputLanguage language)

end ShapeExport
