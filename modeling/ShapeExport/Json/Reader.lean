import ShapeExport.Json.Token

/-!
# Reading JSON

`Json.read` reads a whole text. The tokens are taken one by one; the arrays and objects that are
still open wait on a stack of frames, so the recursion follows the list of tokens, and the first
fault on the way from left to right is the one that is reported.
-/

namespace ShapeExport.Json

/-- Why a text is not read. -/
inductive ReadFault
  | malformed
  | longInteger (digits : Nat)
  | tooDeep
deriving DecidableEq, Repr

/-- An open array or object: what it holds so far and, in an object, the key being read. The items of
an array are held last item first. -/
inductive Frame
  | array (done : List Json)
  | object (done : Members) (key : String)

/-- Whether nothing more can be opened inside the frames. -/
def isFull (stack : List Frame) : Bool := maxDepth ≤ stack.length

mutual

/-- Reads a value. -/
def readValue (stack : List Frame) : List Token → Except ReadFault Json
  | .scalar j :: ts => readAfter stack j ts
  | .string s :: ts => readAfter stack (.string s) ts
  | .longInteger digits :: _ => .error (.longInteger digits)
  | .openArray :: ts =>
    if isFull stack then .error .tooDeep
    else match ts with
      | .closeArray :: ts => readAfter stack (.array []) ts
      | ts => readValue (.array [] :: stack) ts
  | .openObject :: ts =>
    if isFull stack then .error .tooDeep
    else match ts with
      | .closeObject :: ts => readAfter stack (.object []) ts
      | .string key :: .colon :: ts => readValue (.object [] key :: stack) ts
      | _ => .error .malformed
  | _ => .error .malformed
termination_by ts => ts.length

/-- Reads on behind a value. -/
def readAfter (stack : List Frame) (value : Json) : List Token → Except ReadFault Json
  | [] => if stack.isEmpty then .ok value else .error .malformed
  | t :: ts =>
    match stack, t, ts with
    | .array done :: stack, .comma, ts => readValue (.array (value :: done) :: stack) ts
    | .array done :: stack, .closeArray, ts => readAfter stack (.array (value :: done).reverse) ts
    | .object done key :: stack, .comma, .string next :: .colon :: ts =>
      readValue (.object (done.insert key value) next :: stack) ts
    | .object done key :: stack, .closeObject, ts =>
      readAfter stack (.object (done.insert key value)) ts
    | _, _, _ => .error .malformed
termination_by ts => ts.length

end

def read (s : String) : Except ReadFault Json := readValue [] (Token.scan s.toList)

/-- The value of a text, if the text is JSON. -/
def read? (s : String) : Option Json := (read s).toOption

end ShapeExport.Json
