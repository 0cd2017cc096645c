import ShapeExport.Error

/-!
# Checked construction

Parts that come from outside need not fit.

* `Literal.ofJson` : the literal of a kind and a value;
* `Body.ofFields` : the body of a kind with fields and a tag;
* `Record.reference` : a reference to a record with arguments;
* `memberOf` : the member of an enumeration that a value names;
* `TypeKey.hashOfText`, `Binary64.ofText` : the number that a text stands for.
-/

namespace ShapeExport

/-- The member of an enumeration that a value names. -/
def memberOf {α : Type} (enumeration : String) (all : List α) (name : α → String) (j : Json) :
    Except Error α :=
  match j with
  | .string s =>
    match all.find? fun a => name a == s with
    | some a => .ok a
    | none => .error (.notAMember j enumeration)
  | _ => .error (.notAMember j enumeration)

/-! ## Numbers -/

def TypeKey.hashOfText (s : String) : Except Error Nat :=
  match Text.hexNumeral? s with
  | some n => .ok n
  | none => .error (.invalidHash s)

/-- A result that is not a number gets the serial. -/
def Binary64.ofText (serial : Nat) (s : String) : Except Error Binary64 :=
  match Binary64.read? serial s with
  | some x => .ok x
  | none => .error (.invalidDouble s)

/-! ## Literals -/

def Literal.ofJson (kind : LiteralKind) (value : Json) : Except Error Literal :=
  ((Literal.ofJson? kind value).map Except.ok).getD (.error (.invalidLiteral kind value))

/-! ## Bodies -/

/-- The kinds of bodies. -/
inductive BodyKind
  | unit
  | positional
  | named
deriving DecidableEq, Repr

namespace BodyKind

def all : List BodyKind := [unit, positional, named]

def name : BodyKind → String
  | unit => "unit"
  | positional => "unnamed"
  | named => "named"

end BodyKind

namespace Body

variable {σ : Type}

def kind : Body σ → BodyKind
  | unit => .unit
  | positional _ => .positional
  | named .. => .named

/-- The fields, with their names if they have one. -/
def fields : Body σ → List (Field (Option String) σ)
  | unit => []
  | positional fields => fields
  | named _ fields => fields.map fun f => f.withName (some f.name)

def tag : Body σ → Option String
  | named tag _ => tag
  | _ => none

/-- The fields with their names, if each has one. -/
def namedFields? (fields : List (Field (Option String) σ)) : Option (List (Field String σ)) :=
  fields.mapM fun f => f.name.map f.withName

def ofFields (kind : BodyKind) (fields : List (Field (Option String) σ)) (tag : Option String) :
    Except Error (Body σ) :=
  match kind with
  | .named =>
    match namedFields? fields with
    | some fields => .ok (named tag fields)
    | none => .error (.invalidBody .namelessField)
  | .unit =>
    if !fields.isEmpty then .error (.invalidBody .unitWithFields)
    else if tag.isSome then .error (.invalidBody .misplacedTag)
    else .ok unit
  | .positional => if tag.isSome then .error (.invalidBody .misplacedTag) else .ok (positional fields)

end Body

/-! ## References -/

namespace Record

/-- A reference to the record, with an argument for each of its parameters. -/
def reference (r : Record) (arguments : List Shape) : Except Error Shape :=
  if arguments.length = r.parameters.length then .ok (.reference r.id arguments)
  else .error (.argumentCount r.name r.parameters.length arguments.length)

end Record

end ShapeExport
