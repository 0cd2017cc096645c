import ShapeExport.Json.Basic

/-!
# Literals

A literal is a constant scalar. An integer literal lies in the range of its width.

* `Literal.ofJson?` : the literal of a kind and a value, if the value fits the kind;
* `Literal.json` : the value of a literal;
* `Literal.same` : literals are equal when their kinds are and their values are.
-/

namespace ShapeExport

/-- The widths of integer literals. -/
inductive IntWidth
  | i8
  | i16
  | i32
  | u8
  | u16
  | u32
deriving DecidableEq, Repr

namespace IntWidth

def low : IntWidth → Int
  | i8 => -128
  | i16 => -32768
  | i32 => -2147483648
  | u8 | u16 | u32 => 0

def high : IntWidth → Int
  | i8 => 127
  | i16 => 32767
  | i32 => 2147483647
  | u8 => 255
  | u16 => 65535
  | u32 => 4294967295

end IntWidth

/-- The widths of floating-point literals. -/
inductive FloatWidth
  | f32
  | f64
deriving DecidableEq, Repr

inductive LiteralKind
  | integer (width : IntWidth)
  | float (width : FloatWidth)
  | bool
  | string
  | char
  | none
deriving DecidableEq, Repr

namespace LiteralKind

def all : List LiteralKind :=
  [.integer .i8, .integer .i16, .integer .i32, .integer .u8, .integer .u16, .integer .u32,
    .float .f32, .float .f64, .bool, .string, .char, .none]

def name : LiteralKind → String
  | .integer .i8 => "i8"
  | .integer .i16 => "i16"
  | .integer .i32 => "i32"
  | .integer .u8 => "u8"
  | .integer .u16 => "u16"
  | .integer .u32 => "u32"
  | .float .f32 => "f32"
  | .float .f64 => "f64"
  | .bool => "bool"
  | .string => "String"
  | .char => "char"
  | .none => "None"

def ofName? (s : String) : Option LiteralKind := all.find? (·.name == s)

end LiteralKind

/-- A floating-point literal may be given by an integer of any size. -/
inductive Literal
  | integer (width : IntWidth) (value : Int) (inRange : width.low ≤ value ∧ value ≤ width.high)
  | float (width : FloatWidth) (value : Number)
  | bool (value : Bool)
  | string (value : String)
  | char (value : Char)
  | none
deriving DecidableEq, Repr

namespace Literal

def kind : Literal → LiteralKind
  | integer width _ _ => .integer width
  | float width _ => .float width
  | bool _ => .bool
  | string _ => .string
  | char _ => .char
  | none => .none

def json : Literal → Json
  | integer _ value _ => .number (.integer value)
  | float _ value => .number value
  | bool value => .bool value
  | string value => .string value
  | char value => .string (String.singleton value)
  | none => .null

def ofJson? : LiteralKind → Json → Option Literal
  | .integer width, .number (.integer value) =>
    if h : width.low ≤ value ∧ value ≤ width.high then some (integer width value h) else Option.none
  | .float width, .number value => some (float width value)
  | .bool, .bool value => some (bool value)
  | .string, .string value => some (string value)
  | .char, .string value =>
    match value.toList with
    | [c] => some (char c)
    | _ => Option.none
  | .none, .null => some none
  | _, _ => Option.none

def isStringLike : Literal → Bool
  | string _ | char _ => true
  | _ => false

def isNumber : Literal → Bool
  | integer .. | float .. => true
  | _ => false

def same (a b : Literal) : Bool := a.kind == b.kind && a.json.same b.json

/-- The text of a number, or a string as it is. -/
def plainText (l : Literal) : String :=
  match l.json with
  | .number n => n.text .message
  | .string s => s
  | j => j.quoted

end Literal

end ShapeExport
