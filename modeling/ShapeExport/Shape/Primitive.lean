/-!
# Primitive kinds

The closed vocabulary of scalar shapes, their names, and the classes that renderers tell apart.
-/

namespace ShapeExport

inductive Primitive
  | i8
  | i16
  | i32
  | i64
  | i128
  | isize
  | u8
  | u16
  | u32
  | u64
  | u128
  | usize
  | f16
  | f32
  | f64
  | bool
  | char
  | string
deriving DecidableEq, Repr

namespace Primitive

def all : List Primitive :=
  [i8, i16, i32, i64, i128, isize, u8, u16, u32, u64, u128, usize, f16, f32, f64, bool, char, string]

def name : Primitive → String
  | i8 => "i8"
  | i16 => "i16"
  | i32 => "i32"
  | i64 => "i64"
  | i128 => "i128"
  | isize => "isize"
  | u8 => "u8"
  | u16 => "u16"
  | u32 => "u32"
  | u64 => "u64"
  | u128 => "u128"
  | usize => "usize"
  | f16 => "f16"
  | f32 => "f32"
  | f64 => "f64"
  | bool => "bool"
  | char => "char"
  | string => "String"

def ofName? (s : String) : Option Primitive := all.find? (·.name == s)

/-- Integers of 64 bits and more, which a double cannot hold exactly. -/
def isBigInt : Primitive → Bool
  | i64 | i128 | isize | u64 | u128 | usize => true
  | _ => false

def isInteger : Primitive → Bool
  | i8 | i16 | i32 | u8 | u16 | u32 => true
  | k => k.isBigInt

def isFloat : Primitive → Bool
  | f16 | f32 | f64 => true
  | _ => false

def isNumber (k : Primitive) : Bool := k.isInteger || k.isFloat

def isUnsigned : Primitive → Bool
  | u8 | u16 | u32 | u64 | u128 | usize => true
  | _ => false

def isStringLike : Primitive → Bool
  | string | char => true
  | _ => false

theorem isInteger_of_isBigInt {k : Primitive} (h : k.isBigInt) : k.isInteger := by
  cases k <;> simp_all [isBigInt, isInteger]

end Primitive

end ShapeExport
