import ShapeExport.Error
import ShapeExport.Text.CaseMap
import ShapeExport.Text.Letter
import ShapeExport.Text.Pieces

/-!
# Casing rules

How the names of variants and fields are cased when they are serialized.

* `Casing.ofName` : the rule that a text names;
* `Casing.variantChars`, `Casing.onVariant` : apply a rule to a variant, which is expected in
  PascalCase. The separators go in front of the capitals;
* `Casing.fieldChars`, `Casing.onField` : apply a rule to a field, which is expected in snake_case.
  The words lie between the underscores.
-/

namespace ShapeExport
open Text (upperChar lowerChar lowerFrom isCapital splitChars)

inductive Casing
  | none
  | lower
  | upper
  | pascal
  | camel
  | snake
  | screamingSnake
  | kebab
  | screamingKebab
deriving DecidableEq, Repr

namespace Casing

/-- The rules that have a name to be asked for. -/
def named : List Casing :=
  [lower, upper, pascal, camel, snake, screamingSnake, kebab, screamingKebab]

def name : Casing → String
  | none => "none"
  | lower => "lowercase"
  | upper => "UPPERCASE"
  | pascal => "PascalCase"
  | camel => "camelCase"
  | snake => "snake_case"
  | screamingSnake => "SCREAMING_SNAKE_CASE"
  | kebab => "kebab-case"
  | screamingKebab => "SCREAMING-KEBAB-CASE"

def ofName? (s : String) : Option Casing := named.find? (·.name == s)

def ofName (s : String) : Except Error Casing :=
  ((ofName? s).map Except.ok).getD (.error (.unknownCasing (.string s)))

/-- The rule that a value names at a place. Null is for no rule. -/
def ofJson (path : Path) : Json → Except Error Casing
  | .null => .ok none
  | casing =>
    match casing.string?.bind ofName? with
    | some rule => .ok rule
    | .none => .error (.invalidTagging path (.unknownCasing casing))

/-! ## On characters -/

/-- Applies a case mapping to the first character only. -/
def mapFirst (f : Char → List Char) : List Char → List Char
  | [] => []
  | c :: cs => f c ++ cs

/-- Dashes for underscores. -/
def dashed (cs : List Char) : List Char := cs.map fun c => if c = '_' then '-' else c

/-- A character of a snake form that is not the first one. -/
def snakeChar (c : Char) : List Char :=
  if isCapital c then '_' :: lowerChar c else lowerChar c

def snakeChars : List Char → List Char
  | [] => []
  | c :: cs => lowerChar c ++ cs.flatMap snakeChar

/-- The words of a field, each with its first character in upper case. -/
def pascalChars (cs : List Char) : List Char :=
  (splitChars '_' cs).flatMap (mapFirst upperChar)

def variantChars (rule : Casing) (cs : List Char) : List Char :=
  match rule with
  | none | pascal => cs
  | lower => lowerFrom [] cs
  | upper => cs.flatMap upperChar
  | camel => mapFirst lowerChar cs
  | snake => snakeChars cs
  | screamingSnake => (snakeChars cs).flatMap upperChar
  | kebab => dashed (snakeChars cs)
  | screamingKebab => dashed ((snakeChars cs).flatMap upperChar)

def fieldChars (rule : Casing) (cs : List Char) : List Char :=
  match rule with
  | none | lower | snake => cs
  | upper | screamingSnake => cs.flatMap upperChar
  | pascal => pascalChars cs
  | camel => mapFirst lowerChar (pascalChars cs)
  | kebab => dashed cs
  | screamingKebab => dashed (cs.flatMap upperChar)

def onVariant (rule : Casing) (s : String) : String := String.ofList (rule.variantChars s.toList)

def onField (rule : Casing) (s : String) : String := String.ofList (rule.fieldChars s.toList)

end Casing

end ShapeExport
