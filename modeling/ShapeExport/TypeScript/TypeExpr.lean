import ShapeExport.Text.Pieces
import ShapeExport.TypeId

/-!
# TypeScript types

* `TypeExpr` : a type expression. A name that stands for a record carries the record's key;
* `TypeExpr.text` : the text of a type expression;
* `TypeExpr.arrayOf`, `TypeExpr.nullableOf`, `TypeExpr.unionOf` : build types so that operators bind
  as they should. They look at the text of the parts.
-/

namespace ShapeExport.TypeScript

/-- A member of an object type: a comment, a key as it is written, and a type. -/
structure Member (τ : Type) where
  comment : String := ""
  key : String
  optional : Bool := false
  type : τ
deriving Repr

inductive TypeExpr
  /-- A built-in type. -/
  | builtin (name : String)
  /-- A constant, as it is written. -/
  | constant (text : String)
  /-- Hand-written text. -/
  | verbatim (text : String)
  | parameter (name : String)
  | named (target : TypeKey) (name : String) (arguments : List TypeExpr)
  | array (element : TypeExpr)
  | tuple (elements : List TypeExpr)
  /-- An object with any of the keys that belong to a type. -/
  | mapped (key value : TypeExpr)
  | nullable (inner : TypeExpr)
  | emptyObject
  | object (members : List (Member TypeExpr))
  | union (members : List TypeExpr)
  /-- An object with a tag, joined with a payload. -/
  | intersection (left right : TypeExpr)
  | grouped (inner : TypeExpr)
deriving Repr

namespace TypeExpr

def null : TypeExpr := builtin "null"

/-- An object with any of the keys that belong to a type, from the texts of both. -/
def mappedText (key value : String) : String :=
  "Partial<\x7b [key in " ++ key ++ "]: " ++ value ++ " \x7d>"

mutual

def text : TypeExpr → String
  | builtin name => name
  | constant text => text
  | verbatim text => text
  | parameter name => name
  | named _ name [] => name
  | named _ name (a :: as) => name ++ "<" ++ a.text ++ texts ", " as ++ ">"
  | array element => element.text ++ "[]"
  | tuple [] => "[]"
  | tuple (e :: es) => "[" ++ e.text ++ texts ", " es ++ "]"
  | mapped key value => mappedText key.text value.text
  | nullable inner => inner.text ++ " | null"
  | emptyObject => "Record<string, never>"
  | object [] => "\x7b  \x7d"
  | object (m :: ms) => "\x7b " ++ memberText m ++ memberTexts ms ++ " \x7d"
  | union [] => ""
  | union (e :: es) => e.text ++ texts " | " es
  | intersection left right => left.text ++ " & " ++ right.text
  | grouped inner => "(" ++ inner.text ++ ")"

/-- The texts of further types, each with a separator in front. -/
def texts (separator : String) : List TypeExpr → String
  | [] => ""
  | e :: es => separator ++ e.text ++ texts separator es

def memberText : Member TypeExpr → String
  | ⟨comment, key, optional, type⟩ =>
    comment ++ key ++ (if optional then "?" else "") ++ ": " ++ type.text

/-- The texts of further members. -/
def memberTexts : List (Member TypeExpr) → String
  | [] => ""
  | m :: ms => "; " ++ memberText m ++ memberTexts ms

end

/-- Whether a text needs parentheses in front of brackets: it has a blank, and is no object. -/
def needsGroup (text : String) : Bool :=
  let cs := text.toList
  cs.contains ' ' && (cs.getLast? != some '\x7d' || cs.contains '&' || cs.contains '|')

def groupFor (e : TypeExpr) : TypeExpr := if needsGroup e.text then grouped e else e

/-- An array, or a tuple of as many elements as the length says. -/
def arrayOf (element : TypeExpr) (length : Option Int) : TypeExpr :=
  match length with
  | none => array element.groupFor
  | some n => tuple (List.replicate n.toNat element.groupFor)

/-- A type or null; a type that already ends so stays as it is. -/
def nullableOf (e : TypeExpr) : TypeExpr := if e.text.endsWith " | null" then e else nullable e

/-- The union of types; those that are written alike count once. -/
def unionOf (es : List TypeExpr) : TypeExpr := union (Text.distinctBy text es)

end TypeExpr

end ShapeExport.TypeScript
