import ShapeExport.Text.Pieces
import ShapeExport.TypeId

/-!
# Zod schemas

* `Schema` : a schema expression. A reference carries the key of the record it stands for;
* `Schema.text` : the text of a schema;
* `Schema.nullableOf`, `Schema.unionOf` : build schemas with a look at the text of the parts.
-/

namespace ShapeExport.Zod

/-- The schemas without parts. -/
inductive Scalar
  | string
  | char
  | integer
  | number
  | bigint
  | boolean
  | null
  | never
  /-- A string that is the decimal text of an integer. -/
  | integerKey
  /-- A string that is the decimal text of a number. -/
  | numberKey
deriving DecidableEq, Repr

namespace Scalar

def text : Scalar → String
  | string => "z.string()"
  | char => "z.string().length(1)"
  | integer => "z.number().int()"
  | number => "z.number()"
  | bigint => "z.bigint()"
  | boolean => "z.boolean()"
  | null => "z.null()"
  | never => "z.never()"
  | integerKey => "z.string().regex(/^-?[0-9]+$/)"
  | numberKey => "z.string().regex(/^-?[0-9]+(\\.[0-9]+)?([eE][-+]?[0-9]+)?$/)"

end Scalar

/-- A member of an object schema; the key is as it is written. -/
structure Member (σ : Type) where
  key : String
  schema : σ
  optional : Bool := false
deriving Repr

inductive Schema
  | scalar (kind : Scalar)
  /-- A constant, as it is written. -/
  | literal (text : String)
  /-- A hand-written type that is not checked. -/
  | custom (type : String)
  | parameter (name : String)
  /-- A schema that is looked up when it is used. -/
  | lazy (target : TypeKey) (name : String) (arguments : List Schema)
  | array (element : Schema)
  | tuple (elements : List Schema)
  | record (key value : Schema)
  | nullable (inner : Schema)
  | emptyObject
  | object (members : List (Member Schema))
  | union (members : List Schema)
  /-- An object with a tag, joined with a payload. -/
  | intersection (left right : Schema)
deriving Repr

namespace Schema

/-- A schema that is looked up when it is used. -/
def lazyText (reference : String) : String := "z.lazy(() => " ++ reference ++ ")"

def recordText (key value : String) : String := "z.record(" ++ key ++ ", " ++ value ++ ")"

mutual

def text : Schema → String
  | scalar kind => kind.text
  | literal text => "z.literal(" ++ text ++ ")"
  | custom type => "z.custom<" ++ type ++ ">()"
  | parameter name => name
  | lazy _ name [] => lazyText name
  | lazy _ name (a :: as) => lazyText (name ++ "(" ++ a.text ++ texts as ++ ")")
  | array element => "z.array(" ++ element.text ++ ")"
  | tuple [] => "z.tuple([])"
  | tuple (e :: es) => "z.tuple([" ++ e.text ++ texts es ++ "])"
  | record key value => recordText key.text value.text
  | nullable inner => inner.text ++ ".nullable()"
  | emptyObject => "z.object(\x7b\x7d).strict()"
  | object [] => "z.object(\x7b  \x7d)"
  | object (m :: ms) => "z.object(\x7b " ++ memberText m ++ memberTexts ms ++ " \x7d)"
  | union [] => "z.union([])"
  | union (e :: es) => "z.union([" ++ e.text ++ texts es ++ "])"
  | intersection left right => left.text ++ ".and(" ++ right.text ++ ")"

/-- The texts of further schemas, each with a comma in front. -/
def texts : List Schema → String
  | [] => ""
  | e :: es => ", " ++ e.text ++ texts es

def memberText : Member Schema → String
  | ⟨key, schema, optional⟩ =>
    key ++ ": " ++ schema.text ++ (if optional then ".optional()" else "")

/-- The texts of further members. -/
def memberTexts : List (Member Schema) → String
  | [] => ""
  | m :: ms => ", " ++ memberText m ++ memberTexts ms

end

/-- A schema or null; a schema that already ends so stays as it is. -/
def nullableOf (e : Schema) : Schema := if e.text.endsWith ".nullable()" then e else nullable e

/-- The union of schemas; those that are written alike count once, and one alone stands for
itself. -/
def unionOf (es : List Schema) : Schema :=
  match Text.distinctBy text es with
  | [e] => e
  | es => union es

end Schema

end ShapeExport.Zod
