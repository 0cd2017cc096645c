import ShapeExport.Config.Basic
import ShapeExport.Json.Basic
import ShapeExport.TypeId

/-!
# JSON schemas

* `Keyword` : a keyword with its argument. A reference carries the key of the record it stands for;
* `Schema` : the keywords of a schema, in order;
* `Schema.json` : a schema as a JSON value;
* `Schema.annotate` : adds a description and a deprecation marker;
* `Schema.anyOf` : the union of schemas.
-/

namespace ShapeExport.JsonSchema

inductive TypeName
  | null
  | boolean
  | integer
  | number
  | string
  | array
  | object
deriving DecidableEq, Repr

namespace TypeName

def text : TypeName → String
  | null => "null"
  | boolean => "boolean"
  | integer => "integer"
  | number => "number"
  | string => "string"
  | array => "array"
  | object => "object"

end TypeName

/-- A keyword of a schema with parts from `σ`. -/
inductive Keyword (σ : Type)
  | type (name : TypeName)
  | const (value : Json)
  /-- One of some texts. -/
  | enum (values : List String)
  | reference (target : TypeKey) (uri : String)
  | minimum (n : Int)
  | maximum (n : Int)
  | format (name : String)
  | minLength (n : Nat)
  | maxLength (n : Nat)
  | pattern (text : String)
  /-- Every item of an array. -/
  | items (item : σ)
  /-- The first items of an array, one by one. -/
  | leadingItems (version : SchemaVersion) (items : List σ)
  /-- No items behind the leading ones. -/
  | noMoreItems (version : SchemaVersion)
  | minItems (n : Nat)
  | maxItems (n : Nat)
  | uniqueItems
  | properties (members : List (String × σ))
  /-- Keys, as the values that they were made of. -/
  | required (keys : List Json)
  /-- No properties apart from those that are listed. -/
  | closed
  /-- Every property that is not listed. -/
  | values (value : σ)
  | propertyNames (names : σ)
  | anyOf (schemas : List σ)
  | allOf (schemas : List σ)
  | not (schema : σ)
  | description (text : String)
  | deprecated
deriving Repr

inductive Schema
  | ofKeywords (keywords : List (Keyword Schema))
deriving Repr

namespace Keyword

variable {σ : Type}

def isDescription : Keyword σ → Bool
  | description _ => true
  | _ => false

def isDeprecated : Keyword σ → Bool
  | deprecated => true
  | _ => false

/-- The key of the leading items. -/
def leadingKey : SchemaVersion → String
  | .draft202012 => "prefixItems"
  | _ => "items"

/-- The key of the items behind them. -/
def moreItemsKey : SchemaVersion → String
  | .draft202012 => "items"
  | _ => "additionalItems"

end Keyword

namespace Schema

def keywords : Schema → List (Keyword Schema)
  | ofKeywords ks => ks

def texts (ss : List String) : Json := .array (ss.map .string)

mutual

/-- A schema as an object with a member for each keyword. -/
def json : Schema → Json
  | ofKeywords ks => .object (members ks)

def members : List (Keyword Schema) → List (String × Json)
  | [] => []
  | k :: ks => member k :: members ks

def member : Keyword Schema → String × Json
  | .type name => ("type", .string name.text)
  | .const value => ("const", value)
  | .enum values => ("enum", texts values)
  | .reference _ uri => ("$ref", .string uri)
  | .minimum n => ("minimum", .integer n)
  | .maximum n => ("maximum", .integer n)
  | .format name => ("format", .string name)
  | .minLength n => ("minLength", .integer n)
  | .maxLength n => ("maxLength", .integer n)
  | .pattern text => ("pattern", .string text)
  | .items item => ("items", item.json)
  | .leadingItems version items => (Keyword.leadingKey version, .array (jsons items))
  | .noMoreItems version => (Keyword.moreItemsKey version, .bool false)
  | .minItems n => ("minItems", .integer n)
  | .maxItems n => ("maxItems", .integer n)
  | .uniqueItems => ("uniqueItems", .bool true)
  | .properties ms => ("properties", .object (propertyJsons ms))
  | .required keys => ("required", .array keys)
  | .closed => ("additionalProperties", .bool false)
  | .values value => ("additionalProperties", value.json)
  | .propertyNames names => ("propertyNames", names.json)
  | .anyOf schemas => ("anyOf", .array (jsons schemas))
  | .allOf schemas => ("allOf", .array (jsons schemas))
  | .not schema => ("not", schema.json)
  | .description text => ("description", .string text)
  | .deprecated => ("deprecated", .bool true)

def jsons : List Schema → List Json
  | [] => []
  | s :: ss => s.json :: jsons ss

def propertyJsons : List (String × Schema) → List (String × Json)
  | [] => []
  | p :: ps => propertyJson p :: propertyJsons ps

def propertyJson : String × Schema → String × Json
  | (key, schema) => (key, schema.json)

end

/-! ## Building schemas -/

def ofType (name : TypeName) (more : List (Keyword Schema)) : Schema :=
  .ofKeywords (.type name :: more)

def null : Schema := ofType .null []

def const (s : String) : Schema := .ofKeywords [.const (.string s)]

/-- An array with exactly the given items. -/
def fixedItems (version : SchemaVersion) (items : List Schema) : Schema :=
  ofType .array [.leadingItems version items, .noMoreItems version, .minItems items.length,
    .maxItems items.length]

/-- An object that requires some of its properties. -/
def object (properties : OrderedMap Schema) (required : List Json) : Schema :=
  ofType .object [.properties properties, .required required]

/-- An object with the given properties and no others. -/
def closedObject (properties : OrderedMap Schema) (required : List Json) : Schema :=
  ofType .object [.properties properties, .required required, .closed]

/-- Adds a keyword. One of the same kind is replaced. -/
def set (isSame : Keyword Schema → Bool) (k : Keyword Schema) (s : Schema) : Schema :=
  if s.keywords.any isSame then
    .ofKeywords (s.keywords.map fun l => if isSame l then k else l)
  else .ofKeywords (s.keywords ++ [k])

/-- Documents a schema. Without lines and without a deprecation it stays as it is. -/
def annotate (lines : List String) (isDeprecated : Bool) (s : Schema) : Schema :=
  let s :=
    if lines.isEmpty then s
    else s.set Keyword.isDescription (.description ("\n".intercalate lines))
  if isDeprecated then s.set Keyword.isDeprecated .deprecated else s

/-- Leaves out schemas whose values equal one that came before. -/
def distinctFrom (done : List Schema) : List Schema → List Schema
  | [] => done
  | s :: ss =>
    if done.any fun d => d.json.same s.json then distinctFrom done ss
    else distinctFrom (done ++ [s]) ss

/-- The union of schemas; equal ones count once, and one alone stands for itself. -/
def anyOf (ss : List Schema) : Schema :=
  match distinctFrom [] ss with
  | [s] => s
  | ss => .ofKeywords [.anyOf ss]

end Schema

end ShapeExport.JsonSchema
