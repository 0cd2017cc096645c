import ShapeExport.Config.Basic
import ShapeExport.Error
import ShapeExport.Text.Letter
import ShapeExport.Text.Literal
import ShapeExport.Text.Pieces

/-!
# Names

* `Language.reservedTypeNames`, `Language.reservedKeys` : the words that a language keeps for itself;
* `isTypeName` : whether a text may name a type;
* `Config.displayName` : the name under which a record is declared;
* `Config.checkTypeName` : refuses reserved words first, and then texts that are no names;
* `Language.propertyKey` : a property key as it is written, quoted unless it is an identifier.
-/

namespace ShapeExport

/-- The keywords of TypeScript, reserved and contextual. -/
def scriptKeywords : List String :=
  ["break", "case", "catch", "class", "const", "continue", "debugger", "default", "delete", "do",
    "else", "enum", "export", "extends", "false", "finally", "for", "function", "if", "import", "in",
    "instanceof", "new", "null", "return", "super", "switch", "this", "throw", "true", "try",
    "typeof", "var", "void", "while", "with", "as", "implements", "interface", "let", "package",
    "private", "protected", "public", "static", "yield", "any", "boolean", "constructor", "declare",
    "get", "module", "require", "number", "set", "string", "symbol", "type", "from", "of"]

/-- The built-in types that a declaration would hide. -/
def builtinTypes : List String :=
  ["never", "unknown", "object", "bigint", "undefined", "Record", "Partial", "Array"]

namespace Language

def reservedTypeNames : Language → List String
  | typescript => scriptKeywords ++ builtinTypes
  | zod => scriptKeywords ++ ["z"]
  | jsonschema => []

def reservedKeys : Language → List String
  | typescript => scriptKeywords
  | zod => scriptKeywords ++ ["z"]
  | jsonschema => []

end Language

/-! ## Type names -/

/-- A letter or an underscore, and then letters, numerals and underscores. -/
def isTypeNameChars : List Char → Bool
  | [] => false
  | c :: cs =>
    (Text.isLetter c || c == '_') && (c :: cs).all fun c => Text.isWordChar c || c == '_'

def isTypeName (s : String) : Bool := isTypeNameChars s.toList

namespace Config

/-- A module path goes in front when that is the policy. -/
def displayName (c : Config) (r : Record) : String :=
  if c.collisions = .modulePrefix ∧ r.modulePath ≠ "" then
    Text.replace r.modulePath "." "_" ++ "_" ++ r.name
  else r.name

def checkTypeName (c : Config) (path : Path) (name : String) : Except Error Unit :=
  if c.language.reservedTypeNames.contains name then .error (.forbiddenName path name c.language)
  else if isTypeName name then .ok ()
  else .error (.invalidName path name)

end Config

/-! ## Property keys -/

def isIdentifierStart (c : Char) : Bool := c.isAlpha || c == '_' || c == '$'

def isIdentifierChar (c : Char) : Bool := c.isAlphanum || c == '_' || c == '$'

def isIdentifierChars : List Char → Bool
  | [] => false
  | c :: cs => isIdentifierStart c && cs.all isIdentifierChar

/-- An identifier, or one with a line break behind it. -/
def isPlainKey (s : String) : Bool :=
  let cs := s.toList
  isIdentifierChars cs || (cs.getLast? == some '\n' && isIdentifierChars cs.dropLast)

namespace Language

def propertyKey (l : Language) (key : String) : String :=
  if isPlainKey key && !l.reservedKeys.contains key then key else Text.literal .ascii key

end Language

/-! ## Optional fields -/

/-- The predicates under which a field that is null is left out. -/
def absentPredicates : List String := ["Option::is_none", "is_none"]

/-- Whether a field may be absent: if it says so, and if it is nullable and left out when null. -/
def Config.isOptional {ν : Type} (c : Config) (f : Field ν Shape) : Bool :=
  f.optional ||
    match f.ty with
    | .nullable _ => c.optionalNullable || f.skipIf.any absentPredicates.contains
    | _ => false

/-- The policy for wide integers, at a place where one occurs. -/
def Config.bigIntAt (c : Config) (path : Path) : Except Error BigIntPolicy :=
  if c.bigint = .fail then .error (.bigIntForbidden path) else .ok c.bigint

end ShapeExport
