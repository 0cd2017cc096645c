import ShapeExport.FilePath
import ShapeExport.Json.Basic
import ShapeExport.Language
import ShapeExport.Record

/-!
# Errors

* `Error` : one constructor a cause;
* `Error.message` : the wording of all of them;
* `Error.path?` : the place in a record, for the causes that have one.
-/

namespace ShapeExport

/-- The way to a part of a record: the record's name, then names of fields, variants and types, and
positions. -/
abbrev Path := List String

/-- Why a variant cannot hold an internal tag. -/
inductive TagFault
  | severalFields
  | notAnObject
deriving DecidableEq, Repr

inductive SkipFault
  | onlyPositionalField
  | everyVariant
deriving DecidableEq, Repr

/-- Why a representation is refused. -/
inductive TaggingFault
  | notAllUnits
  | sameLabels (label : Json)
  | unknownCasing (casing : Json)
  | notAMapping (value : Json)
  | unrecognized (value : Json)
deriving Repr

/-- Why fields do not make a body. -/
inductive BodyFault
  | unitWithFields
  | namelessField
  | misplacedTag
deriving DecidableEq, Repr

/-- Why a shape has no schema. -/
inductive ShapeFault
  | unboundParameter (name : String)
  | endlessExpansion (record : String)
  | argumentCount (record : String) (expected : Nat)
  | unusableMapKey
deriving DecidableEq, Repr

/-- Why a text is refused as generated code. -/
inductive OutputFault
  | unterminatedComment
  | unterminatedString (offset : Nat)
  | unbalanced (bracket : Char) (offset : Nat)
  | unclosed (count : Nat)
  | notJson
deriving DecidableEq, Repr

/-- Why the file system refuses an operation. -/
inductive FileFault
  | notADirectory
  | isADirectory
  | alreadyExists
  | missing
  | nameTooLong
  /-- No path holds the character zero. -/
  | nullCharacter
  /-- More directories are missing on the way than are created at once. -/
  | tooManyLevels
  /-- A directory that is in use is not removed. -/
  | busy
deriving DecidableEq, Repr

inductive Error
  | invalidMapKey (path : Path) (argument : Option (String × String))
  | invalidTagged (path : Path) (fault : TagFault)
  | invalidSkip (path : Path) (fault : SkipFault)
  | invalidTagging (path : Path) (fault : TaggingFault)
  | forbiddenName (path : Path) (name : String) (language : Language)
  | invalidName (path : Path) (name : String)
  | duplicateName (name : String) (first second : Location)
  | bigIntForbidden (path : Path)
  | unsupportedShape (path : Path) (fault : ShapeFault)
  | invalidReference (path : Path) (id : TypeId)
  | invalidForeign (path : Path) (kind : String) (language : Language)
  | invalidSchemaVersion (selector : Json)
  | unsupportedLayout
  | invalidOutput (fault : OutputFault)
  /-- An integer in a text has more digits than are read. -/
  | longInteger (digits : Nat)
  /-- An integer has more digits than are written. -/
  | unwritableInteger
  | unknownOutputLanguage (name : String)
  | writeFailed (path : FilePath) (fault : FileFault)
  | cleanUpFailed (path : FilePath) (fault : FileFault)
  | nullCharacter
  | formatterMissing (executable : String)
  /-- A producer returned a record for another id. -/
  | wrongRecord (expected actual : TypeId)
  | unfinished (ids : List TypeId)
  | producerFailed (message : String)
  | unknownProducer (name : String)
  | notAMember (value : Json) (enumeration : String)
  | invalidLiteral (kind : LiteralKind) (value : Json)
  | invalidDouble (text : String)
  | invalidHash (text : String)
  | invalidBody (fault : BodyFault)
  | argumentCount (record : String) (expected actual : Nat)
  | genericDeclaration (record : String)
  | unknownCasing (casing : Json)
  /-- A label of a representation cannot be a key. -/
  | unusableLabel (label : Json)
  /-- A part of the configuration itself is given a value that it cannot have. -/
  | badOption (name : String)
  /-- A part of the configuration itself cannot be given a value. -/
  | lockedOption (name : String)
  | invalidFileName (name : String)
  /-- Something lies deeper than is followed: nested values, missing directories, or records that
  expand into each other on the way to a map key. -/
  | tooDeep
deriving Repr

/-- The names of the casing rules, as they are listed in messages. -/
def casingNames : List String :=
  ["lowercase", "UPPERCASE", "PascalCase", "camelCase", "snake_case", "SCREAMING_SNAKE_CASE",
    "kebab-case", "SCREAMING-KEBAB-CASE"]

def Path.text (p : Path) : String := ".".intercalate p

def unknownCasingMessage (casing : Json) : String :=
  "unknown rename rule \x60rename_all = " ++ casing.quoted ++ "\x60, expected one of "
    ++ ", ".intercalate (casingNames.map Text.quoted)

namespace TagFault

def message : TagFault → String
  | severalFields => "a tuple variant with more than one field has no object to merge the tag into"
  | notAnObject => "the variant payload does not serialize as an object"

end TagFault

namespace SkipFault

def message : SkipFault → String
  | onlyPositionalField => "skipping the only positional field removes required content"
  | everyVariant => "every variant is skipped"

end SkipFault

namespace TaggingFault

def message : TaggingFault → String
  | notAllUnits => "a string representation requires every variant to be a unit variant"
  | sameLabels label => "the tag and content fields are both named " ++ label.quoted
  | unknownCasing casing => unknownCasingMessage casing
  | notAMapping value => "expected a mapping, got " ++ value.quoted
  | unrecognized value => "unrecognized enum representation " ++ value.quoted

end TaggingFault

namespace BodyFault

def message : BodyFault → String
  | unitWithFields => "unit fields cannot hold fields"
  | namelessField => "named fields require a name on every field"
  | misplacedTag => "only named fields can carry a tag"

end BodyFault

namespace ShapeFault

def message : ShapeFault → String
  | unboundParameter name => "generic parameter " ++ Text.quoted name ++ " is not bound to a type"
  | endlessExpansion record =>
    "generic type " ++ Text.quoted record ++ " refers to itself and cannot be monomorphised"
  | argumentCount record expected =>
    Text.quoted record ++ " expects " ++ toString expected ++ " generic argument(s)"
  | unusableMapKey => "map keys must reduce to a string or a number"

end ShapeFault

namespace OutputFault

def message : OutputFault → String
  | unterminatedComment => "Generated code has an unterminated comment"
  | unterminatedString offset =>
    "Generated code has an unterminated string starting at offset " ++ toString offset
  | unbalanced bracket offset =>
    "Generated code has an unbalanced " ++ Text.quoted (String.singleton bracket)
      ++ " at offset " ++ toString offset
  | unclosed count => "Generated code has " ++ toString count ++ " unclosed bracket(s)"
  | notJson => "Generated JSON is not valid"

end OutputFault

namespace FileFault

def message : FileFault → String
  | notADirectory => "Not a directory"
  | isADirectory => "Is a directory"
  | alreadyExists => "File exists"
  | missing => "No such file or directory"
  | nameTooLong => "File name too long"
  | nullCharacter => "embedded null byte"
  | tooManyLevels => "maximum recursion depth exceeded"
  | busy => "Device or resource busy"

end FileFault

/-- The wording of an error about a literal. -/
def invalidLiteralMessage (kind : LiteralKind) (value : Json) : String :=
  match kind with
  | .char => value.quoted ++ " is not a single character"
  | .none => "a None literal cannot carry a value"
  | .string => value.quoted ++ " is not a valid string literal"
  | kind => value.quoted ++ " is not a valid " ++ kind.name ++ " literal"

namespace Error

/-- A place in an error about decoding; the empty path is the root. -/
def place (p : Path) : String :=
  Text.quoted (if (Path.text p).isEmpty then "<root>" else Path.text p)

/-- Names the parameter of a record that an argument binds. -/
def keyArgumentDetail (argument : String × String) : String :=
  ": generic argument " ++ Text.quoted argument.1 ++ " of " ++ Text.quoted argument.2
    ++ " is used as a map key"

def message : Error → String
  | invalidMapKey p argument =>
    "a map key must be a 'string' or 'number' type at " ++ place p
      ++ (argument.map keyArgumentDetail).getD ""
  | invalidTagged p fault =>
    "an internally tagged enum cannot contain this variant at " ++ place p ++ ": " ++ fault.message
  | invalidSkip p fault =>
    "the usage of skip means the type can't be serialized at " ++ place p ++ ": " ++ fault.message
  | invalidTagging p fault =>
    "Invalid enum representation for " ++ Text.quoted (Path.text p) ++ ": " ++ fault.message
  | forbiddenName p name language =>
    "Attempted to export " ++ Text.quoted (Path.text p) ++ " but its name " ++ Text.quoted name
      ++ " conflicts with a reserved keyword in " ++ language.name ++ ". Try renaming it."
  | invalidName p name =>
    "Attempted to export " ++ Text.quoted (Path.text p) ++ " but its name " ++ Text.quoted name
      ++ " contains an invalid character."
  | duplicateName name first second =>
    "Detected multiple types with the same name " ++ Text.quoted name ++ ": declared at "
      ++ first.text ++ " and at " ++ second.text
  | bigIntForbidden p =>
    "Attempted to export " ++ Text.quoted (Path.text p)
      ++ " but the configuration forbids exporting big integer types (i64, u64, i128, u128, isize,"
      ++ " usize) because their precision cannot be guaranteed. Set the 'bigint' option to"
      ++ " 'string', 'number' or 'bigint' to allow it."
  | unsupportedShape p fault =>
    "Unsupported shape at " ++ Text.quoted (Path.text p) ++ ": " ++ fault.message
  | invalidReference p id =>
    "Reference to " ++ id.text ++ " at " ++ Text.quoted (Path.text p)
      ++ " is not registered in the collection"
  | invalidForeign p kind language =>
    "Opaque reference of kind " ++ Text.quoted kind ++ " at " ++ Text.quoted (Path.text p)
      ++ " cannot be exported to " ++ language.name
  | invalidSchemaVersion selector => "Invalid schema version: " ++ selector.quoted
  | unsupportedLayout => "The per-type-file layout can only be exported with export_to"
  | invalidOutput fault => fault.message
  | longInteger digits =>
    "Exceeds the limit (4300 digits) for integer string conversion: value has " ++ toString digits
      ++ " digits; use sys.set_int_max_str_digits() to increase the limit"
  | unwritableInteger =>
    "Exceeds the limit (4300 digits) for integer string conversion;"
      ++ " use sys.set_int_max_str_digits() to increase the limit"
  | unknownOutputLanguage name => "Unknown output language: " ++ Text.quoted name
  | writeFailed path fault => "Failed to write " ++ path.text ++ ": " ++ fault.message
  | cleanUpFailed path fault => "Failed to clean up " ++ path.text ++ ": " ++ fault.message
  | nullCharacter => FileFault.message .nullCharacter
  | formatterMissing executable =>
    "Formatter " ++ Text.quoted executable ++ " was not found on PATH"
  | wrongRecord expected actual =>
    "producer registered as " ++ expected.text ++ " returned a record for " ++ actual.text
  | unfinished ids =>
    "type collection holds unfinished entries: " ++ ", ".intercalate (ids.map (·.text))
  | producerFailed message => message
  | unknownProducer name => Text.quoted name
  | notAMember value enumeration => value.quoted ++ " is not a valid " ++ enumeration
  | invalidLiteral kind value => invalidLiteralMessage kind value
  | invalidDouble text => "could not convert string to float: " ++ Text.quoted text
  | invalidHash text => "invalid literal for int() with base 16: " ++ Text.quoted text
  | invalidBody fault => fault.message
  | argumentCount record expected actual =>
    record ++ " expects " ++ toString expected ++ " generic argument(s), got " ++ toString actual
  | genericDeclaration record =>
    "cannot declare " ++ record ++ ": declared types cannot be generic"
  | unknownCasing casing => unknownCasingMessage casing
  | unusableLabel label => "the label " ++ label.quoted ++ " cannot be a key"
  | badOption name => "the option " ++ Text.quoted name ++ " cannot have this value"
  | lockedOption name => "the option " ++ Text.quoted name ++ " cannot be set"
  | invalidFileName name => "Invalid name " ++ Text.quoted name
  | tooDeep => "maximum recursion depth exceeded"

/-- The place of an error in a record. -/
def path? : Error → Option Path
  | invalidMapKey p _ | invalidTagged p _ | invalidSkip p _ | invalidTagging p _
  | forbiddenName p .. | invalidName p _ | bigIntForbidden p | unsupportedShape p _
  | invalidReference p _ | invalidForeign p .. => some p
  | _ => none

end Error

end ShapeExport
