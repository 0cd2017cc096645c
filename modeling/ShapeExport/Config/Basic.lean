import ShapeExport.Language
import ShapeExport.Tagging

/-!
# Configurations

The options of an export, with their defaults.
-/

namespace ShapeExport

/-- How integers of 64 bits and more are exported. -/
inductive BigIntPolicy
  | string
  | number
  | bigint
  | fail
deriving DecidableEq, Repr

namespace BigIntPolicy

def all : List BigIntPolicy := [string, number, bigint, fail]

def name : BigIntPolicy → String
  | string => "string"
  | number => "number"
  | bigint => "bigint"
  | fail => "fail"

end BigIntPolicy

/-- One document with every type, or one for each type. -/
inductive Layout
  | singleFile
  | perTypeFile
deriving DecidableEq, Repr

namespace Layout

def all : List Layout := [singleFile, perTypeFile]

def name : Layout → String
  | singleFile => "single-file"
  | perTypeFile => "per-type-file"

end Layout

inductive CommentStyle
  | jsdoc
  | line
  | none
deriving DecidableEq, Repr

namespace CommentStyle

def all : List CommentStyle := [jsdoc, line, none]

def name : CommentStyle → String
  | jsdoc => "jsdoc"
  | line => "line"
  | none => "none"

end CommentStyle

/-- A dialect of JSON Schema. -/
inductive SchemaVersion
  | draft07
  | draft201909
  | draft202012
deriving DecidableEq, Repr

namespace SchemaVersion

def all : List SchemaVersion := [draft07, draft201909, draft202012]

def name : SchemaVersion → String
  | draft07 => "draft-07"
  | draft201909 => "draft-2019-09"
  | draft202012 => "draft-2020-12"

/-- The identifier that a schema of the dialect starts with. -/
def uri : SchemaVersion → String
  | draft07 => "http://json-schema.org/draft-07/schema#"
  | draft201909 => "https://json-schema.org/draft/2019-09/schema"
  | draft202012 => "https://json-schema.org/draft/2020-12/schema"

/-- The key under which a document holds its definitions. -/
def definitionsKey : SchemaVersion → String
  | draft07 => "definitions"
  | _ => "$defs"

end SchemaVersion

/-- What to do with types of the same name: refuse them, or put module paths in front. -/
inductive CollisionPolicy
  | error
  | modulePrefix
deriving DecidableEq, Repr

namespace CollisionPolicy

def all : List CollisionPolicy := [error, modulePrefix]

def name : CollisionPolicy → String
  | error => "error"
  | modulePrefix => "module-prefix"

end CollisionPolicy

inductive FormatterTool
  | prettier
  | biome
  | eslint
deriving DecidableEq, Repr

namespace FormatterTool

def all : List FormatterTool := [prettier, biome, eslint]

def name : FormatterTool → String
  | prettier => "prettier"
  | biome => "biome"
  | eslint => "eslint"

end FormatterTool

/-- The formatter that is run over written files. A failure counts only if it is strict. -/
structure FormatterConfig where
  enabled : Bool := false
  tool : FormatterTool := .prettier
  strict : Bool := false
deriving DecidableEq, Repr

/-- How files are written: through a temporary file, and after a check of the text. -/
structure OutputConfig where
  atomic : Bool := true
  validate : Bool := true
deriving DecidableEq, Repr

def defaultBanner : String := "// This file has been generated by typesync. DO NOT EDIT."

structure Config where
  language : Language := .typescript
  header : String := ""
  banner : String := defaultBanner
  /-- Tells how the file came about; the command line sets it. -/
  generationComment : String := ""
  bigint : BigIntPolicy := .fail
  layout : Layout := .singleFile
  commentStyle : CommentStyle := .jsdoc
  schemaVersion : SchemaVersion := .draft07
  collisions : CollisionPolicy := .error
  /-- Whether collections are validated before they are exported. -/
  validate : Bool := true
  /-- Whether a nullable field may also be absent. -/
  optionalNullable : Bool := false
  overrides : Overrides := []
  formatter : FormatterConfig := {}
  output : OutputConfig := {}
  title : String := ""
  description : String := ""
deriving Repr

end ShapeExport
