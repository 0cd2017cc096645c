import ShapeExport.Config.Basic
import ShapeExport.Config.Tagging
import ShapeExport.Construction

/-!
# Configurations as JSON

* `Language.ofJson` and its like : a member of an enumeration is written as its name;
* `Config.ofJson`, `Config.toJson` : a configuration is an object of options. Options that are
  missing have their defaults, and keys that are no options are passed over, apart from three that
  stand for parts of the configuration itself;
* `Config.rewritten` : what is written for a configuration that was read.
-/

namespace ShapeExport

namespace Language

def ofJson : Json → Except Error Language := memberOf "Language" all name

end Language

namespace BigIntPolicy

def ofJson : Json → Except Error BigIntPolicy := memberOf "BigIntBehavior" all name

end BigIntPolicy

namespace Layout

def ofJson : Json → Except Error Layout := memberOf "Layout" all name

end Layout

namespace CommentStyle

def ofJson : Json → Except Error CommentStyle := memberOf "CommentStyle" all name

end CommentStyle

namespace CollisionPolicy

def ofJson : Json → Except Error CollisionPolicy := memberOf "NameCollisionPolicy" all name

end CollisionPolicy

namespace FormatterTool

def ofJson : Json → Except Error FormatterTool := memberOf "FormatterTool" all name

end FormatterTool

namespace SchemaVersion

def ofJson (j : Json) : Except Error SchemaVersion :=
  (memberOf "SchemaVersion" all name j).mapError fun _ => .invalidSchemaVersion j

end SchemaVersion

/-- A truth value, or the default. -/
def flag (j : Json) (key : String) (default : Bool) : Bool := ((j.get? key).bind Json.bool?).getD default

namespace FormatterConfig

def ofJson (j : Json) : Except Error FormatterConfig := do
  let tool ← match j.get? "tool" with
    | some v => FormatterTool.ofJson v
    | none => .ok .prettier
  return { enabled := flag j "enabled" false, tool, strict := flag j "strict" false }

def toJson (c : FormatterConfig) : Json :=
  .object [("enabled", .bool c.enabled), ("tool", .string c.tool.name), ("strict", .bool c.strict)]

end FormatterConfig

namespace OutputConfig

def ofJson (j : Json) : OutputConfig :=
  { atomic := flag j "atomic_write" true, validate := flag j "validate_before_write" true }

def toJson (c : OutputConfig) : Json :=
  .object [("atomic_write", .bool c.atomic), ("validate_before_write", .bool c.validate)]

end OutputConfig

namespace Overrides

def ofMembers : Json.Members → Except Error Overrides
  | [] => .ok []
  | (enum, v) :: rest => do
    let t ← Tagging.ofJson enum v
    let others ← ofMembers rest
    return (enum, t) :: others

def ofJson (j : Json) : Except Error Overrides := ofMembers (j.object?.getD [])

def toJson (o : Overrides) : Json := .object (o.map fun (enum, t) => (enum, t.toJson))

end Overrides

namespace Config

/-- Sets one option. -/
def setOption (c : Config) (key : String) (v : Json) : Except Error Config :=
  let text (set : String → Config) : Except Error Config := .ok ((v.string?.map set).getD c)
  let truth (set : Bool → Config) : Except Error Config := .ok ((v.bool?.map set).getD c)
  match key with
  | "language" => return { c with language := ← Language.ofJson v }
  | "bigint" => return { c with bigint := ← BigIntPolicy.ofJson v }
  | "layout" => return { c with layout := ← Layout.ofJson v }
  | "comment_style" => return { c with commentStyle := ← CommentStyle.ofJson v }
  | "schema_version" => return { c with schemaVersion := ← SchemaVersion.ofJson v }
  | "name_collisions" => return { c with collisions := ← CollisionPolicy.ofJson v }
  | "enum_reprs" => return { c with overrides := ← Overrides.ofJson v }
  | "formatter" => return { c with formatter := ← FormatterConfig.ofJson v }
  | "output" => .ok { c with output := OutputConfig.ofJson v }
  | "header" => text fun s => { c with header := s }
  | "framework_header" => text fun s => { c with banner := s }
  | "generation_comment" => text fun s => { c with generationComment := s }
  | "title" => text fun s => { c with title := s }
  | "description" => text fun s => { c with description := s }
  | "serde" => truth fun b => { c with validate := b }
  | "optional_nullable_fields" => truth fun b => { c with optionalNullable := b }
  | "__class__" => .error (.badOption key)
  | "__weakref__" => .error (.lockedOption key)
  | "__dict__" => if v.object?.isSome then .ok c else .error (.badOption key)
  | _ => .ok c

def setOptions (c : Config) : Json.Members → Except Error Config
  | [] => .ok c
  | (key, v) :: rest => do (← c.setOption key v).setOptions rest

/-- An object in the place of all options is refused behind the faults of the others. -/
def ofJson (j : Json) : Except Error Config := do
  let c ← setOptions {} (j.object?.getD [])
  if (j.get? "__dict__").isSome then throw (.lockedOption "__dict__")
  return c

def toJson (c : Config) : Json :=
  .object [
    ("language", .string c.language.name),
    ("header", .string c.header),
    ("framework_header", .string c.banner),
    ("generation_comment", .string c.generationComment),
    ("bigint", .string c.bigint.name),
    ("layout", .string c.layout.name),
    ("comment_style", .string c.commentStyle.name),
    ("schema_version", .string c.schemaVersion.name),
    ("name_collisions", .string c.collisions.name),
    ("serde", .bool c.validate),
    ("optional_nullable_fields", .bool c.optionalNullable),
    ("enum_reprs", c.overrides.toJson),
    ("formatter", c.formatter.toJson),
    ("output", c.output.toJson),
    ("title", .string c.title),
    ("description", .string c.description)]

/-- The key of a value that hides the way to write a configuration. -/
def writerKey : String := "to_dict"

def rewritten (j : Json) : Except Error Json := do
  let c ← ofJson j
  if (j.get? writerKey).isSome then throw (.badOption writerKey)
  return c.toJson

end Config

end ShapeExport
