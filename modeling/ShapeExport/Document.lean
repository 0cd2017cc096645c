import ShapeExport.JsonSchema.Render
import ShapeExport.Json.Printer
import ShapeExport.Validation.Obligation
import ShapeExport.Zod.Render

/-!
# Documents

A document declares records, below a header.

* `Config.headerLines` : the lines of the header: the user's, the banner, and how the file came about;
* `Export.scriptDocument` : declarations in TypeScript or with Zod, and what they import;
* `JsonSchema.Schema.line` : a schema on one line;
* `Export.schemaDocument`, `Export.schemaFile` : JSON Schema, as a root with definitions, or as one
  definition that refers to other files;
* `Export.prepare` : what is checked before anything is rendered;
* `Export.text` : all records in one document;
* `Export.files` : a document for each record, by its path.
-/

namespace ShapeExport

/-- The lines of a text; the empty text has none. -/
def textLines (s : String) : List String := if s.isEmpty then [] else Text.split '\n' s

/-- The line that tells how a file came about. -/
def Config.generationLines (c : Config) : List String :=
  if c.generationComment.isEmpty then [] else ["// " ++ c.generationComment]

def Config.headerLines (c : Config) : List String :=
  textLines c.header ++ textLines c.banner ++ c.generationLines

/-! ## Scripts -/

/-- Lines with their line breaks. -/
def unlines (lines : List String) : String := String.join (lines.map (· ++ "\n"))

/-- Lines and an empty line, if there are any. -/
def paragraph (lines : List String) : String :=
  if lines.isEmpty then "" else unlines lines ++ "\n"

/-- Declarations, with an empty line between them. -/
def declarationsText (declarations : List String) : String :=
  "\n".intercalate (declarations.map (· ++ "\n"))

def zodImport : String := "import \x7b z \x7d from \"zod\";"

/-- What a script imports: Zod's is there also when it declares nothing. -/
def importsText (l : Language) (imports declarations : List String) : String :=
  if l = .zod then
    unlines (zodImport :: imports) ++ (if declarations.isEmpty then "" else "\n")
  else paragraph imports

/-- A value, unless it is too deep to be written or an integer in it is too long. -/
def writable (j : Json) : Except Error Json :=
  if Json.maxDepth < j.depth then .error .tooDeep
  else if j.hasShortIntegers then .ok j
  else .error .unwritableInteger

def JsonSchema.Schema.line (s : JsonSchema.Schema) : Except Error String :=
  return (← writable s.json).compact .unicode

namespace Export

/-- The declaration of a record in a script. -/
def declaration (x : Export) (r : Record) : Except Error String :=
  if x.config.language = .zod then x.schemaDeclaration r else x.typeDeclaration r

def scriptDocument (x : Export) (rs : List Record) (imports : List String) : Except Error String := do
  let declarations ← rs.mapM x.declaration
  return paragraph x.config.headerLines ++ importsText x.config.language imports declarations
    ++ declarationsText declarations

/-! ## JSON Schema -/

/-- A line of the header without its comment mark. -/
def uncommented (line : String) : String :=
  Text.trim (if line.startsWith "//" then String.ofList (line.toList.drop 2) else line)

/-- The header as the text of a comment. -/
def schemaComment (x : Export) : String :=
  "\n".intercalate ((x.config.headerLines.map uncommented).filter (!·.isEmpty))

/-- A member that is left out when its text is empty. -/
def textMember (key text : String) : Json.Members :=
  if text.isEmpty then [] else [(key, .string text)]

/-- The member that names the dialect. -/
def dialectMember (x : Export) : String × Json := ("$schema", .string x.config.schemaVersion.uri)

/-- The definitions of records. Those with parameters have none. -/
def definitions (x : Export) (rs : List Record) : Except Error (OrderedMap JsonSchema.Schema) := do
  let c : JsonSchema.Context := { toExport := x }
  let entries ← (rs.filter (!·.isGeneric)).mapM fun r => do return (x.displayName r, ← c.definition r)
  return OrderedMap.insertAll [] entries

/-- The root of a document with the definitions of records. -/
def schemaRoot (x : Export) (rs : List Record) : Except Error Json := do
  let entries ← x.definitions rs
  return .object <| x.dialectMember ::
    (textMember "title" x.config.title ++ textMember "description" x.config.description
      ++ textMember "$comment" x.schemaComment
      ++ [(x.config.schemaVersion.definitionsKey,
        .object (entries.map fun (name, schema) => (name, schema.json)))])

def schemaDocument (x : Export) (rs : List Record) : Except Error String := do
  return (← writable (← x.schemaRoot rs)).pretty .unicode ++ "\n"

/-- The document of one record, which names other files where it refers to them. -/
def schemaFile (x : Export) (r : Record) : Except Error String := do
  let c : JsonSchema.Context := { toExport := x, linking := .file r }
  let schema ← c.definition r
  let root := Json.object (x.dialectMember :: JsonSchema.Schema.members schema.keywords)
  return (← writable root).pretty .unicode ++ "\n"

/-! ## Exports -/

def prepare (x : Export) : Except Error Unit := do
  x.types.checkComplete
  if x.config.validate then x.scope.validate
  x.checkNames

/-- A document with the given records, which are part of the collection. -/
def document (x : Export) (rs : List Record) : Except Error String :=
  if x.config.language = .jsonschema then x.schemaDocument rs else x.scriptDocument rs []

def text (x : Export) : Except Error String := do
  if x.config.layout = .perTypeFile then throw .unsupportedLayout
  x.prepare
  x.document x.types.records

/-- The document of one record. -/
def file (x : Export) (r : Record) : Except Error (FilePath × String) := do
  let text ← if x.config.language = .jsonschema then x.schemaFile r
    else do x.scriptDocument [r] (← x.imports r)
  return (x.filePath r, text)

/-- The records that have a file of their own. -/
def filed (x : Export) : List Record :=
  if x.config.language = .jsonschema then x.types.records.filter (!·.isGeneric)
  else x.types.records

/-- The documents by their paths. Of several with one path the last one is left, where the first one was. -/
def files (x : Export) : Except Error (OrderedMap String FilePath) := do
  x.prepare
  return OrderedMap.insertAll [] (← x.filed.mapM x.file)

end Export

end ShapeExport
