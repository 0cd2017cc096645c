import ShapeExport.Export
import ShapeExport.FilePath
import ShapeExport.Shape.References

/-!
# Layout

Where records are declared, and how the files of records refer to each other.

* `Export.filePath` : the file of a record. Its module path becomes directories;
* `Export.workingDirectory`, `Export.specifier` : how the file of one record names the file of another, which depends on
  the working directory only if one of the files lies outside;
* `Export.importTargets`, `Export.imports` : what the file of a record imports;
* `Export.checkNames` : refuses names that cannot be declared, and two records with one place.
-/

namespace ShapeExport

namespace Language

/-- How the names of generated files end. -/
def fileSuffix : Language → String
  | typescript | zod => ".ts"
  | jsonschema => ".schema.json"

end Language

namespace Export

/-- The file of a record, in the directory of the export. -/
def filePath (x : Export) (r : Record) : FilePath :=
  .ofPieces <|
    (Text.split '.' r.modulePath).filter (!·.isEmpty) ++ [x.displayName r ++ x.config.language.fileSuffix]

/-- A file name without as many characters as the suffix has. -/
def dropSuffix (l : Language) (name : String) : String :=
  String.ofList (name.toList.take (name.length - l.fileSuffix.length))

/-- The directory that a program runs in, seen from the root. The way between two files below it, or between two rooted
files, does not depend on it. -/
def workingDirectory : List String := ["home", "work"]

/-- How the file of `source` names the file of `target`: by the way to it, without the suffix. -/
def specifier (x : Export) (source target : Record) : Except Error String := do
  let file := x.filePath target
  let name := dropSuffix x.config.language file.name
  match file.withName? name with
  | none => throw (.invalidFileName name)
  | some bare =>
    let way := (bare.relativeTo (x.filePath source).parent workingDirectory).text
    return if way.startsWith "." then way else "./" ++ way

/-- The records that a record refers to, apart from itself, in the order of records. -/
def importTargets (x : Export) (r : Record) : Except Error (List Record) := do
  let ids := (r.shape.references.map (·.id)).filter (·.key ≠ r.id.key)
  let targets ← (Text.distinctBy TypeId.key ids).mapM (x.target [r.name])
  return targets.mergeSort Record.le

/-- The line that brings in a record. -/
def importLine (x : Export) (source target : Record) : Except Error String := do
  let keyword := if x.config.language = .typescript then "import type" else "import"
  return keyword ++ " \x7b " ++ x.displayName target ++ " \x7d from \"" ++ (← x.specifier source target)
    ++ "\";"

/-- The import lines of a record's file. A JSON Schema names other files where it refers to them. -/
def imports (x : Export) (r : Record) : Except Error (List String) :=
  if x.config.language = .jsonschema then .ok []
  else do (← x.importTargets r).mapM (x.importLine r)

/-! ## Names -/

/-- What no two records may share: the file if each record has its own, and else the name. -/
def place (x : Export) (r : Record) : String :=
  if x.config.layout = .perTypeFile then (x.filePath r).text else x.displayName r

/-- Checks names one after another; `taken` holds the records at the places so far. -/
def checkNamesFrom (x : Export) (taken : List (String × Record)) : List Record → Except Error Unit
  | [] => .ok ()
  | r :: rs => do
    x.config.checkTypeName [r.name] (x.displayName r)
    match taken.lookup (x.place r) with
    | none => x.checkNamesFrom ((x.place r, r) :: taken) rs
    | some first =>
      if first.id.key = r.id.key then x.checkNamesFrom taken rs
      else .error (.duplicateName (x.displayName r) first.location r.location)

def checkNames (x : Export) : Except Error Unit := x.checkNamesFrom [] x.types.records

end Export

end ShapeExport
