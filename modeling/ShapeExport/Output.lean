import ShapeExport.Document
import ShapeExport.FileTree
import ShapeExport.Script

/-!
# Writing exports

* `FileTree.writeChecked` : writes a text after a check of it;
* `FileTree.writeAll` : writes files one after another, up to the first failure;
* `FileTree.cleanUp` : removes the generated files in a directory that an export did not write, and
  then the directories that are left without files;
* `FormatterTool.command`, `FormatterConfig.run` : the formatter that would be run over the output;
* `Export.write` : an export to a file, or to a directory when each record has a file of its own.
  All is rendered and checked before anything is written.
-/

namespace ShapeExport

/-- The error of a write that failed. A path that is none, and one that leads too deep, are errors of
their own. -/
def Error.ofFailedWrite (path : FilePath) : FileFault → Error
  | .nullCharacter => .nullCharacter
  | .tooManyLevels => .tooDeep
  | fault => .writeFailed path fault

namespace FileTree

/-- Writes a file whose path is part of the error if that fails. -/
def writeFile (t : FileTree) (atomic : Bool) (path : FilePath) (text : String) :
    FileTree × Except Error Unit :=
  match t.write atomic path text with
  | (t, result) => (t, result.mapError (.ofFailedWrite path))

/-- Writes a file for the language with the given name. -/
def writeChecked (t : FileTree) (atomic : Bool) (path : FilePath) (text language : String)
    (validate : Bool) : FileTree × Except Error Unit :=
  match if validate then checkOutput language text else .ok () with
  | .error e => (t, .error e)
  | .ok _ => t.writeFile atomic path text

def writeAll (t : FileTree) (atomic : Bool) :
    List (FilePath × String) → FileTree × Except Error Unit
  | [] => (t, .ok ())
  | (path, text) :: files =>
    match t.writeFile atomic path text with
    | (t, .error e) => (t, .error e)
    | (t, .ok _) => t.writeAll atomic files

/-- Whether a file is taken for a generated one: by the end of its name. -/
def isGenerated (suffix : String) (p : Place) : Bool := (p.getLast?.getD "").endsWith suffix

/-- Whether a file is to be removed: it is taken for a generated one, and not to be kept. -/
def isStale (suffix : String) (kept : List Place) (p : Place) : Bool :=
  isGenerated suffix p && !kept.contains p

/-- Cleans up the directory at a place, which a path leads to. -/
def cleanUpAt (t : FileTree) (directory : FilePath) (place : Place) (suffix : String)
    (kept : List Place) : FileTree × Except FileFault Unit :=
  (t.removeFiles place (isStale suffix kept)).prune directory place

/-- The places that paths lead to. -/
def places (t : FileTree) (paths : List FilePath) : List Place :=
  paths.filterMap fun path => (t.locate path).toOption

/-- Cleans up where a path leads to a directory, and elsewhere does nothing. -/
def cleanUp (t : FileTree) (directory : FilePath) (suffix : String) (written : List FilePath) :
    FileTree × Except Error Unit :=
  match t.locate directory with
  | .error .nameTooLong => (t, .error (.cleanUpFailed directory .nameTooLong))
  | .error _ => (t, .ok ())
  | .ok p =>
    if t.find? p = some .directory then
      match t.cleanUpAt directory p suffix (t.places written) with
      | (t, result) => (t, result.mapError (.cleanUpFailed directory))
    else (t, .ok ())

end FileTree

/-! ## Formatters -/

namespace FormatterTool

def executable : FormatterTool → String := name

def arguments : FormatterTool → List String
  | prettier => ["--write"]
  | biome => ["format", "--write"]
  | eslint => ["--fix"]

/-- The command that formats a file or a directory in place. -/
def command (tool : FormatterTool) (path : FilePath) : List String :=
  tool.executable :: (tool.arguments ++ [path.text])

/-- No program is run from here, so a formatter is never found. -/
def isAvailable (_ : FormatterTool) : Bool := false

def run (tool : FormatterTool) : Except Error Unit :=
  if tool.isAvailable then .ok () else .error (.formatterMissing tool.executable)

end FormatterTool

/-- Runs the formatter if there is to be one. A failure counts only if it is strict. -/
def FormatterConfig.run (c : FormatterConfig) : Except Error Unit :=
  if c.enabled ∧ c.strict then c.tool.run else .ok ()

/-! ## Exports -/

namespace Export

/-- Checks a text unless the configuration says otherwise. -/
def checkText (x : Export) (text : String) : Except Error Unit :=
  if x.config.output.validate then x.config.language.checkOutput text else .ok ()

/-- The files of an export, after all checks, and the part of the tree that is cleaned up. -/
def rendered (x : Export) (path : FilePath) : Except Error (List (FilePath × String)) :=
  if x.config.layout = .perTypeFile then do
    let files ← x.files
    files.forM fun file => x.checkText file.2
    return (files.mergeSort fun a b => a.1.le b.1).map fun (p, text) => (path.join p, text)
  else do
    let text ← x.text
    x.checkText text
    return [(path, text)]

/-- Removes what an earlier export has left in the directory. -/
def removeStale (x : Export) (path : FilePath) (written : List FilePath) (t : FileTree) :
    FileTree × Except Error Unit :=
  if x.config.layout = .perTypeFile then t.cleanUp path x.config.language.fileSuffix written
  else (t, .ok ())

/-- Writes the export, and returns what was written. -/
def write (x : Export) (path : FilePath) (t : FileTree) :
    FileTree × Except Error (List FilePath) :=
  match x.rendered path with
  | .error e => (t, .error e)
  | .ok files =>
    match t.writeAll x.config.output.atomic files with
    | (t, .error e) => (t, .error e)
    | (t, .ok _) =>
      let written := files.map (·.1)
      match x.removeStale path written t with
      | (t, .error e) => (t, .error e)
      | (t, .ok _) => (t, x.config.formatter.run.map fun _ => written)

end Export

end ShapeExport
