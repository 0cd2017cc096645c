import ShapeExport.CommandLine.Run

/-!
# The program

`main` runs the command on the working directory. Of the files there it sees those that are named in
the arguments, or lie in directories that are. It has no modules of its own: a program that declares
collections calls `CommandLine.perform` with them.
-/

namespace ShapeExport.CommandLine

def synopsis : String := "Usage: " ++ program ++ " [OPTIONS] TARGET OUTPUT"

/-- What is printed about an outcome. -/
def Outcome.report : Outcome → List String
  | done => []
  | help => synopsis :: "" :: "Options:" :: Opt.all.map fun o => "  " ++ o.longName
  | usage e =>
    [synopsis, "Try '" ++ program ++ " --help' for help.", "", "Error: " ++ Text.unstyled e.message]
  | failed e => ["Error: " ++ Text.unstyled e.message]
  | crashed (.error e) => [e.message]
  | crashed (.configUnreadable fault) => ["The configuration cannot be read: " ++ fault.message]
  | crashed .configNotJson => ["The configuration is not JSON"]
  | crashed .configNotAnObject => ["The configuration is not an object"]
  | crashed .emptyModuleName => ["Empty module name"]
  | crashed .relativeModuleName => ["A relative module name needs a package"]
  | crashed .uncallable => ["The target cannot be called without arguments"]
  | crashed (.pathUnknown fault) => ["A path cannot be looked up: " ++ fault.message]

/-- Adds a file or a directory of the system to a tree. A file that holds no text is taken for an empty one. -/
def seen (t : FileTree) (path : String) : IO FileTree := do
  let place := (FilePath.ofText path).normalize
  if ← (← IO.FS.realPath path).isDir then return (t.makeDirectories place).1
  else
    let text ← (IO.FS.readFile path).toBaseIO
    return (t.write false place (text.toOption.getD "")).1

/-- The files that arguments name, and all that is in the directories that they name. -/
def seenFiles (directory : FilePath) (arguments : List String) : IO FileTree :=
  let start : FileTree := { workingDirectory := directory.names, entries := [] }
  arguments.foldlM
    (fun t (argument : String) => do
      let path := (← IO.currentDir) / argument
      if !(← path.pathExists) then return t
      let inside ← if ← path.isDir then path.walkDir else pure #[]
      (path :: inside.toList).foldlM (fun t p => seen t p.toString) t)
    (start.makeDirectories directory).1

/-- Does what a run has done: what it removed is removed, from the inside out, and what it changed is written. -/
def save (before after : FileTree) : IO Unit := do
  let gone := (before.entries.filter fun (place, _) => (after.find? place).isNone).mergeSort fun p q =>
    q.1.length ≤ p.1.length
  gone.forM fun (place, node) =>
    match node with
    | .directory => IO.FS.removeDir (before.pathTo place).text
    | .file _ => IO.FS.removeFile (before.pathTo place).text
  after.entries.forM fun (place, node) => do
    match node with
    | .directory => IO.FS.createDirAll (after.pathTo place).text
    | .file text =>
      if before.find? place ≠ some node then
        let path := after.pathTo place
        IO.FS.createDirAll path.parent.text
        IO.FS.writeFile path.text text

/-- Runs the command and returns its exit code. -/
def perform (modules : List (String × Module)) (arguments : List String) : IO UInt32 := do
  let directory := FilePath.ofText (← IO.currentDir).toString
  let files ← seenFiles directory arguments
  let (after, outcome) := Environment.run { directory, files, modules } arguments
  save files after
  let stream ← if outcome.exitCode = 0 then IO.getStdout else IO.getStderr
  outcome.report.forM stream.putStrLn
  return outcome.exitCode.toUInt32

end ShapeExport.CommandLine

def main (arguments : List String) : IO UInt32 :=
  ShapeExport.CommandLine.perform [] arguments
