import ShapeExport.Error

/-!
# File trees

The files and directories that a process sees, and the directory that it works in. This one and those
that hold it are taken to be in use, as a mount point is, and are not removed.

* `FileTree.find?` : the view that the operations are described by: what is at a place. The root is
  always there;
* `FileTree.locate` : the place that a path leads to. All on the way to it must be directories;
* `FileTree.node` : what a path leads to;
* `FileTree.makeDirectories` : creates a directory and those on the way to it;
* `FileTree.write` : creates or replaces a file, and the directories on the way to it. These stay
  even if the file itself cannot be written;
* `FileTree.removeFiles`, `FileTree.prune` : remove files, and directories that nothing is left in.
-/

namespace ShapeExport

inductive FileNode
  | directory
  | file (text : String)
deriving DecidableEq, Repr

/-- The names on the way from the root. -/
abbrev Place := List String

structure FileTree where
  workingDirectory : Place := ["work"]
  entries : List (Place × FileNode) := [(["work"], .directory)]
deriving Repr

namespace FileTree

def find? (t : FileTree) (p : Place) : Option FileNode :=
  if p = [] then some .directory else t.entries.lookup p

/-- Takes away what is at a place. -/
def erase (t : FileTree) (p : Place) : FileTree := { t with entries := t.entries.filter (·.1 ≠ p) }

/-- Sets what is at a place. -/
def set (t : FileTree) (p : Place) (n : FileNode) : FileTree :=
  { t with entries := (p, n) :: (t.erase p).entries }

/-! ## Following paths -/

/-- How many bytes a name may have. -/
def maxNameSize : Nat := 255

/-- How many bytes the text of a path may have. -/
def maxPathSize : Nat := 4095

def isLongName (name : String) : Bool := maxNameSize < name.utf8ByteSize

/-- The directory that holds a place. The root holds itself. -/
def above (p : Place) : Place := p.dropLast

/-- Where a path starts. -/
def start (t : FileTree) (path : FilePath) : Place :=
  if path.anchor = .relative then t.workingDirectory else []

/-- What makes a path unusable, whatever it leads to. -/
def pathFault? (path : FilePath) : Option FileFault :=
  if path.text.toList.contains '\x00' then some .nullCharacter
  else if maxPathSize < path.text.utf8ByteSize then some .nameTooLong
  else none

def locateFrom (t : FileTree) (p : Place) : List String → Except FileFault Place
  | [] => .ok p
  | name :: names =>
    match t.find? p with
    | none => .error .missing
    | some (.file _) => .error .notADirectory
    | some .directory =>
      if name = ".." then t.locateFrom (above p) names
      else if isLongName name then .error .nameTooLong
      else t.locateFrom (p ++ [name]) names

def locate (t : FileTree) (path : FilePath) : Except FileFault Place :=
  match pathFault? path with
  | some fault => .error fault
  | none => t.locateFrom (t.start path) path.names

def node (t : FileTree) (path : FilePath) : Except FileFault FileNode := do
  match t.find? (← t.locate path) with
  | some n => return n
  | none => throw .missing

/-- What a path leads to, if it leads anywhere. A name that is too long is not taken for one that is
missing. -/
def node? (t : FileTree) (path : FilePath) : Except FileFault (Option FileNode) :=
  match t.node path with
  | .ok n => .ok (some n)
  | .error .nameTooLong => .error .nameTooLong
  | .error _ => .ok none

/-! ## Creating -/

/-- How many names are left from the first one on that leads to nothing. A fault that is met before
leaves none. -/
def missingLevels (t : FileTree) (p : Place) : List String → Nat
  | [] => 0
  | name :: names =>
    if name = ".." then t.missingLevels (above p) names
    else match t.find? (p ++ [name]) with
      | some .directory => t.missingLevels (p ++ [name]) names
      | some (.file _) => 0
      | none => if isLongName name then 0 else names.length + 1

/-- How many directories are created at once. -/
def maxLevels : Nat := 988

/-- Goes along names and creates directories where there is nothing. -/
def makeDirectoriesFrom (t : FileTree) (p : Place) : List String → FileTree × Except FileFault Unit
  | [] => (t, .ok ())
  | name :: names =>
    if name = ".." then t.makeDirectoriesFrom (above p) names
    else if isLongName name then (t, .error .nameTooLong)
    else match t.find? (p ++ [name]) with
      | some .directory => t.makeDirectoriesFrom (p ++ [name]) names
      | some (.file _) => (t, .error (if names.isEmpty then .alreadyExists else .notADirectory))
      | none => (t.set (p ++ [name]) .directory).makeDirectoriesFrom (p ++ [name]) names

def makeDirectories (t : FileTree) (path : FilePath) : FileTree × Except FileFault Unit :=
  match pathFault? path with
  | some fault => (t, .error fault)
  | none =>
    if maxLevels < t.missingLevels (t.start path) path.names then (t, .error .tooManyLevels)
    else t.makeDirectoriesFrom (t.start path) path.names

/-- The file that a text is written to before it takes the place of another; its name holds eight
characters that are not fixed. -/
def draft (path : FilePath) : FilePath :=
  { path with names := path.parent.names ++ ["." ++ path.name ++ ".--------.tmp"] }

/-- Creates or replaces a file in a directory that is there. If it is atomic, the text is written to
a draft first. -/
def put (t : FileTree) (atomic : Bool) (path : FilePath) (text : String) :
    Except FileFault FileTree := do
  if atomic then discard (t.locate (draft path))
  let p ← t.locate path
  match t.find? p with
  | some .directory => throw .isADirectory
  | _ => return t.set p (.file text)

def write (t : FileTree) (atomic : Bool) (path : FilePath) (text : String) :
    FileTree × Except FileFault Unit :=
  match t.makeDirectories path.parent with
  | (t, .error fault) => (t, .error fault)
  | (t, .ok _) =>
    match t.put atomic path text with
    | .error fault => (t, .error fault)
    | .ok t => (t, .ok ())

/-! ## Below a directory -/

/-- Whether a place lies inside a directory. -/
def isBelow (directory p : Place) : Bool := directory.isPrefixOf p && directory.length < p.length

/-- Removes the files in a directory, at any depth, that a test tells by their places. -/
def removeFiles (t : FileTree) (directory : Place) (test : Place → Bool) : FileTree :=
  { t with entries := t.entries.filter fun (p, n) => n = .directory || !(isBelow directory p && test p) }

/-- Whether nothing lies directly in a directory. -/
def isVacant (t : FileTree) (directory : Place) : Bool :=
  !t.entries.any fun (p, _) => p ≠ [] && above p = directory

/-- Removes a directory if nothing lies in it. The working directory is busy, as a mount point is, even if nothing lies in
it; a system may also let such a directory go. -/
def removeVacant (t : FileTree) (path : FilePath) : Except FileFault FileTree := do
  let p ← t.locate path
  if !t.isVacant p then return t
  else if p.isPrefixOf t.workingDirectory then throw .busy
  else return t.erase p

/-- The paths to the directories in a directory, at any depth, the greatest path first. -/
def subdirectories (t : FileTree) (directory : FilePath) (place : Place) : List FilePath :=
  let places := (t.entries.filter fun (p, n) => n = .directory && isBelow place p).map (·.1)
  (places.map fun p => directory.join ⟨.relative, p.drop place.length⟩).mergeSort fun p q => q.le p

/-- Removes directories one after another, unless something is in them. -/
def removeEach (t : FileTree) : List FilePath → FileTree × Except FileFault Unit
  | [] => (t, .ok ())
  | path :: paths =>
    match t.removeVacant path with
    | .error fault => (t, .error fault)
    | .ok t => t.removeEach paths

/-- Removes the directories in a directory that nothing is left in. What lies in a directory has a
greater path, so it goes before. -/
def prune (t : FileTree) (directory : FilePath) (place : Place) : FileTree × Except FileFault Unit :=
  t.removeEach (t.subdirectories directory place)

/-! ## Reading -/

/-- The text with a line feed for each line break, which may also be a carriage return, alone or
together with a line feed. -/
def plainLines : List Char → List Char
  | '\r' :: '\n' :: cs => '\n' :: plainLines cs
  | '\r' :: cs => '\n' :: plainLines cs
  | c :: cs => c :: plainLines cs
  | [] => []

/-- The text of a file, with plain line breaks. -/
def read (t : FileTree) (path : FilePath) : Except FileFault String := do
  match ← t.node path with
  | .file text => return String.ofList (plainLines text.toList)
  | .directory => throw .isADirectory

/-- The path to a place: from the working directory if it lies there, and else from the root. -/
def pathTo (t : FileTree) (p : Place) : FilePath :=
  if isBelow t.workingDirectory p then ⟨.relative, p.drop t.workingDirectory.length⟩ else ⟨.root, p⟩

/-- All that lies in the working directory, with the texts of files. -/
def listing (t : FileTree) : List (FilePath × Option String) :=
  (t.entries.filter fun (p, _) => isBelow t.workingDirectory p).map fun (p, n) =>
    (t.pathTo p, match n with
      | .directory => none
      | .file text => some (String.ofList (plainLines text.toList)))

end FileTree

end ShapeExport
