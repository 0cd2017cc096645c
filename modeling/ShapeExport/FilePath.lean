import ShapeExport.Text.Pieces

/-!
# File paths

A path is an anchor and the names behind it. Empty names and single dots are dropped when a text is
read; two dots stay, since what is above a directory depends on where it lies.

* `FilePath.ofPieces` : joins pieces. A piece with an anchor starts the path again;
* `FilePath.text` : the text of a path; the path without names is a dot;
* `FilePath.normalize` : takes two dots together with the name in front of them;
* `FilePath.absolute` : the names of a path from the root, as seen from the working directory;
* `FilePath.relativeTo` : the way from a directory to a path.
-/

namespace ShapeExport

/-- What a path starts from. Two slashes, and no more, are an anchor of their own. -/
inductive PathAnchor
  | relative
  | root
  | doubleRoot
deriving DecidableEq, Repr

namespace PathAnchor

def ofChars : List Char → PathAnchor
  | '/' :: '/' :: '/' :: _ => root
  | '/' :: '/' :: _ => doubleRoot
  | '/' :: _ => root
  | _ => relative

def text : PathAnchor → String
  | relative => ""
  | root => "/"
  | doubleRoot => "//"

end PathAnchor

structure FilePath where
  anchor : PathAnchor := .relative
  names : List String := []
deriving DecidableEq, Repr

namespace FilePath

/-- Whether a piece between slashes counts. -/
def isName (s : String) : Bool := s != "" && s != "."

def ofText (s : String) : FilePath :=
  ⟨.ofChars s.toList, (Text.split '/' s).filter isName⟩

def join (p q : FilePath) : FilePath :=
  if q.anchor = .relative then ⟨p.anchor, p.names ++ q.names⟩ else q

def ofPieces (pieces : List String) : FilePath := (pieces.map ofText).foldl join {}

def text (p : FilePath) : String :=
  if p.anchor = .relative ∧ p.names.isEmpty then "."
  else p.anchor.text ++ "/".intercalate p.names

def parent (p : FilePath) : FilePath := { p with names := p.names.dropLast }

/-- The last name. -/
def name (p : FilePath) : String := p.names.getLast?.getD ""

/-- Whether a text can be the last name of a path. -/
def isFileName (s : String) : Bool := isName s && !s.toList.contains '/'

/-- The path with another last name. -/
def withName? (p : FilePath) (name : String) : Option FilePath :=
  if isFileName name then some { p with names := p.names.dropLast ++ [name] } else none

/-- What is compared in the order of paths: the anchor, if there is one, and then the names. -/
def components (p : FilePath) : List String :=
  if p.anchor = .relative then p.names else p.anchor.text :: p.names

def le (p q : FilePath) : Bool := !q.components.lex p.components fun a b => decide (a < b)

/-! ## Two dots -/

/-- The names after one more name. Two dots take the last name back; at the root there is none, and
on a relative path without names they stay. -/
def step (anchor : PathAnchor) (names : List String) (name : String) : List String :=
  if name ≠ ".." then names ++ [name]
  else match names.getLast? with
    | none => if anchor = .relative then [".."] else []
    | some last => if last = ".." then names ++ [".."] else names.dropLast

def normalize (p : FilePath) : FilePath := { p with names := p.names.foldl (step p.anchor) [] }

/-- Up from each name of `start` that is not shared, and then down. -/
def wayBetween : List String → List String → List String
  | s :: start, p :: path =>
    if s = p then wayBetween start path else (s :: start).map (fun _ => "..") ++ p :: path
  | start, path => start.map (fun _ => "..") ++ path

/-- The names of a path, seen from the root. A relative path lies in the working directory. -/
def absolute (directory : List String) (p : FilePath) : List String :=
  (normalize ⟨.root, if p.anchor = .relative then directory ++ p.names else p.names⟩).names

/-- The way from the directory `start` to a path. -/
def relativeTo (p start : FilePath) (directory : List String) : FilePath :=
  ⟨.relative, wayBetween (absolute directory start) (absolute directory p)⟩

end FilePath

end ShapeExport
