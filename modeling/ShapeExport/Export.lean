import ShapeExport.Comment
import ShapeExport.Naming
import ShapeExport.Representation

/-!
# Exports

An export is a configuration and a collection: all that a renderer reads.

* `Export.scope` : what shapes are read against;
* `Path.enter` : the path inside a named type.
-/

namespace ShapeExport

structure Export where
  config : Config
  types : Collection

namespace Export

def scope (x : Export) : Scope := ⟨x.types, x.config.overrides⟩

/-- The record of a reference. -/
def target (x : Export) (path : Path) (id : TypeId) : Except Error Record := x.scope.target path id

def displayName (x : Export) (r : Record) : String := x.config.displayName r

end Export

/-- A name is added unless the path already ends with it. -/
def Path.enter (p : Path) (name : String) : Path :=
  if p.getLast? = some name then p else p ++ [name]

end ShapeExport
