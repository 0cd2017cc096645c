import ShapeExport.Shape.Basic

/-!
# Records

A record is a named type: a shape under an id and a name, with what a renderer needs to declare it.
-/

namespace ShapeExport

/-- Where a type was declared. -/
structure Location where
  file : String := "<unknown>"
  line : Int := 0
deriving DecidableEq, Repr

def Location.text (l : Location) : String := l.file ++ ":" ++ toString l.line

structure Record where
  id : TypeId
  name : String
  shape : Shape
  /-- The names of the type parameters, in order. -/
  parameters : List String := []
  docs : List String := []
  deprecation : Option Deprecation := none
  location : Location := {}
  /-- The dotted path of the declaring module. -/
  modulePath : String := ""
deriving Repr

namespace Record

/-- All documentation lines as one text. -/
def docsText (r : Record) : String := "\n".intercalate r.docs

def isGeneric (r : Record) : Bool := !r.parameters.isEmpty

end Record

end ShapeExport
