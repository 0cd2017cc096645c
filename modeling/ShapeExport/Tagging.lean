import ShapeExport.Json.Basic

/-!
# Enum representations

How a value of an enum tells which variant it holds.

* `Tagging` : a representation as it is declared. Its labels are meant to be texts, but any value is
  taken: whether a label can be used shows where a key is made of it;
* `Tagging.same` : equality, where labels are compared as values;
* `Overrides` : representations by the name of the enum, in the order in which they were given;
* `Overrides.effective` : the representation that an enum uses. One that is given by name wins over
  the declared one, and without either the enum is tagged externally.
-/

namespace ShapeExport

inductive Tagging
  /-- An object with the variant's key around the payload, or a bare string for a unit. -/
  | external
  /-- The tag is a property of the payload's own object. -/
  | internal (tag : Json)
  /-- The tag and the payload are two properties of one object. -/
  | adjacent (tag content : Json)
  /-- The payload alone. -/
  | untagged
  /-- The variant's key alone, cased by the rule of a name. Null is for no rule. -/
  | strings (casing : Json)
deriving Repr

namespace Tagging

def isUntagged : Tagging → Bool
  | untagged => true
  | _ => false

def labels : Tagging → List Json
  | external | untagged => []
  | internal tag => [tag]
  | adjacent tag content => [tag, content]
  | strings casing => [casing]

def same : Tagging → Tagging → Bool
  | external, external | untagged, untagged => true
  | internal s, internal t => s.same t
  | adjacent s c, adjacent t d => s.same t && c.same d
  | strings s, strings t => s.same t
  | _, _ => false

end Tagging

abbrev Overrides := List (String × Tagging)

def Overrides.effective (o : Overrides) (enum : String) (declared : Option Tagging) : Tagging :=
  (o.lookup enum <|> declared).getD .external

end ShapeExport
