import ShapeExport.Casing
import ShapeExport.Json.Printer
import ShapeExport.Validation.Payload

/-!
# Resolved representations

* `Representation` : a representation that was checked against its enum, with the casing rule that
  the declared one names;
* `Scope.represent` : resolves the representation of an enum;
* `Representation.variantKey` : the serialized name of a variant;
* `labelText`, `labelKey` : a label as a key. Scripts take texts only; in an object any scalar is a
  key, by its text.
-/

namespace ShapeExport

inductive Representation
  | external
  | internal (tag : Json)
  | adjacent (tag content : Json)
  | untagged
  | strings (rule : Casing)
deriving Repr

/-- The representation of an enum, if it can encode the variants. Without a path the enum's name is
the place. -/
def Scope.represent (scope : Scope) (path : Path) (enum : String) (variants : List (Variant Shape))
    (tagging : Option Tagging) : Except Error Representation :=
  let path := if path.isEmpty then [enum] else path
  match scope.overrides.effective enum tagging with
  | .external => .ok .external
  | .untagged => .ok .untagged
  | .internal tag => do
    scope.checkTagged path enum variants
    return .internal tag
  | .adjacent tag content =>
    if tag.same content then .error (.invalidTagging path (.sameLabels tag))
    else .ok (.adjacent tag content)
  | .strings casing =>
    if Variant.allUnits variants then (Casing.ofJson path casing).map .strings
    else .error (.invalidTagging path .notAllUnits)

namespace Representation

/-- A renamed variant keeps its new name; only the string representation cases the others. -/
def variantKey (r : Representation) (v : Variant Shape) : String :=
  match v.rename, r with
  | some name, _ => name
  | none, strings rule => rule.onVariant v.name
  | none, _ => v.name

end Representation

/-! ## Labels -/

def labelText : Json → Except Error String
  | .string s => .ok s
  | label => .error (.unusableLabel label)

def labelKey : Json → Except Error String
  | .string s => .ok s
  | label =>
    if label.isScalar then .ok (label.compact .unicode) else .error (.unusableLabel label)

end ShapeExport
