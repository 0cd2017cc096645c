import ShapeExport.Collection.Basic
import ShapeExport.Shape.Substitution

/-!
# Scopes

What a shape is read against: the records that references lead to, and the representations that are
given for enums by name.

* `Scope.target` : the record of a reference;
* `Scope.expand` : the body of a record with the arguments of a reference in place.
-/

namespace ShapeExport

structure Scope where
  types : Collection
  overrides : Overrides := []

/-- The body of a record, with its parameters bound to arguments. -/
def Record.expand (r : Record) (arguments : List Shape) : Shape :=
  r.shape.substitute (Binding.ofLists r.parameters arguments)

namespace Scope

/-- The record of a reference. -/
def target (scope : Scope) (path : Path) (id : TypeId) : Except Error Record :=
  ((scope.types.resolve id.key).map Except.ok).getD (.error (.invalidReference path id))

end Scope

namespace Field

/-- The fields that are not skipped. -/
def kept {ν σ : Type} (fs : List (Field ν σ)) : List (Field ν σ) := fs.filter (!·.skip)

end Field

namespace Shape

theorem sizeOf_ty_lt_positional {f : Field (Option String) Shape}
    (fs : List (Field (Option String) Shape)) (h : f ∈ Field.kept fs) :
    sizeOf f.ty < sizeOf (Body.positional fs) :=
  sizeOf_types_lt (List.mem_map.2 ⟨f, (List.mem_filter.1 h).1, rfl⟩)

end Shape

end ShapeExport
