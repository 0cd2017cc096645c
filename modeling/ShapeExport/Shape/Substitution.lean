import ShapeExport.Shape.Basic

/-!
# Substitution of type parameters

* `Binding` : the shapes that type parameters stand for; a parameter without one stands for itself;
* `Binding.ofLists` : binds parameters to arguments in order. Of parameters with the same name the
  last one counts, and what is left over on either side is ignored;
* `Shape.substitute` : replaces the bound parameters everywhere in a shape.
-/

namespace ShapeExport

abbrev Binding := String → Option Shape

namespace Binding

def ofLists (parameters : List String) (arguments : List Shape) : Binding :=
  fun name => (parameters.zip arguments).reverse.lookup name

end Binding

namespace Shape

def substitute (b : Binding) (s : Shape) : Shape :=
  match s with
  | placeholder name => (b name).getD (placeholder name)
  | s => s.mapOver fun c _ => substitute b c
termination_by sizeOf s
decreasing_by exact sizeOf_child_lt ‹_›

theorem substitute_placeholder (b : Binding) (name : String) :
    (placeholder name).substitute b = (b name).getD (placeholder name) := by
  rw [substitute]

theorem substitute_eq_mapChildren {s : Shape} (b : Binding) (h : ∀ name, s ≠ placeholder name) :
    s.substitute b = s.mapChildren (substitute b) := by
  cases s with
  | placeholder name => exact absurd rfl (h name)
  | _ =>
    rw [substitute]
    · exact mapOver_eq_mapChildren _ _
    · exact fun name e => h name e

/-- A shape whose parameters are all unbound stays as it is. -/
theorem substitute_none (s : Shape) : s.substitute (fun _ => none) = s := by
  induction s using childInduction with
  | step s ih =>
    by_cases h : ∃ name, s = placeholder name
    · obtain ⟨name, rfl⟩ := h
      exact substitute_placeholder _ name
    · rw [substitute_eq_mapChildren _ fun name e => h ⟨name, e⟩]
      exact (mapChildren_congr ih).trans s.mapChildren_id

end Shape

end ShapeExport
