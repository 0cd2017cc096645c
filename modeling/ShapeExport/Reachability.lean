import ShapeExport.Collection.Basic
import ShapeExport.Shape.References

/-!
# Reachability along references

`Collection.reachesItself` tells whether references lead from a record back to it. The search keeps a
list of ids to look at and the ids that it has expanded.
-/

namespace ShapeExport

/-- The ids that a record refers to directly. -/
def Record.referenced (r : Record) : List TypeKey := r.shape.references.map (·.id.key)

namespace Collection

/-- Whether one of the ids leads to `goal`, in any number of steps. -/
def reaches (c : Collection) (goal : TypeKey) (expanded : List TypeKey) : List TypeKey → Bool
  | [] => false
  | k :: rest =>
    if k = goal then true
    else if _ : k ∈ expanded then c.reaches goal expanded rest
    else match _ : c.resolve k with
      | none => c.reaches goal expanded rest
      | some r => c.reaches goal (k :: expanded) (r.referenced ++ rest)
termination_by todo => (c.unseen expanded, todo.length)
decreasing_by
  · exact Prod.Lex.right _ (by simp)
  · exact Prod.Lex.right _ (by simp)
  · exact Prod.Lex.left _ _ (unseen_cons_lt ‹_› ‹_›)

def reachesItself (c : Collection) (r : Record) : Bool := c.reaches r.id.key [] r.referenced

end Collection

end ShapeExport
