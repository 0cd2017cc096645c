import ShapeExport.Scope

/-!
# Map keys

A map key must reduce to strings or numbers. `Scope.isMapKey` follows references into the records
and gives up on a record that it is already in; so it ends, even where arguments grow on the way.
-/

namespace ShapeExport

namespace Literal

/-- A literal is a key unless it is a truth value or null. -/
def isKey : Literal → Bool
  | bool _ | none => false
  | _ => true

end Literal

namespace Scope

mutual

/-- Whether a shape reduces to a key. `free` tells whether a type parameter is taken for a key, and
`seen` holds the records on the way. -/
def isMapKey (scope : Scope) (free : Bool) (seen : List TypeKey) (s : Shape) : Except Error Bool :=
  match s with
  | .primitive kind => .ok (kind.isNumber || kind.isStringLike)
  | .literal value => .ok value.isKey
  | .nullable inner => scope.isMapKey free seen inner
  | .placeholder _ => .ok free
  | .foreign _ => .ok true
  | .enum name variants tagging =>
    scope.areMapKeys free seen (scope.overrides.effective name tagging).isUntagged variants
  | .reference id arguments =>
    if _ : id.key ∈ seen then .ok false
    else match _ : scope.types.resolve id.key with
      | none => .error (.invalidReference [] id)
      | some record => scope.isMapKey free (id.key :: seen) (record.expand arguments)
  | .list .. | .map .. | .tuple _ | .struct .. => .ok false
termination_by (scope.types.unseen seen, sizeOf s)
decreasing_by
  · exact Prod.Lex.right _ (by simp)
  · exact Prod.Lex.right _ (by simp +arith)
  · exact Prod.Lex.left _ _ (Collection.unseen_cons_lt ‹_› ‹_›)

/-- Whether all variants that are not skipped are keys: a unit is the constant of its name, and a
variant of an untagged enum may be its only field. -/
def areMapKeys (scope : Scope) (free : Bool) (seen : List TypeKey) (untagged : Bool)
    (vs : List (Variant Shape)) : Except Error Bool :=
  match vs with
  | [] => .ok true
  | v :: vs =>
    if v.skip then scope.areMapKeys free seen untagged vs
    else match _ : v.body with
      | .unit => scope.areMapKeys free seen untagged vs
      | .named .. => .ok false
      | .positional fields =>
        if !untagged then .ok false
        else match _ : Field.kept fields with
          | [] => scope.areMapKeys free seen untagged vs
          | [f] => do
            if ← scope.isMapKey free seen f.ty then scope.areMapKeys free seen untagged vs
            else .ok false
          | _ => .ok false
termination_by (scope.types.unseen seen, sizeOf vs)
decreasing_by
  · exact Prod.Lex.right _ (by simp +arith)
  · exact Prod.Lex.right _ (by simp +arith)
  · exact Prod.Lex.right _ (by simp +arith)
  · refine Prod.Lex.right _ ?_
    have := Shape.sizeOf_ty_lt_positional fields (f := f) (by simp [*])
    have := Shape.sizeOf_body_lt v
    simp_all
    omega
  · exact Prod.Lex.right _ (by simp +arith)

end

end Scope

end ShapeExport
