import ShapeExport.Scope

/-!
# Payloads of internal tags

An internal tag is a property of the payload's own object, so each payload must serialize as an
object, or as null. `Scope.checkTagged` checks the variants of an enum that is tagged internally.
References are followed into their records, and a record that is already on the way is taken for
good; so the check ends.
-/

namespace ShapeExport.Scope

mutual

/-- Checks each variant that is not skipped: a positional one may keep one field at most. -/
def checkVariants (scope : Scope) (seen : List TypeKey) (path : Path) (vs : List (Variant Shape)) :
    Except Error Unit :=
  match vs with
  | [] => .ok ()
  | v :: vs =>
    if v.skip then scope.checkVariants seen path vs
    else match _ : v.body with
      | .unit | .named .. => scope.checkVariants seen path vs
      | .positional fields =>
        match _ : Field.kept fields with
        | [] => scope.checkVariants seen path vs
        | [f] => do
          scope.checkPayload seen (path ++ [v.name]) f.ty
          scope.checkVariants seen path vs
        | _ => .error (.invalidTagged (path ++ [v.name]) .severalFields)
termination_by (scope.types.unseen seen, sizeOf vs)
decreasing_by
  · exact Prod.Lex.right _ (by simp +arith)
  · exact Prod.Lex.right _ (by simp +arith)
  · exact Prod.Lex.right _ (by simp +arith)
  · exact Prod.Lex.right _ (by simp +arith)
  · refine Prod.Lex.right _ ?_
    have := Shape.sizeOf_ty_lt_positional fields (f := f) (by simp [*])
    have := Shape.sizeOf_body_lt v
    simp_all
    omega
  · exact Prod.Lex.right _ (by simp +arith)

/-- Checks one payload. The variants of an untagged enum stand for themselves. -/
def checkPayload (scope : Scope) (seen : List TypeKey) (path : Path) (s : Shape) :
    Except Error Unit :=
  match s with
  | .map .. | .struct .. | .placeholder _ | .foreign _ | .tuple [] => .ok ()
  | .enum name variants tagging =>
    if (scope.overrides.effective name tagging).isUntagged then scope.checkVariants seen path variants
    else .ok ()
  | .reference id arguments =>
    if _ : id.key ∈ seen then .ok ()
    else match _ : scope.types.resolve id.key with
      | none => .error (.invalidReference path id)
      | some record => scope.checkPayload (id.key :: seen) path (record.expand arguments)
  | .primitive _ | .literal _ | .list .. | .nullable _ | .tuple _ =>
    .error (.invalidTagged path .notAnObject)
termination_by (scope.types.unseen seen, sizeOf s)
decreasing_by
  · exact Prod.Lex.right _ (by simp +arith)
  · exact Prod.Lex.left _ _ (Collection.unseen_cons_lt ‹_› ‹_›)

end

/-- Checks an enum that is tagged internally. Without a path the enum's name is the place. -/
def checkTagged (scope : Scope) (path : Path) (enum : String) (vs : List (Variant Shape)) :
    Except Error Unit :=
  scope.checkVariants [] (if path.isEmpty then [enum] else path) vs

end ShapeExport.Scope
