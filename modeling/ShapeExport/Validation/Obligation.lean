import ShapeExport.Shape.References
import ShapeExport.Validation.MapKey
import ShapeExport.Validation.Payload

/-!
# Validation

Validation refuses shapes that a serializer cannot read back: map keys that are no keys, internally
tagged variants without an object, and skips that take required content away.

* `Obligation` : what the walk through a body leaves to do: a violation to report, or a record to
  visit;
* `Scope.obligations` : the walk through one body, in order. It stops at references, and visits
  their records instead;
* `Scope.discharge` : works through a list of obligations, first things first. Each record is
  visited once;
* `Scope.validate` : visits all records of the collection.
-/

namespace ShapeExport

inductive Obligation (types : Collection)
  | fail (e : Error)
  | visit (record : Record) (mem : record ∈ types.members)

namespace Scope

/-- The obligations of a check: its failure, if it fails. -/
def failure {types : Collection} : Except Error Unit → List (Obligation types)
  | .ok _ => []
  | .error e => [.fail e]

/-- Requires that a shape is a map key. -/
def requireKey (scope : Scope) (path : Path) (argument : Option (String × String)) (s : Shape) :
    Except Error Unit :=
  match scope.isMapKey true [] s with
  | .ok true => .ok ()
  | .ok false => .error (.invalidMapKey path argument)
  | .error e => .error e

/-- Requires that the arguments for parameters which a record uses as map keys are map keys. -/
def keyArguments (scope : Scope) (path : Path) (record : Record) (arguments : List Shape) :
    List (Obligation scope.types) :=
  (record.parameters.zip arguments).flatMap fun (name, argument) =>
    if record.shape.mapKeyParameters.contains name then
      failure (scope.requireKey path (some (name, record.name)) argument)
    else []

/-- Requires that an enum keeps a variant if it has one, and that internal tags fit. -/
def enumChecks (scope : Scope) (path : Path) (enum : String) (variants : List (Variant Shape))
    (tagging : Option Tagging) : List (Obligation scope.types) :=
  (if !variants.isEmpty && (Variant.kept variants).isEmpty then
    [.fail (.invalidSkip path .everyVariant)] else []) ++
  match scope.overrides.effective enum tagging with
  | .internal _ => failure (scope.checkTagged path enum variants)
  | _ => []

mutual

def obligations (scope : Scope) (path : Path) (s : Shape) : List (Obligation scope.types) :=
  match s with
  | .primitive _ | .literal _ | .placeholder _ | .foreign _ => []
  | .list element _ _ => scope.obligations path element
  | .map key value =>
    failure (scope.requireKey path none key) ++
      (scope.obligations path key ++ scope.obligations path value)
  | .nullable inner => scope.obligations path inner
  | .tuple elements => scope.elementObligations path 0 elements
  | .struct _ body => scope.bodyObligations path body
  | .enum name variants tagging =>
    scope.enumChecks path name variants tagging ++ scope.variantObligations path variants
  | .reference id arguments =>
    match h : scope.types.resolve id.key with
    | none => [.fail (.invalidReference path id)]
    | some record =>
      scope.argumentObligations path arguments ++
        (scope.keyArguments path record arguments ++
          [.visit record (Collection.mem_members_of_resolve h)])
termination_by sizeOf s

def argumentObligations (scope : Scope) (path : Path) (ss : List Shape) :
    List (Obligation scope.types) :=
  match ss with
  | [] => []
  | s :: ss => scope.obligations path s ++ scope.argumentObligations path ss
termination_by sizeOf ss

/-- The elements of a tuple; each is at its position. -/
def elementObligations (scope : Scope) (path : Path) (i : Nat) (ss : List Shape) :
    List (Obligation scope.types) :=
  match ss with
  | [] => []
  | s :: ss =>
    scope.obligations (path ++ [toString i]) s ++ scope.elementObligations path (i + 1) ss
termination_by sizeOf ss

def bodyObligations (scope : Scope) (path : Path) (b : Body Shape) :
    List (Obligation scope.types) :=
  match b with
  | .unit => []
  | .positional fields =>
    (match fields with
      | [f] => if f.skip then [.fail (.invalidSkip (path ++ ["0"]) .onlyPositionalField)] else []
      | _ => []) ++ scope.positionalObligations path 0 fields
  | .named _ fields => scope.namedObligations path fields
termination_by sizeOf b

/-- Positional fields; each is at its name, or else at its position. -/
def positionalObligations (scope : Scope) (path : Path) (i : Nat)
    (fs : List (Field (Option String) Shape)) : List (Obligation scope.types) :=
  match fs with
  | [] => []
  | f :: fs =>
    (if f.skip then [] else scope.obligations (path ++ [f.name.getD (toString i)]) f.ty) ++
      scope.positionalObligations path (i + 1) fs
termination_by sizeOf fs
decreasing_by
  · have := Shape.sizeOf_ty_lt f
    simp
    omega
  · simp +arith

def namedObligations (scope : Scope) (path : Path) (fs : List (Field String Shape)) :
    List (Obligation scope.types) :=
  match fs with
  | [] => []
  | f :: fs =>
    (if f.skip then [] else scope.obligations (path ++ [f.name]) f.ty) ++
      scope.namedObligations path fs
termination_by sizeOf fs
decreasing_by
  · have := Shape.sizeOf_ty_lt f
    simp
    omega
  · simp +arith

def variantObligations (scope : Scope) (path : Path) (vs : List (Variant Shape)) :
    List (Obligation scope.types) :=
  match vs with
  | [] => []
  | v :: vs =>
    (if v.skip then [] else scope.bodyObligations (path ++ [v.name]) v.body) ++
      scope.variantObligations path vs
termination_by sizeOf vs
decreasing_by
  · have := Shape.sizeOf_body_lt v
    simp
    omega
  · simp +arith

end

/-- The obligations of a record are those of its body. -/
def recordObligations (scope : Scope) (r : Record) : List (Obligation scope.types) :=
  scope.obligations [r.name] r.shape

/-- Works through obligations and returns the ids of the records that were visited. -/
def discharge (scope : Scope) (checked : List TypeKey) :
    List (Obligation scope.types) → Except Error (List TypeKey)
  | [] => .ok checked
  | .fail e :: _ => .error e
  | .visit record _ :: rest =>
    if _ : record.id.key ∈ checked then scope.discharge checked rest
    else scope.discharge (record.id.key :: checked) (scope.recordObligations record ++ rest)
termination_by todo => (scope.types.unchecked checked, todo.length)
decreasing_by
  · exact Prod.Lex.right _ (by simp)
  · exact Prod.Lex.left _ _ (Collection.unchecked_cons_lt ‹_› ‹_›)

/-- A visit to each record, in the order of the records. -/
def visits (scope : Scope) : List (Obligation scope.types) :=
  scope.types.records.attach.map fun ⟨r, h⟩ => .visit r (Collection.mem_records.1 h)

def validate (scope : Scope) : Except Error Unit := (scope.discharge [] scope.visits).map fun _ => ()

end Scope

end ShapeExport
