import ShapeExport.Export
import ShapeExport.Shape.References
import ShapeExport.TypeScript.TypeExpr

/-!
# Shapes as TypeScript types

`Export.typeExpr` turns a shape into a type. References become names, so it follows none.

* `Export.bodyExpr` : the type of a body;
* `Export.variantExpr` : the type of a variant under a representation;
* `Export.typeDeclaration` : `export type Name<T> = …;` below its comment.
-/

namespace ShapeExport
open TypeScript TypeScript.TypeExpr

/-- The key of a property, as TypeScript writes it. -/
def scriptKey (key : String) : String := Language.typescript.propertyKey key

/-- A string constant. -/
def stringConstant (s : String) : TypeExpr := .constant (Text.literal .ascii s)

def Literal.typeExpr : Literal → TypeExpr
  | none => null
  | bool b => .constant (if b then "true" else "false")
  | l => if l.isStringLike then stringConstant l.plainText else .constant l.plainText

/-- The member that holds a constant tag. -/
def tagMember (key value : String) : Member TypeExpr :=
  { key := scriptKey key, type := stringConstant value }

namespace Export

def primitiveExpr (x : Export) (path : Path) (kind : Primitive) : Except Error TypeExpr :=
  if kind.isBigInt then do
    match ← x.config.bigIntAt path with
    | .string => return .builtin "string"
    | .number => return .builtin "number"
    | _ => return .builtin "bigint"
  else if kind.isNumber then .ok (.builtin "number")
  else if kind.isStringLike then .ok (.builtin "string")
  else .ok (.builtin "boolean")

mutual

def typeExpr (x : Export) (path : Path) (s : Shape) : Except Error TypeExpr :=
  match s with
  | .primitive kind => x.primitiveExpr path kind
  | .literal value => .ok value.typeExpr
  | .list element length _ => do return arrayOf (← x.typeExpr path element) length
  | .map key value => do
    let k ← x.typeExpr path key.stripNullable
    let v ← x.typeExpr path value
    return .mapped k v
  | .nullable inner => do return nullableOf (← x.typeExpr path inner)
  | .tuple [] => .ok null
  | .tuple elements => do return .tuple (← x.elementExprs path 0 elements)
  | .struct name body => x.bodyExpr (path.enter name) name body
  | .enum name variants tagging =>
    let path := path.enter name
    if (Variant.kept variants).isEmpty then .ok (.builtin "never")
    else do
      let r ← x.scope.represent path name variants tagging
      return unionOf (← x.variantExprs r path variants)
  | .reference id arguments => do
    let record ← x.target path id
    return .named record.id.key (x.displayName record) (← x.argumentExprs path arguments)
  | .foreign (.verbatim text) => .ok (.verbatim text)
  | .foreign (.named kind) => .error (.invalidForeign path kind .typescript)
  | .placeholder name => .ok (.parameter name)
termination_by sizeOf s
decreasing_by
  all_goals simp +arith
  have := Shape.sizeOf_stripNullable_le key
  omega

def argumentExprs (x : Export) (path : Path) (ss : List Shape) : Except Error (List TypeExpr) :=
  match ss with
  | [] => .ok []
  | s :: ss => do return (← x.typeExpr path s) :: (← x.argumentExprs path ss)
termination_by sizeOf ss

/-- The elements of a tuple; each is at its position. -/
def elementExprs (x : Export) (path : Path) (i : Nat) (ss : List Shape) :
    Except Error (List TypeExpr) :=
  match ss with
  | [] => .ok []
  | s :: ss => do
    return (← x.typeExpr (path ++ [toString i]) s) :: (← x.elementExprs path (i + 1) ss)
termination_by sizeOf ss

/-- A single positional field stands for its own type, unless others were skipped. -/
def bodyExpr (x : Export) (path : Path) (name : String) (b : Body Shape) : Except Error TypeExpr :=
  match b with
  | .unit => .ok null
  | .positional fields =>
    match fields with
    | [f] => if f.skip then .ok (.tuple []) else x.typeExpr path f.ty
    | fields => do return .tuple (← x.positionalExprs path 0 fields)
  | .named tag fields => do
    let members ← x.memberExprs path fields
    match (tag.map fun t => tagMember t name).toList ++ members with
    | [] => return .emptyObject
    | members => return .object members
termination_by sizeOf b
decreasing_by
  · have := Shape.sizeOf_ty_lt f
    simp
    omega
  · simp +arith
  · simp +arith

/-- The positional fields that are not skipped; each is at its position among them. -/
def positionalExprs (x : Export) (path : Path) (i : Nat)
    (fs : List (Field (Option String) Shape)) : Except Error (List TypeExpr) :=
  match fs with
  | [] => .ok []
  | f :: fs =>
    if f.skip then x.positionalExprs path i fs
    else do
      return (← x.typeExpr (path ++ [toString i]) f.ty) :: (← x.positionalExprs path (i + 1) fs)
termination_by sizeOf fs
decreasing_by
  · simp +arith
  · have := Shape.sizeOf_ty_lt f
    simp
    omega
  · simp +arith

/-- The named fields that are not skipped, as members. -/
def memberExprs (x : Export) (path : Path) (fs : List (Field String Shape)) :
    Except Error (List (Member TypeExpr)) :=
  match fs with
  | [] => .ok []
  | f :: fs =>
    if f.skip then x.memberExprs path fs
    else do
      let type ← x.typeExpr (path ++ [f.key]) f.ty
      let member : Member TypeExpr :=
        { comment := inlineComment x.config.commentStyle f.docs f.deprecation
          key := scriptKey f.key
          optional := x.config.isOptional f
          type }
      return member :: (← x.memberExprs path fs)
termination_by sizeOf fs
decreasing_by
  · simp +arith
  · have := Shape.sizeOf_ty_lt f
    simp
    omega
  · simp +arith

def variantExprs (x : Export) (r : Representation) (path : Path) (vs : List (Variant Shape)) :
    Except Error (List TypeExpr) :=
  match vs with
  | [] => .ok []
  | v :: vs =>
    if v.skip then x.variantExprs r path vs
    else do
      let type ← x.variantExpr r (path ++ [v.name]) (r.variantKey v) v.body
      return type :: (← x.variantExprs r path vs)
termination_by sizeOf vs
decreasing_by
  · simp +arith
  · have := Shape.sizeOf_body_lt v
    simp
    omega
  · simp +arith

/-- The type of a variant with the given key and body. -/
def variantExpr (x : Export) (r : Representation) (path : Path) (key : String) (b : Body Shape) :
    Except Error TypeExpr :=
  match r with
  | .strings _ => .ok (stringConstant key)
  | .untagged => x.bodyExpr path key b
  | .external =>
    if b.isUnit then .ok (stringConstant key)
    else if b.allSkipped then .ok (if b.types.isEmpty then .tuple [] else stringConstant key)
    else do return .object [{ key := scriptKey key, type := ← x.bodyExpr path key b }]
  | .internal tag => do
    let tag := tagMember (← labelText tag) key
    match b with
    | .named inner fields =>
      let members ← x.memberExprs path fields
      return .grouped (.object (tag :: ((inner.map fun t => tagMember t key).toList ++ members)))
    | .positional fields => x.taggedPayload tag path fields
    | .unit => return .grouped (.object [tag])
  | .adjacent tag content => do
    let tag := tagMember (← labelText tag) key
    if b.isUnit then return .object [tag]
    else
      let type ← x.bodyExpr path key b
      return .object [tag, { key := scriptKey (← labelText content), type }]
termination_by sizeOf b + 1
decreasing_by
  all_goals simp +arith

/-- The tag joined with the first field that is not skipped, if there is one. -/
def taggedPayload (x : Export) (tag : Member TypeExpr) (path : Path)
    (fs : List (Field (Option String) Shape)) : Except Error TypeExpr :=
  match fs with
  | [] => .ok (.grouped (.object [tag]))
  | f :: fs =>
    if f.skip then x.taggedPayload tag path fs
    else do return .grouped (.intersection (.object [tag]) (← x.typeExpr path f.ty))
termination_by sizeOf fs
decreasing_by
  · simp +arith
  · have := Shape.sizeOf_ty_lt f
    simp
    omega

end

/-- The declaration of a record. -/
def typeDeclaration (x : Export) (r : Record) : Except Error String := do
  let type ← x.typeExpr [r.name] r.shape
  let parameters :=
    if r.parameters.isEmpty then "" else "<" ++ ", ".intercalate r.parameters ++ ">"
  return commentBlock x.config.commentStyle "" r.docs r.deprecation ++ "export type "
    ++ x.displayName r ++ parameters ++ " = " ++ type.text ++ ";"

end Export

end ShapeExport
