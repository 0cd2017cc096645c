import ShapeExport.Reachability
import ShapeExport.TypeScript.Render
import ShapeExport.Zod.Schema

/-!
# Shapes as Zod schemas

`Export.schemaExpr` turns a shape into a schema. References become names, with one exception: the
keys of an object always arrive as strings, so a key is followed into the records that it refers to,
until it is known whether it is a number, which is then matched by its decimal text.

* `Export.keySchema` : the schema of a map key. A record that is on the way already is left as a
  name. The key may be a record with further maps in it, which are rendered with a fresh look at
  their keys; so an expansion may go on without end, and at most `expansionLimit` nested expansions
  are made;
* `Export.schemaDeclaration` : the schema constant of a record and its type. A record that reaches
  itself has its type declared in TypeScript.
-/

namespace ShapeExport
open Zod Zod.Schema

/-- How many expansions of records may lie in each other. -/
def expansionLimit : Nat := 1000

/-- The key of a property, as Zod output writes it. -/
def schemaKey (key : String) : String := Language.zod.propertyKey key

def stringLiteral (s : String) : Schema := .literal (Text.literal .ascii s)

/-- The text of a literal's constant. -/
def Literal.constantText : Literal → String
  | bool b => if b then "true" else "false"
  | l => if l.isStringLike then Text.literal .ascii l.plainText else l.plainText

def Literal.schema : Literal → Schema
  | none => .scalar .null
  | l => .literal l.constantText

/-- The member that holds a constant tag. -/
def schemaTag (key value : String) : Zod.Member Schema :=
  { key := schemaKey key, schema := stringLiteral value }

namespace Export

def primitiveSchema (x : Export) (path : Path) (kind : Primitive) : Except Error Schema :=
  if kind.isBigInt then do
    match ← x.config.bigIntAt path with
    | .string => return .scalar .string
    | .number => return .scalar .integer
    | _ => return .scalar .bigint
  else if kind.isInteger then .ok (.scalar .integer)
  else if kind.isFloat then .ok (.scalar .number)
  else match kind with
    | .char => .ok (.scalar .char)
    | .string => .ok (.scalar .string)
    | _ => .ok (.scalar .boolean)

mutual

def schemaExpr (x : Export) (left : Nat) (path : Path) (s : Shape) : Except Error Schema :=
  match s with
  | .primitive kind => x.primitiveSchema path kind
  | .literal value => .ok value.schema
  | .list element length _ => do
    let e ← x.schemaExpr left path element
    match length with
    | some n => return .tuple (List.replicate n.toNat e)
    | none => return .array e
  | .map key value => do
    let k ← x.keySchema left [] path key
    let v ← x.schemaExpr left path value
    return .record k v
  | .nullable inner => do return nullableOf (← x.schemaExpr left path inner)
  | .tuple [] => .ok (.scalar .null)
  | .tuple elements => do return .tuple (← x.elementSchemas left path 0 elements)
  | .struct name body => x.bodySchema left (path.enter name) name body
  | .enum name variants tagging =>
    let path := path.enter name
    if (Variant.kept variants).isEmpty then .ok (.scalar .never)
    else do
      let r ← x.scope.represent path name variants tagging
      return unionOf (← x.variantSchemas left r path variants)
  | .reference id arguments => do
    let record ← x.target path id
    return .lazy record.id.key (x.displayName record) (← x.argumentSchemas left path arguments)
  | .foreign (.verbatim text) => .ok (.custom text)
  | .foreign (.named kind) => .error (.invalidForeign path kind .zod)
  | .placeholder name => .ok (.parameter name)
termination_by (left, sizeOf s, 0)
decreasing_by
  all_goals exact Prod.Lex.right _ (Prod.Lex.left _ _ (by simp +arith))

/-- The schema of a map key. -/
def keySchema (x : Export) (left : Nat) (seen : List TypeKey) (path : Path) (s : Shape) :
    Except Error Schema :=
  match s with
  | .nullable inner => x.keySchema left seen path inner
  | .primitive kind =>
    if kind.isInteger then .ok (.scalar .integerKey)
    else if kind.isFloat then .ok (.scalar .numberKey)
    else x.schemaExpr left path (.primitive kind)
  | .literal value =>
    .ok (if value.isNumber then stringLiteral value.plainText else value.schema)
  | .reference id arguments =>
    if id.key ∈ seen then x.schemaExpr left path (.reference id arguments)
    else match left with
      | 0 => .error .tooDeep
      | left + 1 => do
        let record ← x.target path id
        x.keySchema left (id.key :: seen) path (record.expand arguments)
  | s => x.schemaExpr left path s
termination_by (left, sizeOf s, 1)
decreasing_by
  · exact Prod.Lex.right _ (Prod.Lex.left _ _ (by simp +arith))
  · exact Prod.Lex.right _ (Prod.Lex.right _ (by simp))
  · exact Prod.Lex.right _ (Prod.Lex.right _ (by simp))
  · exact Prod.Lex.left _ _ (by simp)
  · exact Prod.Lex.right _ (Prod.Lex.right _ (by simp))

def argumentSchemas (x : Export) (left : Nat) (path : Path) (ss : List Shape) :
    Except Error (List Schema) :=
  match ss with
  | [] => .ok []
  | s :: ss => do return (← x.schemaExpr left path s) :: (← x.argumentSchemas left path ss)
termination_by (left, sizeOf ss, 0)
decreasing_by
  all_goals exact Prod.Lex.right _ (Prod.Lex.left _ _ (by simp +arith))

/-- The elements of a tuple; each is at its position. -/
def elementSchemas (x : Export) (left : Nat) (path : Path) (i : Nat) (ss : List Shape) :
    Except Error (List Schema) :=
  match ss with
  | [] => .ok []
  | s :: ss => do
    return (← x.schemaExpr left (path ++ [toString i]) s) ::
      (← x.elementSchemas left path (i + 1) ss)
termination_by (left, sizeOf ss, 0)
decreasing_by
  all_goals exact Prod.Lex.right _ (Prod.Lex.left _ _ (by simp +arith))

/-- A single positional field stands for its own schema, unless others were skipped. -/
def bodySchema (x : Export) (left : Nat) (path : Path) (name : String) (b : Body Shape) :
    Except Error Schema :=
  match b with
  | .unit => .ok (.scalar .null)
  | .positional fields =>
    match fields with
    | [f] => if f.skip then .ok (.tuple []) else x.schemaExpr left path f.ty
    | fields => do return .tuple (← x.positionalSchemas left path 0 fields)
  | .named tag fields => do
    let members ← x.memberSchemas left path fields
    match (tag.map fun t => schemaTag t name).toList ++ members with
    | [] => return .emptyObject
    | members => return .object members
termination_by (left, sizeOf b, 0)
decreasing_by
  · have := Shape.sizeOf_ty_lt f
    exact Prod.Lex.right _ (Prod.Lex.left _ _ (by simp; omega))
  · exact Prod.Lex.right _ (Prod.Lex.left _ _ (by simp +arith))
  · exact Prod.Lex.right _ (Prod.Lex.left _ _ (by simp +arith))

/-- The positional fields that are not skipped; each is at its position among them. -/
def positionalSchemas (x : Export) (left : Nat) (path : Path) (i : Nat)
    (fs : List (Field (Option String) Shape)) : Except Error (List Schema) :=
  match fs with
  | [] => .ok []
  | f :: fs =>
    if f.skip then x.positionalSchemas left path i fs
    else do
      return (← x.schemaExpr left (path ++ [toString i]) f.ty) ::
        (← x.positionalSchemas left path (i + 1) fs)
termination_by (left, sizeOf fs, 0)
decreasing_by
  · exact Prod.Lex.right _ (Prod.Lex.left _ _ (by simp +arith))
  · have := Shape.sizeOf_ty_lt f
    exact Prod.Lex.right _ (Prod.Lex.left _ _ (by simp; omega))
  · exact Prod.Lex.right _ (Prod.Lex.left _ _ (by simp +arith))

/-- The named fields that are not skipped, as members. -/
def memberSchemas (x : Export) (left : Nat) (path : Path) (fs : List (Field String Shape)) :
    Except Error (List (Zod.Member Schema)) :=
  match fs with
  | [] => .ok []
  | f :: fs =>
    if f.skip then x.memberSchemas left path fs
    else do
      let schema ← x.schemaExpr left (path ++ [f.key]) f.ty
      let member : Zod.Member Schema :=
        { key := schemaKey f.key, schema, optional := x.config.isOptional f }
      return member :: (← x.memberSchemas left path fs)
termination_by (left, sizeOf fs, 0)
decreasing_by
  · exact Prod.Lex.right _ (Prod.Lex.left _ _ (by simp +arith))
  · have := Shape.sizeOf_ty_lt f
    exact Prod.Lex.right _ (Prod.Lex.left _ _ (by simp; omega))
  · exact Prod.Lex.right _ (Prod.Lex.left _ _ (by simp +arith))

def variantSchemas (x : Export) (left : Nat) (r : Representation) (path : Path)
    (vs : List (Variant Shape)) : Except Error (List Schema) :=
  match vs with
  | [] => .ok []
  | v :: vs =>
    if v.skip then x.variantSchemas left r path vs
    else do
      let schema ← x.variantSchema left r (path ++ [v.name]) (r.variantKey v) v.body
      return schema :: (← x.variantSchemas left r path vs)
termination_by (left, sizeOf vs, 0)
decreasing_by
  · exact Prod.Lex.right _ (Prod.Lex.left _ _ (by simp +arith))
  · have := Shape.sizeOf_body_lt v
    exact Prod.Lex.right _ (Prod.Lex.left _ _ (by simp; omega))
  · exact Prod.Lex.right _ (Prod.Lex.left _ _ (by simp +arith))

/-- The schema of a variant with the given key and body. -/
def variantSchema (x : Export) (left : Nat) (r : Representation) (path : Path) (key : String)
    (b : Body Shape) : Except Error Schema :=
  match r with
  | .strings _ => .ok (stringLiteral key)
  | .untagged => x.bodySchema left path key b
  | .external =>
    if b.isUnit then .ok (stringLiteral key)
    else if b.allSkipped then .ok (if b.types.isEmpty then .tuple [] else stringLiteral key)
    else do return .object [{ key := schemaKey key, schema := ← x.bodySchema left path key b }]
  | .internal tag => do
    let tag := schemaTag (← labelText tag) key
    match b with
    | .named inner fields =>
      let members ← x.memberSchemas left path fields
      return .object (tag :: ((inner.map fun t => schemaTag t key).toList ++ members))
    | .positional fields => x.taggedSchema left tag path fields
    | .unit => return .object [tag]
  | .adjacent tag content => do
    let tag := schemaTag (← labelText tag) key
    if b.isUnit then return .object [tag]
    else
      let schema ← x.bodySchema left path key b
      return .object [tag, { key := schemaKey (← labelText content), schema }]
termination_by (left, sizeOf b, 1)
decreasing_by
  · exact Prod.Lex.right _ (Prod.Lex.right _ (by simp))
  · exact Prod.Lex.right _ (Prod.Lex.right _ (by simp))
  · exact Prod.Lex.right _ (Prod.Lex.left _ _ (by simp +arith))
  · exact Prod.Lex.right _ (Prod.Lex.left _ _ (by simp +arith))
  · exact Prod.Lex.right _ (Prod.Lex.right _ (by simp))

/-- The tag joined with the first field that is not skipped, if there is one. -/
def taggedSchema (x : Export) (left : Nat) (tag : Zod.Member Schema) (path : Path)
    (fs : List (Field (Option String) Shape)) : Except Error Schema :=
  match fs with
  | [] => .ok (.object [tag])
  | f :: fs =>
    if f.skip then x.taggedSchema left tag path fs
    else do return .intersection (.object [tag]) (← x.schemaExpr left path f.ty)
termination_by (left, sizeOf fs, 0)
decreasing_by
  · exact Prod.Lex.right _ (Prod.Lex.left _ _ (by simp +arith))
  · have := Shape.sizeOf_ty_lt f
    exact Prod.Lex.right _ (Prod.Lex.left _ _ (by simp; omega))

end

/-- The schema of a shape. -/
def schema (x : Export) (path : Path) (s : Shape) : Except Error Schema :=
  x.schemaExpr expansionLimit path s

/-- The declaration of a record. A record with parameters is a function from schemas. -/
def schemaDeclaration (x : Export) (r : Record) : Except Error String := do
  let name := x.displayName r
  let comment := commentBlock x.config.commentStyle "" r.docs r.deprecation
  let body := (← x.schema [r.name] r.shape).text
  let recursive := x.types.reachesItself r
  if r.isGeneric then
    let parameters := ", ".intercalate (r.parameters.map (· ++ " extends z.ZodTypeAny"))
    let arguments := ", ".intercalate (r.parameters.map fun p => p ++ ": " ++ p)
    return comment ++ "export const " ++ name ++ " = <" ++ parameters ++ ">(" ++ arguments ++ ")"
      ++ (if recursive then ": z.ZodTypeAny" else "") ++ " => " ++ body ++ ";"
  else if recursive then
    let type := (← x.typeExpr [r.name] r.shape).text
    return comment ++ "export type " ++ name ++ " = " ++ type ++ ";\nexport const " ++ name
      ++ ": z.ZodType<" ++ name ++ "> = " ++ body ++ ";"
  else
    return comment ++ "export const " ++ name ++ " = " ++ body ++ ";\nexport type " ++ name
      ++ " = z.infer<typeof " ++ name ++ ">;"

end Export

end ShapeExport
