import ShapeExport.JsonSchema.Schema
import ShapeExport.Layout

/-!
# Shapes as JSON schemas

A reference to a record without parameters becomes a `$ref`. JSON Schema has no type parameters, so
a reference to a record with parameters is replaced by the record's body with the arguments in place.

* `Linking` : how a `$ref` names its target;
* `Context.propertyNames?` : the constraint on the keys of a map;
* `Context.schema` : the schema of a shape. `stack` holds the records that are being expanded. A
  record is never expanded within itself, so rendering ends;
* `Context.definition` : the schema of a record.
-/

namespace ShapeExport.JsonSchema
open Schema

/-- How a reference names its target: as a definition of the same document, or as another file, from
the file of a record. -/
inductive Linking
  | document
  | file (source : Record)

structure Context extends Export where
  linking : Linking := .document

/-- The bounds of a width. -/
def rangeBounds (width : IntWidth) : List (Keyword Schema) :=
  [.minimum width.low, .maximum width.high]

/-- The bounds that an integer type is given. Wide types have a format instead, or none. -/
def integerBounds : Primitive → List (Keyword Schema)
  | .i8 => rangeBounds .i8
  | .i16 => rangeBounds .i16
  | .i32 => [.format "int32"]
  | .i64 => [.format "int64"]
  | .u8 => rangeBounds .u8
  | .u16 => rangeBounds .u16
  | .u32 => [.minimum 0, .format "uint32"]
  | .u64 => [.minimum 0, .format "uint64"]
  | .u128 | .usize => [.minimum 0]
  | _ => []

def floatFormat : Primitive → String
  | .f16 => "float16"
  | .f32 => "float"
  | _ => "double"

def integerKeyPattern : String := "^-?[0-9]+$"

def numberKeyPattern : String := "^-?[0-9]+(\\.[0-9]+)?([eE][-+]?[0-9]+)?$"

def literalSchema : Literal → Schema
  | .none => null
  | l => .ofKeywords [.const l.json]

namespace Context

def version (c : Context) : SchemaVersion := c.config.schemaVersion

def primitiveSchema (c : Context) (path : Path) (kind : Primitive) : Except Error Schema :=
  if kind.isBigInt then do
    match ← c.config.bigIntAt path with
    | .string => return ofType .string []
    | _ => return ofType .integer (integerBounds kind)
  else if kind.isInteger then .ok (ofType .integer (integerBounds kind))
  else if kind.isFloat then .ok (ofType .number [.format (floatFormat kind)])
  else match kind with
    | .char => .ok (ofType .string [.minLength 1, .maxLength 1])
    | .string => .ok (ofType .string [])
    | _ => .ok (ofType .boolean [])

/-- The address of a record. -/
def uri (c : Context) (r : Record) : Except Error String :=
  match c.linking with
  | .document => .ok ("#/" ++ c.version.definitionsKey ++ "/" ++ c.displayName r)
  | .file source => (c.specifier source r).map (· ++ c.config.language.fileSuffix)

/-! ## Map keys -/

def unusableKey {α : Type} (path : Path) : Except Error α := .error (.unsupportedShape path .unusableMapKey)

/-- The constraint on the keys of a map; any string is a key where there is none. -/
def propertyNames? (c : Context) (path : Path) (seen : List TypeKey) (s : Shape) :
    Except Error (Option Schema) :=
  match s with
  | .nullable inner => c.propertyNames? path seen inner
  | .foreign value => .error (.invalidForeign path value.kind .jsonschema)
  | .primitive kind =>
    if kind.isStringLike then .ok none
    else if kind.isInteger then .ok (some (.ofKeywords [.pattern integerKeyPattern]))
    else if kind.isFloat then .ok (some (.ofKeywords [.pattern numberKeyPattern]))
    else unusableKey path
  | .literal value =>
    if value.isStringLike || value.isNumber then .ok (some (const value.plainText))
    else unusableKey path
  | .enum name variants tagging =>
    if Variant.allUnits variants then do
      let r ← c.scope.represent path name variants tagging
      return some (.ofKeywords [.enum ((Variant.kept variants).map r.variantKey)])
    else unusableKey path
  | .reference id arguments =>
    if _ : id.key ∈ seen then unusableKey path
    else match _ : c.types.resolve id.key with
      | none => .error (.invalidReference path id)
      | some record => c.propertyNames? path (id.key :: seen) (record.expand arguments)
  | .list .. | .map .. | .tuple _ | .struct .. | .placeholder _ => unusableKey path
termination_by (c.types.unseen seen, sizeOf s)
decreasing_by
  · exact Prod.Lex.right _ (by simp)
  · exact Prod.Lex.left _ _ (Collection.unseen_cons_lt ‹_› ‹_›)

/-! ## Shapes -/

/-- An object whose required keys are those of the members that may not be absent. -/
def objectOf (tag : OrderedMap Schema) (members : List (String × Schema × Bool)) :
    OrderedMap Schema × List String :=
  (members.foldl (fun m p => OrderedMap.insert m p.1 p.2.1) tag,
    tag.keys ++ (members.filter (!·.2.2)).map (·.1))

/-- Puts the property of a tag in front. A property with the same text as its key takes its place. -/
def withTag (tag : Json) (entry : String × Schema) (properties : OrderedMap Schema) :
    OrderedMap Schema :=
  if tag.string?.isSome then OrderedMap.insertAll [entry] properties else entry :: properties

/-- The schema of an object with the given properties; one without any allows none. -/
def objectSchema : OrderedMap Schema × List String → Schema
  | ([], _) => ofType .object [.closed]
  | (properties, []) => ofType .object [.properties properties]
  | (properties, required) => object properties (required.map .string)

mutual

def schemaIn (c : Context) (stack : List TypeKey) (path : Path) (s : Shape) : Except Error Schema :=
  match s with
  | .primitive kind => c.primitiveSchema path kind
  | .literal value => .ok (literalSchema value)
  | .list element length unique => do
    let item ← c.schemaIn stack path element
    let list := match length with
      | some n => fixedItems c.version (List.replicate n.toNat item)
      | none => ofType .array [.items item]
    return if unique then .ofKeywords (list.keywords ++ [.uniqueItems]) else list
  | .map key value => do
    let names ← c.propertyNames? path [] key
    let v ← c.schemaIn stack path value
    return ofType .object ((names.map Keyword.propertyNames).toList ++ [.values v])
  | .nullable inner => do return .ofKeywords [.anyOf [← c.schemaIn stack path inner, null]]
  | .tuple [] => .ok null
  | .tuple elements => do return fixedItems c.version (← c.elementSchemas stack path 0 elements)
  | .struct name body => c.bodySchema stack path name body
  | .enum name variants tagging =>
    let path := path.enter name
    if (Variant.kept variants).isEmpty then .ok (.ofKeywords [.not (.ofKeywords [])])
    else do
      let r ← c.scope.represent path name variants tagging
      return anyOf (← c.variantSchemas stack r path variants)
  | .reference id arguments =>
    match _ : c.types.resolve id.key with
    | none => .error (.invalidReference path id)
    | some record =>
      if record.parameters.isEmpty then do
        return .ofKeywords [.reference record.id.key (← c.uri record)]
      else if _ : id.key ∈ stack then
        .error (.unsupportedShape path (.endlessExpansion record.name))
      else if arguments.length ≠ record.parameters.length then
        .error (.unsupportedShape path (.argumentCount record.name record.parameters.length))
      else do
        let body ← c.schemaIn (id.key :: stack) (path ++ [record.name]) (record.expand arguments)
        return body.annotate (docLines record.docs) record.deprecation.isSome
  | .foreign value => .error (.invalidForeign path value.kind .jsonschema)
  | .placeholder name => .error (.unsupportedShape path (.unboundParameter name))
termination_by (c.types.unseen stack, sizeOf s, 0)
decreasing_by
  · exact Prod.Lex.right _ (Prod.Lex.left _ _ (by simp +arith))
  · exact Prod.Lex.right _ (Prod.Lex.left _ _ (by simp +arith))
  · exact Prod.Lex.right _ (Prod.Lex.left _ _ (by simp +arith))
  · exact Prod.Lex.right _ (Prod.Lex.left _ _ (by simp +arith))
  · exact Prod.Lex.right _ (Prod.Lex.left _ _ (by simp +arith))
  · exact Prod.Lex.right _ (Prod.Lex.left _ _ (by simp +arith))
  · exact Prod.Lex.left _ _ (Collection.unseen_cons_lt ‹_› ‹_›)

/-- The elements of a tuple; each is at its position. -/
def elementSchemas (c : Context) (stack : List TypeKey) (path : Path) (i : Nat) (ss : List Shape) :
    Except Error (List Schema) :=
  match ss with
  | [] => .ok []
  | s :: ss => do
    return (← c.schemaIn stack (path ++ [toString i]) s) ::
      (← c.elementSchemas stack path (i + 1) ss)
termination_by (c.types.unseen stack, sizeOf ss, 0)
decreasing_by
  all_goals exact Prod.Lex.right _ (Prod.Lex.left _ _ (by simp +arith))

/-- A single positional field stands for its own schema, unless others were skipped. -/
def bodySchema (c : Context) (stack : List TypeKey) (path : Path) (name : String) (b : Body Shape) :
    Except Error Schema :=
  match b with
  | .unit => .ok null
  | .positional fields =>
    match fields with
    | [f] => if f.skip then .ok (fixedItems c.version []) else c.schemaIn stack path f.ty
    | fields => do return fixedItems c.version (← c.positionalSchemas stack path 0 fields)
  | .named tag fields => do
    let members ← c.memberSchemas stack path fields
    return objectSchema (objectOf (tag.map fun t => (t, const name)).toList members)
termination_by (c.types.unseen stack, sizeOf b, 0)
decreasing_by
  · have := Shape.sizeOf_ty_lt f
    exact Prod.Lex.right _ (Prod.Lex.left _ _ (by simp; omega))
  · exact Prod.Lex.right _ (Prod.Lex.left _ _ (by simp +arith))
  · exact Prod.Lex.right _ (Prod.Lex.left _ _ (by simp +arith))

/-- The positional fields that are not skipped; each is at its position among them. -/
def positionalSchemas (c : Context) (stack : List TypeKey) (path : Path) (i : Nat)
    (fs : List (Field (Option String) Shape)) : Except Error (List Schema) :=
  match fs with
  | [] => .ok []
  | f :: fs =>
    if f.skip then c.positionalSchemas stack path i fs
    else do
      return (← c.schemaIn stack (path ++ [toString i]) f.ty) ::
        (← c.positionalSchemas stack path (i + 1) fs)
termination_by (c.types.unseen stack, sizeOf fs, 0)
decreasing_by
  · exact Prod.Lex.right _ (Prod.Lex.left _ _ (by simp +arith))
  · have := Shape.sizeOf_ty_lt f
    exact Prod.Lex.right _ (Prod.Lex.left _ _ (by simp; omega))
  · exact Prod.Lex.right _ (Prod.Lex.left _ _ (by simp +arith))

/-- The named fields that are not skipped: the key, the schema, and whether it may be absent. -/
def memberSchemas (c : Context) (stack : List TypeKey) (path : Path)
    (fs : List (Field String Shape)) : Except Error (List (String × Schema × Bool)) :=
  match fs with
  | [] => .ok []
  | f :: fs =>
    if f.skip then c.memberSchemas stack path fs
    else do
      let schema ← c.schemaIn stack (path ++ [f.key]) f.ty
      let schema := schema.annotate (docLines f.docs) f.deprecation.isSome
      return (f.key, schema, c.config.isOptional f) :: (← c.memberSchemas stack path fs)
termination_by (c.types.unseen stack, sizeOf fs, 0)
decreasing_by
  · exact Prod.Lex.right _ (Prod.Lex.left _ _ (by simp +arith))
  · have := Shape.sizeOf_ty_lt f
    exact Prod.Lex.right _ (Prod.Lex.left _ _ (by simp; omega))
  · exact Prod.Lex.right _ (Prod.Lex.left _ _ (by simp +arith))

def variantSchemas (c : Context) (stack : List TypeKey) (r : Representation) (path : Path)
    (vs : List (Variant Shape)) : Except Error (List Schema) :=
  match vs with
  | [] => .ok []
  | v :: vs =>
    if v.skip then c.variantSchemas stack r path vs
    else do
      let schema ← c.variantSchema stack r (path ++ [v.name]) (r.variantKey v) v.body
      let schema := schema.annotate (docLines v.docs) v.deprecation.isSome
      return schema :: (← c.variantSchemas stack r path vs)
termination_by (c.types.unseen stack, sizeOf vs, 0)
decreasing_by
  · exact Prod.Lex.right _ (Prod.Lex.left _ _ (by simp +arith))
  · have := Shape.sizeOf_body_lt v
    exact Prod.Lex.right _ (Prod.Lex.left _ _ (by simp; omega))
  · exact Prod.Lex.right _ (Prod.Lex.left _ _ (by simp +arith))

/-- The schema of a variant with the given key and body. -/
def variantSchema (c : Context) (stack : List TypeKey) (r : Representation) (path : Path)
    (key : String) (b : Body Shape) : Except Error Schema :=
  match r with
  | .strings _ => .ok (const key)
  | .untagged => c.bodySchema stack path key b
  | .external =>
    if b.isUnit then .ok (const key)
    else do return closedObject [(key, ← c.bodySchema stack path key b)] [.string key]
  | .internal tag => do
    let entry := (← labelKey tag, const key)
    match b with
    | .named inner fields =>
      let members ← c.memberSchemas stack path fields
      let (properties, required) := objectOf (inner.map fun t => (t, const key)).toList members
      return object (withTag tag entry properties) (tag :: required.map .string)
    | .positional fields => c.taggedSchema stack (object [entry] [tag]) path fields
    | .unit => return object [entry] [tag]
  | .adjacent tag content => do
    let entry := (← labelKey tag, const key)
    if b.isUnit then return closedObject [entry] [tag]
    else
      let schema ← c.bodySchema stack path key b
      return closedObject [entry, (← labelKey content, schema)] [tag, content]
termination_by (c.types.unseen stack, sizeOf b, 1)
decreasing_by
  · exact Prod.Lex.right _ (Prod.Lex.right _ (by simp))
  · exact Prod.Lex.right _ (Prod.Lex.right _ (by simp))
  · exact Prod.Lex.right _ (Prod.Lex.left _ _ (by simp +arith))
  · exact Prod.Lex.right _ (Prod.Lex.left _ _ (by simp +arith))
  · exact Prod.Lex.right _ (Prod.Lex.right _ (by simp))

/-- The tag joined with the first field that is not skipped, if there is one. -/
def taggedSchema (c : Context) (stack : List TypeKey) (tag : Schema) (path : Path)
    (fs : List (Field (Option String) Shape)) : Except Error Schema :=
  match fs with
  | [] => .ok tag
  | f :: fs =>
    if f.skip then c.taggedSchema stack tag path fs
    else do return .ofKeywords [.allOf [tag, ← c.schemaIn stack path f.ty]]
termination_by (c.types.unseen stack, sizeOf fs, 0)
decreasing_by
  · exact Prod.Lex.right _ (Prod.Lex.left _ _ (by simp +arith))
  · have := Shape.sizeOf_ty_lt f
    exact Prod.Lex.right _ (Prod.Lex.left _ _ (by simp; omega))

end

/-- The schema of a shape. -/
def schema (c : Context) (path : Path) (s : Shape) : Except Error Schema := c.schemaIn [] path s

/-- The schema of a record. -/
def definition (c : Context) (r : Record) : Except Error Schema := do
  let schema ← c.schema [r.name] r.shape
  return schema.annotate (docLines r.docs) r.deprecation.isSome

end Context

end ShapeExport.JsonSchema
