import ShapeExport.Proofs.JsonSchema.Rendering
import ShapeExport.Proofs.Validation.Recursion

/-!
# The renderer of schemas as a recursion

The constraint on keys and the renderer, one turn at a time: the text of each with the calls in it left open. The renderer
also asks for the constraint on keys and for representations; these are recursions of their own.

* `Walk.names`, `Walk.schemas` : the walks of the two;
* `Context.nameTurn`, `Context.schemaTurn` : a turn of each, at one spot. `Context.bodyTurn` and `Context.variantTurn` are
  what a turn does with bodies and variants;
* `Context.runs_propertyNames?`, `Context.runs_schemaIn` : both run along their walks.
-/

namespace ShapeExport

namespace Walk

/-- The walk of the constraint on keys: it looks into what may be null. -/
def names : Walk where
  parts
    | .nullable inner => [inner]
    | _ => []
  enters _ _ := True
  mem_children := by
    intro s t ht
    cases s with
    | nullable inner => exact ht
    | _ => cases ht

/-- The walk of the renderer: it looks into all parts, and enters records that have parameters. -/
def schemas : Walk where
  parts := Shape.parts
  enters r arguments := r.parameters ≠ [] ∧ arguments.length = r.parameters.length
  mem_children ht := Shape.mem_children_of_mem_kept (Shape.mem_kept_of_mem_parts ht)

end Walk

namespace JsonSchema.Context
open Schema

variable (c : Context)

/-! ## Map keys -/

/-- One turn of the constraint on keys. -/
def nameTurn (answer : Walk.Spot → Path → Except Error (Option Schema)) (x : Walk.Spot) (path : Path) :
    Except Error (Option Schema) :=
  match x.shape with
  | .nullable inner => answer ⟨x.entered, inner⟩ path
  | .foreign value => .error (.invalidForeign path value.kind .jsonschema)
  | .primitive kind =>
    if kind.isStringLike then .ok none
    else if kind.isInteger then .ok (some (.ofKeywords [.pattern integerKeyPattern]))
    else if kind.isFloat then .ok (some (.ofKeywords [.pattern numberKeyPattern]))
    else unusableKey path
  | .literal value =>
    if value.isStringLike || value.isNumber then .ok (some (const value.plainText))
    else unusableKey path
  | .enum name vs tagging =>
    if Variant.allUnits vs then do
      let r ← c.scope.represent path name vs tagging
      return some (.ofKeywords [.enum ((Variant.kept vs).map r.variantKey)])
    else unusableKey path
  | .reference id arguments =>
    if id.key ∈ x.entered then unusableKey path
    else match c.types.resolve id.key with
      | none => .error (.invalidReference path id)
      | some r => answer ⟨id.key :: x.entered, r.expand arguments⟩ path
  | .list .. | .map .. | .tuple _ | .struct .. | .placeholder _ => unusableKey path

theorem runs_propertyNames? :
    Walk.names.Runs c.types c.nameTurn fun x path => c.propertyNames? path x.entered x.shape where
  equation := by
    rintro ⟨seen, s⟩
    funext path
    show c.propertyNames? path seen s = c.nameTurn _ ⟨seen, s⟩ path
    unfold nameTurn
    cases s with
    | reference id arguments =>
      rw [propertyNames?]
      dsimp only
      by_cases hn : id.key ∈ seen
      · rw [dif_pos hn, if_pos hn]
      · rw [dif_neg hn, if_neg hn]
        split
        · next hr => rw [hr]
        · next r hr => rw [hr]
    | _ => rw [propertyNames?]
  calls := by
    rintro ⟨seen, s⟩ g h same
    funext path
    unfold nameTurn
    cases s with
    | nullable inner => exact congrFun (same _ (.part (List.mem_singleton_self inner))) path
    | reference id arguments =>
      dsimp only
      split
      · rfl
      · next hn =>
        split
        · rfl
        · next r hr => exact congrFun (same _ (.enter hr trivial hn)) path
    | _ => rfl

/-! ## Bodies and variants -/

section Turns

variable (render : Path → Shape → Except Error Schema)

/-- Each element is at its position. -/
def elementsTurn (path : Path) (ss : List Shape) : Except Error (List Schema) :=
  ss.zipIdx.mapM fun s => render (path ++ [toString s.2]) s.1

/-- The members of the fields that are kept. -/
def membersTurn (path : Path) (fields : List (Field String Shape)) : Except Error (List (String × Schema × Bool)) :=
  (Field.kept fields).mapM (c.memberTurn render path)

/-- What a turn does with a body. -/
def bodyTurn (path : Path) (name : String) (b : Body Shape) : Except Error Schema :=
  match b with
  | .unit => .ok null
  | .positional fields =>
    match fields with
    | [f] => if f.skip then .ok (fixedItems c.version []) else render path f.ty
    | fields => do return fixedItems c.version (← elementsTurn render path ((Field.kept fields).map (·.ty)))
  | .named tag fields => do
    let members ← c.membersTurn render path fields
    return objectSchema (objectOf (tag.map fun t => (t, const name)).toList members)

/-- The tag joined with the first payload, if there is one. -/
def taggedTurn (tag : Schema) (path : Path) (payloads : List Shape) : Except Error Schema :=
  match payloads with
  | [] => .ok tag
  | s :: _ => (render path s).map fun schema => .ofKeywords [.allOf [tag, schema]]

/-- What a turn does with a variant. -/
def variantTurn (r : Representation) (path : Path) (key : String) (b : Body Shape) : Except Error Schema :=
  match r with
  | .strings _ => .ok (const key)
  | .untagged => c.bodyTurn render path key b
  | .external =>
    if b.isUnit then .ok (const key)
    else do return closedObject [(key, ← c.bodyTurn render path key b)] [.string key]
  | .internal tag => do
    let entry := (← labelKey tag, const key)
    match b with
    | .named inner fields =>
      let members ← c.membersTurn render path fields
      let (properties, required) := objectOf (inner.map fun t => (t, const key)).toList members
      return object (withTag tag entry properties) (tag :: required.map .string)
    | .positional fields => taggedTurn render (object [entry] [tag]) path ((Field.kept fields).map (·.ty))
    | .unit => return object [entry] [tag]
  | .adjacent tag content => do
    let entry := (← labelKey tag, const key)
    if b.isUnit then return closedObject [entry] [tag]
    else
      let schema ← c.bodyTurn render path key b
      return closedObject [entry, (← labelKey content, schema)] [tag, content]

/-- The schemas of the variants that are kept, with their notes. -/
def variantsTurn (r : Representation) (path : Path) (vs : List (Variant Shape)) : Except Error (List Schema) :=
  (Variant.kept vs).mapM fun v => do
    let schema ← c.variantTurn render r (path ++ [v.name]) (r.variantKey v) v.body
    return schema.annotate (docLines v.docs) v.deprecation.isSome

end Turns

section Equations

variable (stack : List TypeKey) (path : Path)

theorem bodySchema_eq_turn (name : String) (b : Body Shape) :
    c.bodySchema stack path name b = c.bodyTurn (c.schemaIn stack) path name b := by
  unfold bodySchema bodyTurn
  cases b with
  | unit => rfl
  | positional fields =>
    -- A single field is rendered as its type.
    rcases fields with _ | ⟨f, _ | ⟨f', fs⟩⟩
    · dsimp only
      rw [positionalSchemas_eq, elementSchemas_eq_mapM]
      rfl
    · rfl
    · dsimp only
      rw [positionalSchemas_eq, elementSchemas_eq_mapM]
      rfl
  | named tag fields => dsimp only; rw [memberSchemas_eq_mapM, membersTurn]

theorem variantSchema_eq_turn (r : Representation) (key : String) (b : Body Shape) :
    c.variantSchema stack r path key b = c.variantTurn (c.schemaIn stack) r path key b := by
  have body := c.bodySchema_eq_turn stack path key b
  unfold variantTurn
  cases r with
  | strings => rw [variantSchema]
  | untagged | external | adjacent => rw [variantSchema, body]
  | internal tag =>
    rw [variantSchema]
    cases b with
    | unit => rfl
    | positional fields => simp only [taggedSchema_eq]; rfl
    | named inner fields => simp only [memberSchemas_eq_mapM]; rfl

theorem variantSchemas_eq_turn (r : Representation) (vs : List (Variant Shape)) :
    c.variantSchemas stack r path vs = c.variantsTurn (c.schemaIn stack) r path vs := by
  rw [variantSchemas_eq_mapM, variantsTurn]
  simp only [variantSchema_eq_turn]

end Equations

/-! ## What a turn asks for -/

section Calls

variable {c} {render render' : Path → Shape → Except Error Schema}

theorem elementsTurn_congr {ss : List Shape} (same : ∀ t ∈ ss, ∀ path, render path t = render' path t) (path : Path) :
    elementsTurn render path ss = elementsTurn render' path ss :=
  mapM_congr fun p hp => same p.1 (List.fst_mem_of_mem_zipIdx hp) _

theorem membersTurn_congr {fields : List (Field String Shape)}
    (same : ∀ t ∈ (Field.kept fields).map (·.ty), ∀ path, render path t = render' path t) (path : Path) :
    c.membersTurn render path fields = c.membersTurn render' path fields := by
  apply mapM_congr
  intro f hf
  rw [memberTurn, memberTurn, same f.ty (List.mem_map_of_mem hf)]

theorem bodyTurn_congr {b : Body Shape} (same : ∀ t ∈ b.kept, ∀ path, render path t = render' path t) (path : Path)
    (name : String) : c.bodyTurn render path name b = c.bodyTurn render' path name b := by
  unfold bodyTurn
  cases b with
  | unit => rfl
  | positional fields =>
    rw [Body.kept] at same
    dsimp only
    split
    · next f =>
      split
      · rfl
      · next hf =>
        rw [Field.kept_cons_of_not_skip hf] at same
        exact same f.ty List.mem_cons_self path
    · rw [elementsTurn_congr same]
  | named tag fields =>
    rw [Body.kept] at same
    dsimp only
    rw [membersTurn_congr same]

theorem taggedTurn_congr {payloads : List Shape} (same : ∀ t ∈ payloads, ∀ path, render path t = render' path t)
    (tag : Schema) (path : Path) : taggedTurn render tag path payloads = taggedTurn render' tag path payloads := by
  cases payloads with
  | nil => rfl
  | cons t ts => rw [taggedTurn, taggedTurn, same t List.mem_cons_self]

theorem variantTurn_congr {b : Body Shape} (same : ∀ t ∈ b.kept, ∀ path, render path t = render' path t)
    (r : Representation) (path : Path) (key : String) :
    c.variantTurn render r path key b = c.variantTurn render' r path key b := by
  have body := bodyTurn_congr (c := c) same path key
  unfold variantTurn
  cases r with
  | strings => rfl
  | untagged | external | adjacent => dsimp only; rw [body]
  | internal tag =>
    cases b with
    | unit => rfl
    | positional fields =>
      rw [Body.kept] at same
      simp only [taggedTurn_congr same]
    | named inner fields =>
      rw [Body.kept] at same
      simp only [membersTurn_congr same]

theorem variantsTurn_congr {vs : List (Variant Shape)}
    (same : ∀ v ∈ Variant.kept vs, ∀ t ∈ v.body.kept, ∀ path, render path t = render' path t) (r : Representation)
    (path : Path) : c.variantsTurn render r path vs = c.variantsTurn render' r path vs := by
  apply mapM_congr
  intro v hv
  rw [variantTurn_congr (same v hv)]

end Calls

/-! ## Shapes -/

/-- One turn of the renderer. -/
def schemaTurn (answer : Walk.Spot → Path → Except Error Schema) (x : Walk.Spot) (path : Path) : Except Error Schema :=
  let render (path : Path) (t : Shape) := answer ⟨x.entered, t⟩ path
  match x.shape with
  | .primitive kind => c.primitiveSchema path kind
  | .literal value => .ok (literalSchema value)
  | .list element length unique => do
    let item ← render path element
    let list := match length with
      | some n => fixedItems c.version (List.replicate n.toNat item)
      | none => ofType .array [.items item]
    return if unique then .ofKeywords (list.keywords ++ [.uniqueItems]) else list
  | .map key value => do
    let names ← c.propertyNames? path [] key
    let v ← render path value
    return ofType .object ((names.map Keyword.propertyNames).toList ++ [.values v])
  | .nullable inner => do return .ofKeywords [.anyOf [← render path inner, null]]
  | .tuple [] => .ok null
  | .tuple elements => do return fixedItems c.version (← elementsTurn render path elements)
  | .struct name body => c.bodyTurn render path name body
  | .enum name vs tagging =>
    let path := path.enter name
    if (Variant.kept vs).isEmpty then .ok (.ofKeywords [.not (.ofKeywords [])])
    else do
      let r ← c.scope.represent path name vs tagging
      return anyOf (← c.variantsTurn render r path vs)
  | .reference id arguments =>
    match c.types.resolve id.key with
    | none => .error (.invalidReference path id)
    | some r =>
      if r.parameters.isEmpty then do return .ofKeywords [.reference r.id.key (← c.uri r)]
      else if id.key ∈ x.entered then .error (.unsupportedShape path (.endlessExpansion r.name))
      else if arguments.length ≠ r.parameters.length then
        .error (.unsupportedShape path (.argumentCount r.name r.parameters.length))
      else do
        let body ← answer ⟨id.key :: x.entered, r.expand arguments⟩ (path ++ [r.name])
        return body.annotate (docLines r.docs) r.deprecation.isSome
  | .foreign value => .error (.invalidForeign path value.kind .jsonschema)
  | .placeholder name => .error (.unsupportedShape path (.unboundParameter name))

theorem schemaIn_eq_turn (stack : List TypeKey) (path : Path) (s : Shape) :
    c.schemaIn stack path s = c.schemaTurn (fun x path => c.schemaIn x.entered path x.shape) ⟨stack, s⟩ path := by
  unfold schemaTurn
  cases s with
  | tuple elements =>
    cases elements with
    | nil => rw [schemaIn]
    | cons t ts =>
      rw [schemaIn, elementSchemas_eq_mapM]
      · rfl
      · intro h
        cases h
  | struct name body => rw [schemaIn, bodySchema_eq_turn]
  | enum name vs tagging => rw [schemaIn]; simp only [variantSchemas_eq_turn]
  | reference id arguments =>
    rw [schemaIn]
    dsimp only
    split
    · next hr => rw [hr]
    · next r hr =>
      rw [hr]
      dsimp only
      congr 1
  | list element length unique => cases length <;> rw [schemaIn]
  | _ => rw [schemaIn]

variable {c} in
theorem schemaTurn_congr {x : Walk.Spot} {answer answer' : Walk.Spot → Path → Except Error Schema}
    (same : ∀ y, Walk.schemas.Step c.types x y → answer y = answer' y) : c.schemaTurn answer x = c.schemaTurn answer' x := by
  obtain ⟨stack, s⟩ := x
  have parts : ∀ t ∈ s.parts, ∀ path, answer ⟨stack, t⟩ path = answer' ⟨stack, t⟩ path :=
    fun t ht => congrFun (same _ (.part ht))
  funext path
  unfold schemaTurn
  cases s with
  | list element => dsimp only; rw [parts element List.mem_cons_self]
  | nullable inner => dsimp only; rw [parts inner List.mem_cons_self]
  | map key value => dsimp only; rw [parts value List.mem_cons_self]
  | tuple elements =>
    cases elements with
    | nil => rfl
    | cons t ts =>
      rw [show (Shape.tuple (t :: ts)).parts = t :: ts from rfl] at parts
      dsimp only
      rw [elementsTurn_congr parts]
  | struct name body => exact bodyTurn_congr parts path name
  | enum name vs tagging =>
    have bodies : ∀ v ∈ Variant.kept vs, ∀ t ∈ v.body.kept, ∀ path, answer ⟨stack, t⟩ path = answer' ⟨stack, t⟩ path :=
      fun v hv t ht => parts t (List.mem_flatMap.2 ⟨v, hv, ht⟩)
    simp only [variantsTurn_congr bodies]
  | reference id arguments =>
    dsimp only
    split
    · rfl
    · next r hr =>
      split
      · rfl
      · next hp =>
        split
        · rfl
        · next hn =>
          split
          · rfl
          · next hl =>
            -- Only a reference to a generic record is a step of the walk; others are links.
            have generic : r.parameters ≠ [] := fun e => hp (List.isEmpty_iff.2 e)
            rw [same _ (.enter hr ⟨generic, not_not.1 hl⟩ hn)]
  | _ => rfl

theorem runs_schemaIn : Walk.schemas.Runs c.types c.schemaTurn fun x path => c.schemaIn x.entered path x.shape where
  equation x := funext fun path => c.schemaIn_eq_turn x.entered path x.shape
  calls := schemaTurn_congr

end JsonSchema.Context

end ShapeExport
