import ShapeExport.Proofs.JsonSchema.Links
import ShapeExport.Proofs.JsonSchema.Lists
import ShapeExport.Proofs.JsonSchema.Objects
import ShapeExport.Proofs.Scope.Failures
import ShapeExport.Proofs.Shape.WideIntegers

/-!
# What the rendering of a shape is made of

* `Shape.parts` : the shapes whose schemas go into the schema of a shape;
* `Collection.renderInduction` : induction over the walk of the renderer;
* `Context.Renders` : the outcome of a rendering. A failure is one of a set, and a result satisfies a
  condition and tells that some shapes render;
* `Context.renders_schemaIn` : apart from references, a shape fails as one of its parts does or with an
  error that a collection covers, and has the references of its parts;
* `Context.failsIn_schemaIn`, `Context.failsIn_definition` : so a shape that finds its records fails with an
  error that the collection admits, for a type parameter, or as an endless expansion.
-/

namespace ShapeExport

/-- The shapes whose schemas go into the schema of a shape. Keys of maps are not rendered, and the
arguments of a reference only where the record holds its parameters. -/
def Shape.parts : Shape → List Shape
  | .map _ value => [value]
  | .reference .. => []
  | s => s.kept

theorem Shape.mem_kept_of_mem_parts {s t : Shape} (h : t ∈ s.parts) : t ∈ s.kept := by
  cases s with
  | map key value => exact List.mem_cons_of_mem _ h
  | reference => cases h
  | _ => exact h

/-- Induction over the walk of the renderer, from a reference to the body of its record and from any
other shape to its parts. -/
theorem Collection.renderInduction {c : Collection} {motive : List TypeKey → Shape → Prop}
    (reference : ∀ stack id arguments,
      (∀ r, id.key ∉ stack → c.resolve id.key = some r → motive (id.key :: stack) (r.expand arguments)) →
      motive stack (.reference id arguments))
    (parts : ∀ stack s, (∀ id arguments, s ≠ .reference id arguments) →
      (∀ t ∈ s.parts, motive stack t) → motive stack s)
    (stack : List TypeKey) (s : Shape) : motive stack s := by
  induction stack, s using followInduction (c := c) with
  | step stack s ih it =>
    by_cases hs : ∃ id arguments, s = .reference id arguments
    · obtain ⟨id, arguments, rfl⟩ := hs
      exact reference stack id arguments fun r hn hr => it id arguments r rfl hn hr
    · apply parts stack s
      · intro id arguments e
        exact hs ⟨id, arguments, e⟩
      · intro t ht
        exact ih t (Shape.mem_children_of_mem_kept (Shape.mem_kept_of_mem_parts ht))

/-! ## Outcomes -/

namespace JsonSchema.Context
open Schema

variable {c : Context} {stack : List TypeKey} {E : Error → Prop} {L : Link → Prop} {α β : Type}

/-- A failure is in `E`. A result satisfies `post`, and then all `parts` render. -/
def Renders (c : Context) (stack : List TypeKey) (E : Error → Prop) (parts : List Shape)
    (post : α → Prop) : Except Error α → Prop
  | .ok a => post a ∧ ∀ t ∈ parts, ∃ path schema, c.schemaIn stack path t = .ok schema
  | .error e => E e

theorem renders_pure {post : α → Prop} {a : α} (h : post a) :
    c.Renders stack E [] post (pure a : Except Error α) :=
  ⟨h, fun _ ht => absurd ht List.not_mem_nil⟩

theorem Renders.bind {ps qs : List Shape} {P : α → Prop} {Q : β → Prop} {x : Except Error α}
    {f : α → Except Error β} (hx : c.Renders stack E ps P x)
    (hf : ∀ a, P a → c.Renders stack E qs Q (f a)) : c.Renders stack E (ps ++ qs) Q (x >>= f) := by
  cases x with
  | error e => exact hx
  | ok a =>
    have h := hf a hx.1
    show c.Renders stack E (ps ++ qs) Q (f a)
    cases hb : f a with
    | error e =>
      rw [hb] at h
      exact h
    | ok b =>
      rw [hb] at h
      exact ⟨h.1, List.forall_mem_append.2 ⟨hx.2, h.2⟩⟩

/-- A step after which nothing else can fail. -/
theorem Renders.map {ps : List Shape} {P : α → Prop} {Q : β → Prop} {x : Except Error α} {f : α → β}
    (hx : c.Renders stack E ps P x) (hf : ∀ a, P a → Q (f a)) :
    c.Renders stack E ps Q (x >>= fun a => pure (f a)) := by
  cases x with
  | error e => exact hx
  | ok a => exact ⟨hf a hx.1, hx.2⟩

/-- A step that no part depends on. -/
theorem Renders.after {ps : List Shape} {P : α → Prop} {Q : β → Prop} {x : Except Error α}
    {f : α → Except Error β} (hx : c.Renders stack E [] P x)
    (hf : ∀ a, P a → c.Renders stack E ps Q (f a)) : c.Renders stack E ps Q (x >>= f) :=
  hx.bind hf

theorem renders_of_failsIn {x : Except Error α} (h : FailsIn E x) :
    c.Renders stack E [] (fun _ => True) x := by
  cases x with
  | error e => exact h e rfl
  | ok a => exact ⟨trivial, fun _ ht => absurd ht List.not_mem_nil⟩

theorem Renders.failsIn {ps : List Shape} {P : α → Prop} {x : Except Error α} (h : c.Renders stack E ps P x) :
    FailsIn E x := by
  rintro e rfl
  exact h

/-- Wherever it stands, the shape renders to a schema with references in `L`, or fails with an error
in `E`. -/
def Yields (c : Context) (stack : List TypeKey) (E : Error → Prop) (L : Link → Prop) (t : Shape) : Prop :=
  ∀ path, c.Renders stack E [] (LinksIn L) (c.schemaIn stack path t)

theorem Yields.renders {t : Shape} (h : c.Yields stack E L t) (path : Path) :
    c.Renders stack E [t] (LinksIn L) (c.schemaIn stack path t) := by
  have ht := h path
  cases hx : c.schemaIn stack path t with
  | error e =>
    rw [hx] at ht
    exact ht
  | ok s =>
    rw [hx] at ht
    exact ⟨ht.1, List.forall_mem_singleton.2 ⟨path, s, hx⟩⟩

/-! ## Lists of fields and elements -/

theorem renders_mapM {as : List α} {f : α → Except Error β} {ps : α → List Shape} {P : β → Prop}
    (h : ∀ a ∈ as, c.Renders stack E (ps a) P (f a)) :
    c.Renders stack E (as.flatMap ps) (fun bs => ∀ b ∈ bs, P b) (as.mapM f) := by
  induction as with
  | nil => exact renders_pure (List.forall_mem_nil _)
  | cons a as ih =>
    rw [List.forall_mem_cons] at h
    rw [List.mapM_cons, List.flatMap_cons]
    exact h.1.bind fun b hb => (ih h.2).map fun bs hbs => List.forall_mem_cons.2 ⟨hb, hbs⟩

theorem renders_elementSchemas {ss : List Shape} (h : ∀ t ∈ ss, c.Yields stack E L t) (path : Path)
    (i : Nat) : c.Renders stack E ss (fun xs => ∀ x ∈ xs, x.LinksIn L) (c.elementSchemas stack path i ss) := by
  have each := fun p (hp : p ∈ ss.zipIdx i) =>
    (h p.1 (List.fst_mem_of_mem_zipIdx hp)).renders (path ++ [toString p.2])
  have all := renders_mapM each
  rwa [← List.map_eq_flatMap, List.zipIdx_map_fst, ← elementSchemas_eq_mapM] at all

theorem renders_positionalSchemas {fs : List (Field (Option String) Shape)}
    (h : ∀ f ∈ Field.kept fs, c.Yields stack E L f.ty) (path : Path) (i : Nat) :
    c.Renders stack E ((Field.kept fs).map (·.ty)) (fun xs => ∀ x ∈ xs, x.LinksIn L)
      (c.positionalSchemas stack path i fs) := by
  rw [positionalSchemas_eq]
  exact renders_elementSchemas (List.forall_mem_map.2 h) path i

theorem renders_memberSchemas {fs : List (Field String Shape)}
    (h : ∀ f ∈ Field.kept fs, c.Yields stack E L f.ty) (path : Path) :
    c.Renders stack E ((Field.kept fs).map (·.ty)) (fun ms => ∀ m ∈ ms, m.2.1.LinksIn L)
      (c.memberSchemas stack path fs) := by
  rw [memberSchemas_eq_mapM, List.map_eq_flatMap]
  exact renders_mapM fun f hf => ((h f hf).renders _).map fun x hx => hx.annotate

/-! ## Bodies and variants -/

theorem renders_bodySchema {b : Body Shape} (h : ∀ t ∈ b.kept, c.Yields stack E L t) (path : Path)
    (name : String) : c.Renders stack E b.kept (LinksIn L) (c.bodySchema stack path name b) := by
  cases b with
  | unit =>
    rw [bodySchema]
    exact renders_pure linksIn_null
  | positional fields =>
    rw [Body.kept, List.forall_mem_map] at h
    unfold bodySchema
    split
    · next f =>
      split
      · next hf =>
        rw [Body.kept, Field.kept_cons_of_skip hf]
        exact renders_pure (linksIn_fixedItems (List.forall_mem_nil _))
      · next hf =>
        rw [Field.kept_cons_of_not_skip hf, List.forall_mem_cons] at h
        rw [Body.kept, Field.kept_cons_of_not_skip hf]
        exact h.1.renders path
    · exact (renders_positionalSchemas h path 0).map fun xs hxs => linksIn_fixedItems hxs
  | named tag fields =>
    rw [Body.kept, List.forall_mem_map] at h
    rw [bodySchema]
    refine (renders_memberSchemas h path).map fun ms hms => linksIn_objectSchema ?_
    refine forall_mem_objectOf ?_ hms
    cases tag with
    | none => exact List.forall_mem_nil _
    | some text => exact List.forall_mem_singleton.2 (linksIn_const name)

theorem renders_taggedSchema {tag : Schema} {fs : List (Field (Option String) Shape)}
    (ht : tag.LinksIn L) (h : ∀ f ∈ Field.kept fs, c.Yields stack E L f.ty)
    (single : (Field.kept fs).length ≤ 1) (path : Path) :
    c.Renders stack E ((Field.kept fs).map (·.ty)) (LinksIn L) (c.taggedSchema stack tag path fs) := by
  rw [taggedSchema_eq]
  cases hk : Field.kept fs with
  | nil => exact renders_pure ht
  | cons f rest =>
    rw [hk] at h single
    rw [List.length_cons] at single
    rw [List.eq_nil_of_length_eq_zero (by omega : rest.length = 0)]
    refine ((h f List.mem_cons_self).renders path).map fun x hx => ?_
    have both : ∀ s ∈ [tag, x], s.LinksIn L := List.forall_mem_cons.2 ⟨ht, List.forall_mem_singleton.2 hx⟩
    exact linksIn_single (linksIn_allOf.2 both)

theorem renders_variantSchema {r : Representation} {b : Body Shape}
    (labels : ∀ label ∈ r.labels, ¬ label.isScalar → E (.unusableLabel label))
    (h : ∀ t ∈ b.kept, c.Yields stack E L t) (fits : r.Fits b) (path : Path) (key : String) :
    c.Renders stack E b.kept (LinksIn L) (c.variantSchema stack r path key b) := by
  cases r with
  | strings rule =>
    rw [variantSchema, show b.kept = [] from fits]
    exact renders_pure (linksIn_const key)
  | untagged =>
    rw [variantSchema]
    exact renders_bodySchema h path key
  | external =>
    rw [variantSchema]
    split
    · next hu =>
      rw [Body.kept_of_isUnit hu]
      exact renders_pure (linksIn_const key)
    · refine (renders_bodySchema h path key).map fun x hx => linksIn_closedObject ?_
      exact List.forall_mem_singleton.2 hx
  | internal tag =>
    rw [variantSchema]
    refine (renders_of_failsIn (failsIn_labelKey (labels tag List.mem_cons_self))).after fun text _ => ?_
    have entry : (const key).LinksIn L := linksIn_const key
    cases b with
    | unit => exact renders_pure (linksIn_object (List.forall_mem_singleton.2 entry))
    | positional fields =>
      rw [Body.kept, List.forall_mem_map] at h
      rw [Representation.Fits, Body.payloads, List.length_map] at fits
      exact renders_taggedSchema (linksIn_object (List.forall_mem_singleton.2 entry)) h fits path
    | named inner fields =>
      rw [Body.kept, List.forall_mem_map] at h
      refine (renders_memberSchemas h path).map fun ms hms => linksIn_object ?_
      refine forall_mem_withTag entry (forall_mem_objectOf ?_ hms)
      cases inner with
      | none => exact List.forall_mem_nil _
      | some text => exact List.forall_mem_singleton.2 entry
  | adjacent tag content =>
    rw [variantSchema]
    refine (renders_of_failsIn (failsIn_labelKey (labels tag List.mem_cons_self))).after fun text _ => ?_
    split
    · next hu =>
      rw [Body.kept_of_isUnit hu]
      exact renders_pure (linksIn_closedObject (List.forall_mem_singleton.2 (linksIn_const key)))
    · have second : content ∈ [tag, content] := List.mem_cons_of_mem tag (List.mem_singleton_self content)
      rw [← List.append_nil b.kept]
      refine (renders_bodySchema h path key).bind fun x hx => ?_
      refine (renders_of_failsIn (failsIn_labelKey (labels content second))).map fun name _ => linksIn_closedObject ?_
      exact List.forall_mem_cons.2 ⟨linksIn_const key, List.forall_mem_singleton.2 hx⟩

theorem renders_variantSchemas {r : Representation} {vs : List (Variant Shape)}
    (labels : ∀ label ∈ r.labels, ¬ label.isScalar → E (.unusableLabel label)) (h : ∀ v ∈ Variant.kept vs, ∀ t ∈ v.body.kept, c.Yields stack E L t)
    (fits : ∀ v ∈ Variant.kept vs, r.Fits v.body) (path : Path) :
    c.Renders stack E ((Variant.kept vs).flatMap (·.body.kept)) (fun xs => ∀ x ∈ xs, x.LinksIn L)
      (c.variantSchemas stack r path vs) := by
  rw [variantSchemas_eq_mapM]
  refine renders_mapM fun v hv => ?_
  exact (renders_variantSchema labels (h v hv) (fits v hv) _ _).map fun x hx => hx.annotate

/-! ## Shapes without parts -/

theorem failsIn_uri (names : c.linking ≠ .document → ∀ name, E (.invalidFileName name)) (r : Record) :
    FailsIn E (c.uri r) := by
  unfold uri
  split
  · exact failsIn_ok _
  · next source linking =>
    have linked : c.linking ≠ .document := by
      rw [linking]
      intro h
      cases h
    exact failsIn_map (failsIn_specifier (names linked) c.toExport source r) _

theorem renders_primitiveSchema {kind : Primitive} (wide : kind.isBigInt → WideIn E) (path : Path) :
    c.Renders stack E [] (LinksIn L) (c.primitiveSchema path kind) := by
  unfold primitiveSchema
  split
  · next hk =>
    refine (renders_of_failsIn (failsIn_bigIntAt (wide hk) c.config path)).after fun p _ => ?_
    split
    · exact renders_pure (linksIn_ofType_plain rfl)
    · exact renders_pure (linksIn_ofType_plain (by cases kind <;> rfl))
  · split
    · exact renders_pure (linksIn_ofType_plain (by cases kind <;> rfl))
    · split
      · exact renders_pure (linksIn_ofType_plain rfl)
      · split
        · exact renders_pure (linksIn_ofType_plain rfl)
        · exact renders_pure (linksIn_ofType_plain rfl)
        · exact renders_pure (linksIn_ofType_plain rfl)

theorem linksIn_literalSchema (value : Literal) : (literalSchema value).LinksIn L := by
  unfold literalSchema
  split
  · exact linksIn_null
  · exact linksIn_single (linksIn_of_isPlain rfl)

theorem renders_propertyNames (admits : c.types.Admits E) (path : Path) (seen : List TypeKey) {s : Shape}
    (found : c.types.Finds E s) : c.Renders stack E [] (fun names => ∀ x ∈ names, x.LinksIn L)
      (c.propertyNames? path seen s) := by
  have some : ∀ {x : Schema}, x.LinksIn L → ∀ y ∈ some x, y.LinksIn L := by
    rintro x hx y ⟨⟩
    exact hx
  have none : ∀ y ∈ (none : Option Schema), y.LinksIn L := by
    rintro y ⟨⟩
  have pattern : ∀ text, (ofKeywords [.pattern text]).LinksIn L := fun text =>
    linksIn_single (linksIn_of_isPlain rfl)
  refine Collection.Finds.followInduction (motive := fun seen s =>
    c.Renders stack E [] (fun names => ∀ x ∈ names, x.LinksIn L) (c.propertyNames? path seen s))
    admits.records (fun seen s found ih it => ?_) seen found
  cases s with
  | nullable inner =>
    rw [propertyNames?]
    exact ih inner List.mem_cons_self
  | foreign value =>
    rw [propertyNames?]
    exact admits.own _ trivial
  | list | map | tuple | struct | placeholder =>
    rw [propertyNames?]
    exact admits.own _ trivial
  | primitive kind =>
    rw [propertyNames?]
    split
    · exact renders_pure none
    · split
      · exact renders_pure (some (pattern _))
      · split
        · exact renders_pure (some (pattern _))
        · exact admits.own _ trivial
  | literal value =>
    rw [propertyNames?]
    split
    · exact renders_pure (some (linksIn_const _))
    · exact admits.own _ trivial
  | enum name vs tagging =>
    rw [propertyNames?]
    split
    · refine (renders_of_failsIn (admits.represent c.scope found path)).map fun r _ => ?_
      exact some (linksIn_single (linksIn_of_isPlain rfl))
    · exact admits.own _ trivial
  | reference id arguments =>
    rw [propertyNames?]
    split
    · exact admits.own _ trivial
    · next hs =>
      split
      · next hn => exact found id arguments (.here _) hn path
      · next r hr => exact it id arguments r rfl hs hr

/-! ## Shapes -/

/-- Apart from references, a shape renders only if its parts do; its references are those of the parts,
and its errors are those of the parts or such as the collection covers. -/
theorem renders_schemaIn (admits : c.types.Admits E) {s : Shape} (found : c.types.Finds E s)
    (labels : c.scope.overrides.LabelsIn E s) (wide : s.HasWide Shape.parts → WideIn E)
    (unbound : ∀ name, s = .placeholder name → ∀ e, e.IsUnbound → E e)
    (hs : ∀ id arguments, s ≠ .reference id arguments) (h : ∀ t ∈ s.parts, c.Yields stack E L t)
    (path : Path) : c.Renders stack E s.parts (LinksIn L) (c.schemaIn stack path s) := by
  cases s with
  | primitive kind =>
    rw [schemaIn]
    exact renders_primitiveSchema (fun hk => wide (.here hk)) path
  | literal value =>
    rw [schemaIn]
    exact renders_pure (linksIn_literalSchema value)
  | foreign value =>
    rw [schemaIn]
    exact admits.own _ trivial
  | placeholder name =>
    rw [schemaIn]
    exact unbound name rfl _ trivial
  | reference id arguments => exact absurd rfl (hs id arguments)
  | list element length unique =>
    rw [schemaIn]
    refine ((h element List.mem_cons_self).renders path).map fun x hx => ?_
    -- The keyword for unique items, which lists of either form may have, brings no links.
    have marked : ∀ s : Schema, s.LinksIn L →
        (if unique then ofKeywords (s.keywords ++ [.uniqueItems]) else s).LinksIn L := by
      intro s hs
      split
      · refine linksIn_ofKeywords.2 (List.forall_mem_append.2 ⟨linksIn_iff.1 hs, ?_⟩)
        exact List.forall_mem_singleton.2 (linksIn_of_isPlain rfl)
      · exact hs
    cases length with
    | none => exact marked _ (linksIn_ofType_cons (linksIn_items.2 hx) rfl)
    | some n =>
      refine marked _ (linksIn_fixedItems fun y hy => ?_)
      rw [List.eq_of_mem_replicate hy]
      exact hx
  | map key value =>
    rw [schemaIn]
    have keys : c.types.Finds E key := found.of_mem_kept List.mem_cons_self
    refine (renders_propertyNames (L := L) admits path [] keys).after fun names hn => ?_
    refine ((h value List.mem_cons_self).renders path).map fun x hx => linksIn_ofType ?_
    refine List.forall_mem_append.2 ⟨?_, List.forall_mem_singleton.2 (linksIn_values.2 hx)⟩
    cases names with
    | none => exact List.forall_mem_nil _
    | some y => exact List.forall_mem_singleton.2 (linksIn_propertyNames.2 (hn y rfl))
  | nullable inner =>
    rw [schemaIn]
    refine ((h inner List.mem_cons_self).renders path).map fun x hx => ?_
    have both : ∀ s ∈ [x, Schema.null], s.LinksIn L :=
      List.forall_mem_cons.2 ⟨hx, List.forall_mem_singleton.2 linksIn_null⟩
    exact linksIn_single (linksIn_anyOf.2 both)
  | tuple elements =>
    cases elements with
    | nil =>
      rw [schemaIn]
      exact renders_pure linksIn_null
    | cons t ts =>
      rw [schemaIn]
      · exact (renders_elementSchemas h path 0).map fun xs hxs => linksIn_fixedItems hxs
      · intro ht
        cases ht
  | struct name body =>
    rw [schemaIn]
    exact renders_bodySchema h path name
  | enum name vs tagging =>
    rw [schemaIn]
    split
    · next hv =>
      have none : (Shape.enum name vs tagging).parts = [] := by
        show (Variant.kept vs).flatMap (·.body.kept) = []
        rw [List.isEmpty_iff.1 hv, List.flatMap_nil]
      rw [none]
      -- An enum without variants takes no value: it is the negation of the schema without keywords.
      have anything : (ofKeywords []).LinksIn L := linksIn_ofKeywords.2 (List.forall_mem_nil _)
      exact renders_pure (linksIn_single (linksIn_not.2 anything))
    · cases hr : c.scope.represent (path.enter name) name vs tagging with
      | error e => exact admits.represent c.scope found _ e hr
      | ok r =>
        have bodies : ∀ v ∈ Variant.kept vs, ∀ t ∈ v.body.kept, c.Yields stack E L t :=
          fun v hv t ht => h t (List.mem_flatMap.2 ⟨v, hv, ht⟩)
        have usable : ∀ label ∈ r.labels, ¬ label.isScalar → E (.unusableLabel label) :=
          fun label hl => labels name vs tagging rfl label (Scope.labels_subset_of_represent hr hl)
        have variants := renders_variantSchemas usable bodies (Scope.fits_of_represent hr) (path.enter name)
        exact variants.map fun xs hxs => linksIn_union hxs

/-! ## Failures -/

/-- Apart from references, a shape fails as one of its parts does, or with an error that the collection admits. -/
theorem failsIn_of_parts (admits : c.types.Admits E) {s : Shape} (found : c.types.Finds E s)
    (labels : c.scope.overrides.LabelsIn E s) (wide : s.HasWide Shape.parts → WideIn E) (unbound : ∀ name, s = .placeholder name → ∀ e, e.IsUnbound → E e)
    (hs : ∀ id arguments, s ≠ .reference id arguments)
    (h : ∀ t ∈ s.parts, ∀ path, FailsIn E (c.schemaIn stack path t)) (path : Path) :
    FailsIn E (c.schemaIn stack path s) := by
  have parts : ∀ t ∈ s.parts, c.Yields stack E (fun _ => True) t := by
    intro t ht path
    cases hx : c.schemaIn stack path t with
    | error e => exact h t ht path e hx
    | ok schema => exact renders_pure fun _ _ => trivial
  exact (renders_schemaIn admits found labels wide unbound hs parts path).failsIn

/-- A shape that finds its records fails with an error that the collection admits, for a type parameter, as an
endless expansion, or for a wide integer among its parts. -/
theorem failsIn_schemaIn (admits : c.types.AdmitsLabels E)
    (names : c.linking ≠ .document → ∀ name, E (.invalidFileName name)) (unbound : ∀ e, e.IsUnbound → E e)
    (endless : ∀ e, e.IsEndless → E e)
    (records : ∀ r ∈ c.types.members, ∀ arguments, (r.expand arguments).HasWide Shape.parts → WideIn E)
    (stack : List TypeKey) {s : Shape} (found : c.types.Finds E s) (wide : s.HasWide Shape.parts → WideIn E)
    (path : Path) : FailsIn E (c.schemaIn stack path s) := by
  refine Collection.Finds.followInduction (motive := fun stack s => (s.HasWide Shape.parts → WideIn E) →
    ∀ path, FailsIn E (c.schemaIn stack path s)) admits.records (fun stack s found ih it wide path => ?_) stack
    found wide path
  by_cases hs : ∃ id arguments, s = .reference id arguments
  · obtain ⟨id, arguments, rfl⟩ := hs
    rw [schemaIn]
    split
    · next hn => exact failsIn_error (found id arguments (.here _) hn path)
    · next r hr =>
      split
      · exact (failsIn_uri names r).map _
      · split
        · exact failsIn_error (endless _ trivial)
        · next hn =>
          split
          · exact failsIn_error (admits.own _ trivial)
          · have inside := records r (Collection.mem_members_of_resolve hr) arguments
            exact (it id arguments r rfl hn hr inside _).map _
  · have other : ∀ id arguments, s ≠ .reference id arguments := fun id arguments h => hs ⟨id, arguments, h⟩
    refine failsIn_of_parts admits.toAdmits found (admits.labelsIn _ s) wide (fun _ _ => unbound) other (fun t ht => ?_) path
    exact ih t (Shape.mem_kept_of_mem_parts ht) fun hw => wide (.part ht hw)

theorem failsIn_definition (covers : c.types.Covers E) (endless : ∀ e, e.IsEndless → E e)
    (records : ∀ r ∈ c.types.members, ∀ arguments, (r.expand arguments).HasWide Shape.parts → WideIn E)
    {r : Record} (hr : r ∈ c.types.members) (wide : r.shape.HasWide Shape.parts → WideIn E) :
    FailsIn E (c.definition r) :=
  (failsIn_schemaIn covers.admits (fun _ _ => covers.other _ trivial) (fun e he => covers.other e he.isLocal)
    endless records [] (covers.records r hr) wide [r.name]).map _

end JsonSchema.Context

end ShapeExport
