import ShapeExport.Shape.Literal
import ShapeExport.Shape.Primitive
import ShapeExport.Tagging
import ShapeExport.TypeId

/-!
# Shapes

* `Shape` : the shape of data, apart from any target. A shape never holds a named type: it refers to
  it by id, so recursion always goes through `Shape.reference`;
* `Body` : what a struct or a variant holds. Only named fields have a struct tag, and only
  positional fields may lack a name;
* `Shape.children`, `Shape.mapChildren` : the shapes directly inside a shape, in order;
* `Shape.childInduction` : induction over the children.
-/

namespace ShapeExport

/-- A deprecation marker with an optional note and an optional version. -/
structure Deprecation where
  note : Option String := none
  since : Option String := none
deriving DecidableEq, Repr

/-- A field with a name from `ν` and a type from `σ`. -/
structure Field (ν σ : Type) where
  name : ν
  ty : σ
  optional : Bool := false
  skip : Bool := false
  rename : Option String := none
  docs : List String := []
  deprecation : Option Deprecation := none
  /-- The name of the predicate under which the field is left out. -/
  skipIf : Option String := none
deriving DecidableEq, Repr

/-- The contents of a struct or of a variant. -/
inductive Body (σ : Type)
  | unit
  | positional (fields : List (Field (Option String) σ))
  | named (tag : Option String) (fields : List (Field String σ))
deriving DecidableEq, Repr

structure Variant (σ : Type) where
  name : String
  body : Body σ := .unit
  skip : Bool := false
  rename : Option String := none
  docs : List String := []
  deprecation : Option Deprecation := none
deriving DecidableEq, Repr

/-- A shape that only a renderer which knows it can express. -/
inductive Foreign
  /-- A type expression that is copied as it is. -/
  | verbatim (text : String)
  /-- A shape known by name only. -/
  | named (kind : String)
deriving DecidableEq, Repr

/-- What a foreign shape is called in a message. -/
def Foreign.kind : Foreign → String
  | verbatim _ => "Define"
  | named kind => kind

inductive Shape
  | primitive (kind : Primitive)
  | literal (value : Literal)
  /-- A sequence, of a fixed length if there is one, and without repetitions if `unique`. -/
  | list (element : Shape) (length : Option Int) (unique : Bool)
  | map (key value : Shape)
  | nullable (inner : Shape)
  | tuple (elements : List Shape)
  | struct (name : String) (body : Body Shape)
  | enum (name : String) (variants : List (Variant Shape)) (tagging : Option Tagging)
  | reference (id : TypeId) (arguments : List Shape)
  | foreign (value : Foreign)
  /-- A type parameter. -/
  | placeholder (name : String)
deriving Repr

/-! ## Fields and variants -/

variable {ν σ τ υ : Type}

namespace Field

/-- The serialized name. -/
def key (f : Field String σ) : String := f.rename.getD f.name

/-- The serialized name, if the field has one. -/
def key? (f : Field (Option String) σ) : Option String := f.rename <|> f.name

/-- The same field with another type. -/
def withType (f : Field ν σ) (t : τ) : Field ν τ :=
  { name := f.name, ty := t, optional := f.optional, skip := f.skip, rename := f.rename,
    docs := f.docs, deprecation := f.deprecation, skipIf := f.skipIf }

def map (g : σ → τ) (f : Field ν σ) : Field ν τ := f.withType (g f.ty)

/-- The same field with another name. -/
def withName {ι : Type} (f : Field ν σ) (name : ι) : Field ι σ :=
  { name, ty := f.ty, optional := f.optional, skip := f.skip, rename := f.rename,
    docs := f.docs, deprecation := f.deprecation, skipIf := f.skipIf }

end Field

namespace Body

def types : Body σ → List σ
  | unit => []
  | positional fields => fields.map (·.ty)
  | named _ fields => fields.map (·.ty)

def map (g : σ → τ) : Body σ → Body τ
  | unit => unit
  | positional fields => positional (fields.map (·.map g))
  | named tag fields => named tag (fields.map (·.map g))

/-- Maps the types, with the knowledge that they are types of the body. -/
def mapTypes (b : Body σ) (g : (t : σ) → t ∈ b.types → τ) : Body τ :=
  match b with
  | unit => unit
  | positional fields =>
    positional (fields.attach.map fun ⟨f, h⟩ =>
      f.withType (g f.ty (List.mem_map.2 ⟨f, h, rfl⟩)))
  | named tag fields =>
    named tag (fields.attach.map fun ⟨f, h⟩ =>
      f.withType (g f.ty (List.mem_map.2 ⟨f, h, rfl⟩)))

/-- What is left of a body when the types are forgotten. -/
def outline (b : Body σ) : Body Unit := b.map fun _ => ()

/-- A single positional field that is not skipped stands for its own type. -/
def isNewtype : Body σ → Bool
  | positional [f] => !f.skip
  | _ => false

def isUnit : Body σ → Bool
  | unit => true
  | _ => false

/-- A positional body without a field that is not skipped. -/
def allSkipped : Body σ → Bool
  | positional fields => fields.all (·.skip)
  | _ => false

theorem mapTypes_eq_map (b : Body σ) (g : σ → τ) : b.mapTypes (fun t _ => g t) = b.map g := by
  cases b <;> simp [mapTypes, map, Field.map]

theorem types_map (b : Body σ) (g : σ → τ) : (b.map g).types = b.types.map g := by
  cases b <;> simp [types, map, Field.map, Field.withType, Function.comp_def]

theorem map_map (b : Body σ) (g : σ → τ) (h : τ → υ) : (b.map g).map h = b.map (h ∘ g) := by
  cases b <;> simp [map, Field.map, Field.withType, Function.comp_def]

theorem map_id (b : Body σ) : b.map id = b := by
  cases b <;> simp [map, Field.map, Field.withType]

theorem map_congr {b : Body σ} {g h : σ → τ} (e : ∀ t ∈ b.types, g t = h t) :
    b.map g = b.map h := by
  cases b with
  | unit => rfl
  | positional fields =>
    simp only [map, positional.injEq]
    exact List.map_congr_left fun f hf => by
      simp [Field.map, e f.ty (List.mem_map.2 ⟨f, hf, rfl⟩)]
  | named tag fields =>
    simp only [map, named.injEq, true_and]
    exact List.map_congr_left fun f hf => by
      simp [Field.map, e f.ty (List.mem_map.2 ⟨f, hf, rfl⟩)]

end Body

namespace Variant

/-- The serialized name, before any casing. -/
def key (v : Variant σ) : String := v.rename.getD v.name

def withBody (v : Variant σ) (b : Body τ) : Variant τ :=
  { name := v.name, body := b, skip := v.skip, rename := v.rename, docs := v.docs,
    deprecation := v.deprecation }

def map (g : σ → τ) (v : Variant σ) : Variant τ := v.withBody (v.body.map g)

def outline (v : Variant σ) : Variant Unit := v.map fun _ => ()

/-- The variants that are not skipped. -/
def kept (vs : List (Variant σ)) : List (Variant σ) := vs.filter (!·.skip)

/-- Whether all variants that are not skipped are units. -/
def allUnits (vs : List (Variant σ)) : Bool := (kept vs).all (·.body.isUnit)

end Variant

/-! ## Children -/

namespace Shape

def children : Shape → List Shape
  | primitive _ | literal _ | foreign _ | placeholder _ => []
  | list element _ _ => [element]
  | map key value => [key, value]
  | nullable inner => [inner]
  | tuple elements => elements
  | struct _ body => body.types
  | enum _ variants _ => variants.flatMap (·.body.types)
  | reference _ arguments => arguments

theorem sizeOf_ty_lt [SizeOf ν] (f : Field ν Shape) : sizeOf f.ty < sizeOf f := by
  cases f; simp; omega

theorem sizeOf_types_lt {b : Body Shape} {t : Shape} (h : t ∈ b.types) : sizeOf t < sizeOf b := by
  cases b with
  | unit => simp [Body.types] at h
  | positional fields =>
    obtain ⟨f, hf, rfl⟩ := List.mem_map.1 h
    have := List.sizeOf_lt_of_mem hf
    have := sizeOf_ty_lt f
    simp
    omega
  | named tag fields =>
    obtain ⟨f, hf, rfl⟩ := List.mem_map.1 h
    have := List.sizeOf_lt_of_mem hf
    have := sizeOf_ty_lt f
    simp
    omega

theorem sizeOf_body_lt (v : Variant Shape) : sizeOf v.body < sizeOf v := by
  cases v; simp; omega

theorem sizeOf_child_lt {s c : Shape} (h : c ∈ s.children) : sizeOf c < sizeOf s := by
  cases s with
  | primitive | literal | foreign | placeholder => simp [children] at h
  | list | nullable =>
    rw [List.mem_singleton.1 h]
    simp +arith
  | map key value =>
    simp only [children, List.mem_cons, List.not_mem_nil, or_false] at h
    rcases h with rfl | rfl
    · simp +arith
    · simp +arith
  | tuple elements =>
    have : sizeOf c < sizeOf elements := List.sizeOf_lt_of_mem h
    simp
    omega
  | reference id arguments =>
    have : sizeOf c < sizeOf arguments := List.sizeOf_lt_of_mem h
    simp
    omega
  | struct name body =>
    have := sizeOf_types_lt h
    simp
    omega
  | enum name variants tagging =>
    obtain ⟨v, hv, ht⟩ := List.mem_flatMap.1 h
    have := List.sizeOf_lt_of_mem hv
    have := sizeOf_body_lt v
    have := sizeOf_types_lt ht
    simp
    omega

theorem childInduction {motive : Shape → Prop}
    (step : ∀ s, (∀ c ∈ s.children, motive c) → motive s) (s : Shape) : motive s :=
  step s fun c _ => childInduction step c
termination_by sizeOf s
decreasing_by exact sizeOf_child_lt ‹_›

/-- The same shape with other children. -/
def mapChildren (g : Shape → Shape) : Shape → Shape
  | list element length unique => list (g element) length unique
  | map key value => map (g key) (g value)
  | nullable inner => nullable (g inner)
  | tuple elements => tuple (elements.map g)
  | struct name body => struct name (body.map g)
  | enum name variants tagging => enum name (variants.map (·.map g)) tagging
  | reference id arguments => reference id (arguments.map g)
  | s => s

/-- Maps the children, with the knowledge that they are children. -/
def mapOver (s : Shape) (g : (c : Shape) → c ∈ s.children → Shape) : Shape :=
  match s with
  | list element length unique => list (g element (List.mem_singleton.2 rfl)) length unique
  | map key value =>
    map (g key List.mem_cons_self) (g value (List.mem_cons_of_mem _ List.mem_cons_self))
  | nullable inner => nullable (g inner (List.mem_singleton.2 rfl))
  | tuple elements => tuple (elements.attach.map fun ⟨e, h⟩ => g e h)
  | struct name body => struct name (body.mapTypes g)
  | enum name variants tagging =>
    enum name
      (variants.attach.map fun ⟨v, hv⟩ =>
        v.withBody (v.body.mapTypes fun t ht => g t (List.mem_flatMap.2 ⟨v, hv, ht⟩)))
      tagging
  | reference id arguments => reference id (arguments.attach.map fun ⟨e, h⟩ => g e h)
  | primitive kind => primitive kind
  | literal value => literal value
  | foreign value => foreign value
  | placeholder name => placeholder name

theorem mapOver_eq_mapChildren (s : Shape) (g : Shape → Shape) :
    s.mapOver (fun c _ => g c) = s.mapChildren g := by
  cases s with
  | struct name body => exact congrArg (struct name) (Body.mapTypes_eq_map body g)
  | _ => simp [mapOver, mapChildren, Body.mapTypes_eq_map, Variant.map]

theorem children_mapChildren (s : Shape) (g : Shape → Shape) :
    (s.mapChildren g).children = s.children.map g := by
  cases s <;>
    simp [mapChildren, children, Body.types_map, Variant.map, Variant.withBody, List.map_flatMap,
      List.flatMap_map]

theorem mapChildren_mapChildren (s : Shape) (g h : Shape → Shape) :
    (s.mapChildren g).mapChildren h = s.mapChildren (h ∘ g) := by
  cases s <;>
    simp [mapChildren, Body.map_map, Variant.map, Variant.withBody, Function.comp_def]

theorem mapChildren_id (s : Shape) : s.mapChildren id = s := by
  cases s <;> simp [mapChildren, Body.map_id, Variant.map, Variant.withBody]

theorem mapChildren_congr {s : Shape} {g h : Shape → Shape} (e : ∀ c ∈ s.children, g c = h c) :
    s.mapChildren g = s.mapChildren h := by
  cases s with
  | primitive | literal | foreign | placeholder => rfl
  | list | nullable => simp [mapChildren, e _ (List.mem_singleton.2 rfl)]
  | map => simp_all [mapChildren, children]
  | tuple elements => exact congrArg tuple (List.map_congr_left e)
  | reference id arguments => exact congrArg (reference id) (List.map_congr_left e)
  | struct name body => simp [mapChildren, Body.map_congr e]
  | enum name variants tagging =>
    simp only [mapChildren, enum.injEq, true_and, and_true]
    exact List.map_congr_left fun v hv => by
      simp [Variant.map, Body.map_congr fun t ht => e t (List.mem_flatMap.2 ⟨v, hv, ht⟩)]

end Shape

end ShapeExport
