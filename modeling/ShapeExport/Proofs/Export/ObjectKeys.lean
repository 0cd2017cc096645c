import ShapeExport.Proofs.Export.Rendered
import ShapeExport.Proofs.JsonSchema.Lists
import ShapeExport.Proofs.TypeScript.Lists
import ShapeExport.Proofs.Zod.Lists

/-!
# Keys of rendered objects

A struct or a variant with named fields is an object with its tags and its fields. Nothing keeps a field from having
the key of a tag, or of another field.

* `Export.keys_objectExpr`, `Export.keys_objectSchema` : the keys in TypeScript and with Zod;
* `JsonSchema.Context.ShowsKeys`, `JsonSchema.Context.showsKeys_objectSchemaOf` : the properties of a JSON schema, and
  those that it requires;
* `Export.Shows` : the objects in the declaration of a record;
* `Export.keys_of_objects` : all of them are rendered, with distinct keys exactly if their labels are distinct.
-/

namespace ShapeExport

/-! ## TypeScript -/

namespace TypeScript

/-- The keys of an object, as they are written. -/
def TypeExpr.keys : TypeExpr → List String
  | .object members => members.map (·.key)
  | .grouped inner => inner.keys
  | _ => []

end TypeScript

namespace Export

section TypeScript
open TypeScript TypeScript.TypeExpr

variable {x : Export} {path : Path}

theorem keys_objectType (members : List (Member TypeExpr)) : (objectType members).keys = members.map (·.key) := by
  cases members <;> rfl

theorem keys_memberExprs {fs : List (Field String Shape)} {members : List (Member TypeExpr)}
    (h : x.memberExprs path fs = .ok members) :
    members.map (·.key) = ((Field.kept fs).map (·.key)).map scriptKey := by
  rw [memberExprs_eq_mapM] at h
  rw [List.map_map]
  refine map_of_mapM h fun f m hm => ?_
  obtain ⟨type, -, rfl⟩ := map_eq_ok.1 hm
  rfl

/-- An object has a member for each tag and for each kept field. -/
theorem keys_objectExpr {o : NamedObject} {type : TypeExpr} (h : x.objectExpr path o = .ok type) :
    type.keys = o.labels.map scriptKey := by
  obtain ⟨label, name, tag, fields⟩ := o
  have inner (members : List (Member TypeExpr)) :
      ((tag.map fun t => tagMember t name).toList ++ members).map (·.key) =
        tag.toList.map scriptKey ++ members.map (·.key) := by
    cases tag <;> rfl
  cases label with
  | none =>
    have body : x.bodyExpr path name (.named tag fields) = .ok type := h
    rw [bodyExpr_named] at body
    obtain ⟨members, hm, rfl⟩ := map_eq_ok.1 body
    rw [keys_objectType, inner, keys_memberExprs hm, ← List.map_append]
    rfl
  | some label =>
    have variant : x.variantExpr (.internal (.string label)) path name (.named tag fields) = .ok type := h
    rw [variantExpr_named] at variant
    obtain ⟨members, hm, rfl⟩ := map_eq_ok.1 variant
    rw [TypeExpr.keys, TypeExpr.keys, List.map_cons, inner, keys_memberExprs hm, ← List.map_append]
    rfl

end TypeScript

end Export

/-! ## Zod -/

namespace Zod

/-- The keys of an object, as they are written. -/
def Schema.keys : Schema → List String
  | .object members => members.map (·.key)
  | _ => []

end Zod

namespace Export

section Zod
open Zod Zod.Schema

variable {x : Export} {left : Nat} {path : Path}

theorem keys_strictObject (members : List (Zod.Member Schema)) :
    (strictObject members).keys = members.map (·.key) := by
  cases members <;> rfl

theorem keys_memberSchemas {fs : List (Field String Shape)} {members : List (Zod.Member Schema)}
    (h : x.memberSchemas left path fs = .ok members) :
    members.map (·.key) = ((Field.kept fs).map (·.key)).map schemaKey := by
  rw [memberSchemas_eq_mapM] at h
  rw [List.map_map]
  refine map_of_mapM h fun f m hm => ?_
  obtain ⟨schema, -, rfl⟩ := map_eq_ok.1 hm
  rfl

/-- An object has a member for each tag and for each kept field. -/
theorem keys_objectSchema {o : NamedObject} {schema : Schema} (h : x.objectSchema left path o = .ok schema) :
    schema.keys = o.labels.map schemaKey := by
  obtain ⟨label, name, tag, fields⟩ := o
  have inner (members : List (Zod.Member Schema)) :
      ((tag.map fun t => schemaTag t name).toList ++ members).map (·.key) =
        tag.toList.map schemaKey ++ members.map (·.key) := by
    cases tag <;> rfl
  cases label with
  | none =>
    have body : x.bodySchema left path name (.named tag fields) = .ok schema := h
    rw [bodySchema_named] at body
    obtain ⟨members, hm, rfl⟩ := map_eq_ok.1 body
    rw [keys_strictObject, inner, keys_memberSchemas hm, ← List.map_append]
    rfl
  | some label =>
    have variant : x.variantSchema left (.internal (.string label)) path name (.named tag fields) = .ok schema := h
    rw [variantSchema_named] at variant
    obtain ⟨members, hm, rfl⟩ := map_eq_ok.1 variant
    rw [Schema.keys, List.map_cons, inner, keys_memberSchemas hm, ← List.map_append]
    rfl

end Zod

end Export

/-! ## JSON Schema -/

namespace JsonSchema

namespace Schema

/-- The properties that a schema lists. -/
def properties (s : Schema) : OrderedMap Schema :=
  (s.keywords.findSome? fun
    | .properties members => some members
    | _ => none).getD []

/-- The keys that a schema requires. -/
def required (s : Schema) : List Json :=
  (s.keywords.findSome? fun
    | .required keys => some keys
    | _ => none).getD []

end Schema

namespace Context
open Schema

variable {c : Context} {stack : List TypeKey} {path : Path}

/-- The property of a field: its schema, with its documentation. -/
def IsPropertyOf (c : Context) (stack : List TypeKey) (path : Path) (f : Field String Shape) (s : Schema) : Prop :=
  ∃ schema, c.schemaIn stack (path ++ [f.key]) f.ty = .ok schema ∧
    s = schema.annotate (docLines f.docs) f.deprecation.isSome

/-- The schema has the properties of the object, each once, and requires some of them. A tag's property holds its
constant unless a field has the key. -/
structure ShowsKeys (c : Context) (stack : List TypeKey) (path : Path) (o : NamedObject) (s : Schema) : Prop where
  distinct : s.properties.keys.Nodup
  mem_keys : ∀ key, key ∈ s.properties.keys ↔ key ∈ o.labels
  required : s.required = (o.required c.config).map .string
  listed : ∀ key ∈ o.required c.config, key ∈ s.properties.keys
  tag : ∀ label ∈ o.tags, label ∉ o.fieldKeys → s.properties.lookup label = some (const o.name)
  field : ∀ key ∈ o.fieldKeys, ∃ f ∈ o.kept, f.key = key ∧
    ∃ schema, c.IsPropertyOf stack path f schema ∧ s.properties.lookup key = some schema

section Members

variable {fs : List (Field String Shape)} {members : List (String × Schema × Bool)}
  (h : c.memberSchemas stack path fs = .ok members)
include h

theorem forall₂_memberSchemas :
    List.Forall₂ (fun f m => m.1 = f.key ∧ m.2.2 = c.config.isOptional f) (Field.kept fs) members := by
  rw [memberSchemas_eq_mapM] at h
  refine (mapM_eq_ok.1 h).imp fun f m hm => ?_
  obtain ⟨schema, -, rfl⟩ := map_eq_ok.1 hm
  exact ⟨rfl, rfl⟩

theorem keys_memberSchemas : members.map (·.1) = (Field.kept fs).map (·.key) := by
  rw [memberSchemas_eq_mapM] at h
  refine map_of_mapM h fun f m hm => ?_
  obtain ⟨schema, -, rfl⟩ := map_eq_ok.1 hm
  rfl

theorem required_memberSchemas : (members.filter (!·.2.2)).map (·.1) =
    ((Field.kept fs).filter (!c.config.isOptional ·)).map (·.key) := by
  have each := forall₂_memberSchemas h
  clear h
  generalize Field.kept fs = kept at each ⊢
  induction each with
  | nil => rfl
  | cons hm _ ih =>
    rw [List.filter_cons, List.filter_cons, hm.2]
    split
    · rw [List.map_cons, List.map_cons, hm.1, ih]
    · exact ih

/-- A key of a field is found with the schema of such a field. -/
theorem exists_lookup_objectOf (tags : OrderedMap Schema) {key : String}
    (hk : key ∈ (Field.kept fs).map (·.key)) : ∃ f ∈ Field.kept fs, f.key = key ∧
      ∃ schema, c.IsPropertyOf stack path f schema ∧ (objectOf tags members).1.lookup key = some schema := by
  have mem : key ∈ OrderedMap.keys (members.map fun m => (m.1, m.2.1)) := by
    rw [← keys_memberSchemas h] at hk
    rw [OrderedMap.keys, List.map_map]
    exact hk
  obtain ⟨schema, hs, found⟩ := OrderedMap.exists_lookup_insertAll (m := tags) mem
  obtain ⟨m, hm, hp⟩ := List.mem_map.1 hs
  rw [memberSchemas_eq_mapM] at h
  obtain ⟨f, hf, hm⟩ := exists_of_mem_results h hm
  obtain ⟨own, ho, rfl⟩ := map_eq_ok.1 hm
  cases hp
  rw [objectOf_properties]
  exact ⟨f, hf, rfl, _, ⟨own, ho, rfl⟩, found⟩

theorem lookup_objectOf_of_not_mem (tags : OrderedMap Schema) {key : String}
    (hk : key ∉ (Field.kept fs).map (·.key)) : (objectOf tags members).1.lookup key = tags.lookup key := by
  rw [objectOf_properties]
  refine OrderedMap.lookup_insertAll_of_not_mem ?_
  rw [OrderedMap.keys, List.map_map]
  rw [← keys_memberSchemas h] at hk
  exact hk

end Members

/-- An object without properties requires none. -/
theorem objectSchema_keys {o : OrderedMap Schema × List String} (h : ∀ key ∈ o.2, key ∈ o.1.keys) :
    (objectSchema o).properties = o.1 ∧ (objectSchema o).required = o.2.map .string := by
  obtain ⟨properties, required⟩ := o
  cases properties with
  | nil =>
    have none : required = [] := List.eq_nil_iff_forall_not_mem.2 fun key hk => List.not_mem_nil (h key hk)
    rw [none]
    exact ⟨rfl, rfl⟩
  | cons p properties => cases required <;> exact ⟨rfl, rfl⟩

/-- The property of a struct tag. -/
theorem lookup_structTag (tag : Option String) (name key : String) :
    List.lookup key (tag.map fun t => (t, const name)).toList =
      if key ∈ tag.toList then some (const name) else none := by
  cases tag with
  | none => rfl
  | some t =>
    show List.lookup key [(t, const name)] = if key ∈ [t] then _ else _
    rw [List.lookup_cons, List.lookup_nil]
    by_cases hk : key = t
    · rw [if_pos (List.mem_singleton.2 hk), beq_iff_eq.2 hk]
    · rw [if_neg (mt List.mem_singleton.1 hk), beq_false_of_ne hk]

theorem keys_structTag (tag : Option String) (name : String) :
    OrderedMap.keys (tag.map fun t => (t, const name)).toList = tag.toList := by
  cases tag <;> rfl

section Struct

variable {tag : Option String} {name : String} {fs : List (Field String Shape)}
  {members : List (String × Schema × Bool)} (h : c.memberSchemas stack path fs = .ok members)
include h

theorem mem_keys_struct {key : String} :
    key ∈ (objectOf (tag.map fun t => (t, const name)).toList members).1.keys ↔
      key ∈ tag.toList ++ (Field.kept fs).map (·.key) := by
  rw [mem_keys_objectOf, keys_structTag, keys_memberSchemas h]

theorem required_struct : (objectOf (tag.map fun t => (t, const name)).toList members).2 =
    tag.toList ++ ((Field.kept fs).filter (!c.config.isOptional ·)).map (·.key) := by
  rw [objectOf, keys_structTag, required_memberSchemas h]

theorem lookup_struct_of_not_mem {key : String} (hk : key ∉ (Field.kept fs).map (·.key)) :
    (objectOf (tag.map fun t => (t, const name)).toList members).1.lookup key =
      if key ∈ tag.toList then some (const name) else none := by
  rw [lookup_objectOf_of_not_mem h _ hk, lookup_structTag]

end Struct

variable {tag : Option String} {name : String} {fields : List (Field String Shape)} {schema : Schema}

theorem showsKeys_bodySchema (h : c.bodySchema stack path name (.named tag fields) = .ok schema) :
    c.ShowsKeys stack path { name, tag, fields } schema := by
  rw [bodySchema_named] at h
  obtain ⟨members, hm, rfl⟩ := map_eq_ok.1 h
  obtain ⟨properties, requires⟩ := objectSchema_keys
    (o := objectOf (tag.map fun t => (t, const name)).toList members) fun _ => required_objectOf
  rw [required_struct hm] at requires
  constructor
  · rw [properties]
    exact nodup_objectOf_struct tag name members
  · intro key
    rw [properties]
    exact mem_keys_struct hm
  · exact requires
  · intro key hk
    rw [properties]
    exact (mem_keys_struct hm).2 ((NamedObject.required_sublist _ c.config).subset hk)
  · intro t ht hk
    have ht : t ∈ tag.toList := ht
    rw [properties, lookup_struct_of_not_mem hm hk, if_pos ht]
  · intro key hk
    rw [properties]
    exact exists_lookup_objectOf hm _ hk

/-- The tag of the enum is a further property, unless there is one of its label. -/
theorem showsKeys_variantSchema {label : String}
    (h : c.variantSchema stack (.internal (.string label)) path name (.named tag fields) = .ok schema) :
    c.ShowsKeys stack path { label := some label, name, tag, fields } schema := by
  rw [variantSchema_named] at h
  obtain ⟨members, hm, rfl⟩ := map_eq_ok.1 h
  have found (key : String) : (withTag (.string label) (label, const name)
      (objectOf (tag.map fun t => (t, const name)).toList members).1).lookup key =
        ((objectOf (tag.map fun t => (t, const name)).toList members).1.lookup key).or
          (if key = label then some (const name) else none) :=
    lookup_withTag (nodup_objectOf_struct tag name members) key
  have mem (key : String) : key ∈ (withTag (.string label) (label, const name)
      (objectOf (tag.map fun t => (t, const name)).toList members).1).keys ↔
        key ∈ label :: (tag.toList ++ (Field.kept fields).map (·.key)) := by
    rw [mem_keys_withTag, List.mem_cons, List.mem_cons, mem_keys_struct hm]
  constructor
  · exact nodup_withTag label _ _
  · exact mem
  · show (Json.string label :: _) = _
    rw [required_struct hm]
    rfl
  · intro key hk
    exact (mem key).2 ((NamedObject.required_sublist _ c.config).subset hk)
  · intro t ht hk
    refine (found t).trans ?_
    rw [lookup_struct_of_not_mem hm hk]
    have ht : t ∈ label :: tag.toList := ht
    rcases List.mem_cons.1 ht with rfl | ht
    · rw [if_pos rfl]
      split <;> rfl
    · rw [if_pos ht]
      rfl
  · intro key hk
    obtain ⟨f, hf, hkey, schema, property, lookup⟩ := exists_lookup_objectOf hm _ hk
    refine ⟨f, hf, hkey, schema, property, (found key).trans ?_⟩
    rw [lookup]
    rfl

/-- A schema of named fields shows the keys of the object. -/
theorem showsKeys_objectSchemaOf {o : NamedObject} (h : c.objectSchemaOf stack path o = .ok schema) :
    c.ShowsKeys stack path o schema := by
  obtain ⟨label, name, tag, fields⟩ := o
  cases label with
  | none => exact showsKeys_bodySchema h
  | some label => exact showsKeys_variantSchema h

end Context

end JsonSchema

/-! ## All three languages -/

namespace Export
open JsonSchema (Context)

variable {x : Export}

/-- The declaration of a record shows an object, at a position that the language renders. Zod follows the keys of maps
instead of rendering them, and JSON Schema the references to generic records. -/
def Shows (x : Export) (r : Record) (o : NamedObject) : Prop :=
  match x.config.language with
  | .typescript => ∃ t, r.shape.Holds t ∧ t.HasObject x.config.overrides o
  | .zod => ∃ t, r.shape.Within Shape.schemaParts t ∧ t.HasObject x.config.overrides o
  | .jsonschema => r.parameters = [] ∧
      ∃ stack t, x.types.Visits [] r.shape stack t ∧ t.HasObject x.config.overrides o

/-- The object is rendered somewhere. -/
def RendersObject (x : Export) (o : NamedObject) : Prop :=
  match x.config.language with
  | .typescript => ∃ path type, x.objectExpr path o = .ok type
  | .zod => ∃ path schema, x.objectSchema expansionLimit path o = .ok schema
  | .jsonschema => ∃ linking stack path schema,
      Context.objectSchemaOf { toExport := x, linking } stack path o = .ok schema

theorem Succeeds.rendersObject (h : x.Succeeds) {r : Record} (hr : r ∈ x.types.records) {o : NamedObject}
    (shown : x.Shows r o) : x.RendersObject o := by
  unfold Shows at shown
  unfold RendersObject
  cases language : x.config.language with
  | typescript =>
    rw [language] at shown
    obtain ⟨t, hold, ho⟩ := shown
    have rendered : x.HasType t.stripNullable := hasType_of_holds (h.hasType language hr).stripNullable hold
    refine exists_objectExpr ?_ ho
    cases ho <;> exact rendered
  | zod =>
    rw [language] at shown
    obtain ⟨t, within, ho⟩ := shown
    exact exists_objectSchema (hasSchema_of_within (h.hasSchema language hr) within) ho
  | jsonschema =>
    rw [language] at shown
    obtain ⟨hp, stack, t, visits, ho⟩ := shown
    obtain ⟨linking, path, schema, hs⟩ := h.exists_schemaIn language hr hp
    obtain ⟨path, schema, hs⟩ := Context.schemaIn_of_visits (c := { toExport := x, linking }) visits hs
    obtain ⟨path, schema, hs⟩ := Context.exists_objectSchemaOf hs ho
    exact ⟨linking, stack, path, schema, hs⟩

/-- An export that succeeds has rendered each object that it shows. Wherever an object is rendered, the keys in a script
are the labels of its tags and the keys of its fields, so they are distinct only if these are. A JSON schema has each
property once, and the required ones among them; a field takes the place of a tag with its key, and then the key is
required twice if the field may not be absent. Only the two labels of an adjacently tagged enum are checked. -/
theorem keys_of_objects (succeeds : x.Succeeds) :
    (∀ r ∈ x.types.records, ∀ o, x.Shows r o → x.RendersObject o) ∧
    (∀ o path type, x.objectExpr path o = .ok type →
      type.keys = o.labels.map scriptKey ∧ (type.keys.Nodup ↔ o.labels.Nodup)) ∧
    (∀ o left path schema, x.objectSchema left path o = .ok schema →
      schema.keys = o.labels.map schemaKey ∧ (schema.keys.Nodup ↔ o.labels.Nodup)) ∧
    (∀ o linking stack path schema, Context.objectSchemaOf { toExport := x, linking } stack path o = .ok schema →
      Context.ShowsKeys { toExport := x, linking } stack path o schema ∧
        (schema.required.Nodup ↔ (o.required x.config).Nodup)) ∧
    ∀ path name vs tagging tag content,
      x.scope.represent path name vs tagging = .ok (.adjacent (.string tag) (.string content)) → tag ≠ content := by
  refine ⟨fun r hr o => succeeds.rendersObject hr, fun o path type h => ?_, fun o left path schema h => ?_,
    fun o linking stack path schema h => ?_, fun path name vs tagging tag content => Scope.labels_ne_of_represent⟩
  · have keys := keys_objectExpr h
    refine ⟨keys, ?_⟩
    rw [keys]
    exact List.nodup_map_iff (Language.propertyKey_injective .typescript)
  · have keys := keys_objectSchema h
    refine ⟨keys, ?_⟩
    rw [keys]
    exact List.nodup_map_iff (Language.propertyKey_injective .zod)
  · have shows := Context.showsKeys_objectSchemaOf h
    refine ⟨shows, ?_⟩
    rw [shows.required]
    exact List.nodup_map_iff fun _ _ => Json.string.inj

/-! ### Moves

A move is tagged by its kind, and has a place or a kind of its own. -/

namespace Moves

/-- An event with a field of the given key. -/
def event (key : String) : Record where
  id := ⟨⟨.static, 1⟩, "m.Event"⟩
  name := "Event"
  shape := .enum "Event" [{ name := "Moved", body := .named none [{ name := key, ty := .primitive .string }] }]
    (some (.internal (.string "kind")))

def moved (key : String) : NamedObject where
  label := some "kind"
  name := "Moved"
  fields := [{ name := key, ty := .primitive .string }]

def site (language : Language) (key : String) : Export :=
  ⟨{ banner := "", language }, .ofRecords [event key]⟩

theorem records_site (language : Language) (key : String) : (site language key).types.records = [event key] := by
  have sorted : List.Pairwise (fun a b => Record.le a b) [event key] := List.pairwise_singleton _ _
  exact List.mergeSort_of_pairwise sorted

theorem hasObject_moved (key : String) : (event key).shape.HasObject [] (moved key) :=
  .tagged (v := { name := "Moved", body := .named none [{ name := key, ty := .primitive .string }] })
    List.mem_cons_self rfl rfl

theorem succeeds_typescript_place : (site .typescript "place").Succeeds := by
  have declared : (site .typescript "place").statements (event "place") = .ok [.typeAlias "Event" []
      (.union [.grouped (.object [tagMember "kind" "Moved", { key := "place", type := .builtin "string" }])])] := by
    cbv
  have prepared : (site .typescript "place").prepare = .ok () :=
    prepare_of_records (records_site _ _) (by cbv) (fun _ => by cbv) (by decide) (by decide)
  exact Or.inl ⟨_, text_of_statements (by decide) (by decide) (records_site _ _) prepared
    (mapM_eq_ok.2 (.cons declared .nil))⟩

/-- A place is beside the tag. -/
theorem keys_of_place : ∃ path type, (site .typescript "place").objectExpr path (moved "place") = .ok type ∧
    type.keys = ["kind", "place"] ∧ type.keys.Nodup := by
  obtain ⟨rendered, keys, -⟩ := keys_of_objects succeeds_typescript_place
  have member : event "place" ∈ (site .typescript "place").types.records := by
    rw [records_site]
    exact List.mem_singleton_self _
  obtain ⟨path, type, h⟩ := rendered _ member _ ⟨_, .here _, hasObject_moved "place"⟩
  obtain ⟨labels, distinct⟩ := keys _ _ _ h
  exact ⟨path, type, h, labels, distinct.2 (by decide)⟩

theorem succeeds_jsonschema_kind : (site .jsonschema "kind").Succeeds := by
  have limits : ((site .jsonschema "kind").schemaRoot [event "kind"]).map
      (fun j => (j.depth, j.hasShortIntegers)) = .ok (5, true) := by cbv
  have prepared : (site .jsonschema "kind").prepare = .ok () :=
    prepare_of_records (records_site _ _) (by cbv) (fun _ => by cbv) (by decide) (by decide)
  exact Or.inl (exists_text_of_schemaRoot rfl (by decide) (records_site _ _) prepared limits (by decide))

/-- A kind of its own takes the place of the tag, and is required twice. -/
theorem kind_hides_tag : (site .jsonschema "kind").Succeeds ∧
    (event "kind").shape.HasObject (site .jsonschema "kind").config.overrides (moved "kind") ∧
    ∃ schema, Context.objectSchemaOf { toExport := site .jsonschema "kind" } [] ["Event", "Moved"] (moved "kind") =
        .ok schema ∧
      schema.properties = [("kind", .ofType .string [])] ∧ schema.required = [.string "kind", .string "kind"] := by
  refine ⟨succeeds_jsonschema_kind, hasObject_moved "kind",
    .object [("kind", .ofType .string [])] [.string "kind", .string "kind"], by cbv, rfl, rfl⟩

end Moves

end Export

end ShapeExport
