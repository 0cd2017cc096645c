import ShapeExport.JsonSchema.Render
import ShapeExport.Proofs.OrderedMap
import ShapeExport.Proofs.Validation.Payload

/-!
# Properties of rendered objects

* `Context.nodup_objectOf`, `Context.mem_keys_objectOf`, `Context.required_objectOf` : the properties of an object
  have distinct keys, which are those of its tags and its members, and it requires some of them;
* `Context.nodup_withTag`, `Context.mem_keys_withTag`, `Context.lookup_withTag` : a tag put in front of properties
  holds its entry unless they have its key already;
* `Context.forall_mem_objectOf`, `Context.forall_mem_withTag` : what holds of the schemas of all properties;
* `Context.bodySchema_named`, `Context.variantSchema_named` : the schemas of named fields, alone and beside an
  internal tag.
-/

namespace ShapeExport.JsonSchema

theorem Schema.object_injective {properties properties' : OrderedMap Schema} {required required' : List Json}
    (h : object properties required = object properties' required') :
    properties = properties' ∧ required = required' := by
  simpa [object, ofType] using h

theorem Schema.object_ne_closedObject {properties properties' : OrderedMap Schema} {required required' : List Json} :
    object properties required ≠ closedObject properties' required' := by
  simp [object, closedObject, ofType]

namespace Context
open Schema

variable {tags : OrderedMap Schema} {members : List (String × Schema × Bool)}

/-- The members are set one after another. -/
theorem objectOf_properties (tags : OrderedMap Schema) (members : List (String × Schema × Bool)) :
    (objectOf tags members).1 = tags.insertAll (members.map fun p => (p.1, p.2.1)) := by
  rw [OrderedMap.insertAll, List.foldl_map]
  rfl

theorem nodup_objectOf (h : tags.keys.Nodup) (members : List (String × Schema × Bool)) :
    (objectOf tags members).1.keys.Nodup := by
  rw [objectOf_properties]
  exact OrderedMap.nodup_insertAll h _

theorem mem_keys_objectOf {key : String} :
    key ∈ (objectOf tags members).1.keys ↔ key ∈ tags.keys ++ members.map (·.1) := by
  rw [objectOf_properties, OrderedMap.mem_keys_insertAll, List.mem_append, OrderedMap.keys, OrderedMap.keys,
    List.map_map]
  rfl

theorem forall_mem_objectOf {P : Schema → Prop} (ht : ∀ p ∈ tags, P p.2) (hm : ∀ m ∈ members, P m.2.1) :
    ∀ p ∈ (objectOf tags members).1, P p.2 := by
  rw [objectOf_properties]
  exact OrderedMap.forall_mem_insertAll ht (List.forall_mem_map.2 hm)

/-- What is required is there. -/
theorem required_objectOf {key : String} (h : key ∈ (objectOf tags members).2) :
    key ∈ (objectOf tags members).1.keys := by
  refine mem_keys_objectOf.2 (List.mem_append.2 ?_)
  rcases List.mem_append.1 h with h | h
  · exact Or.inl h
  · obtain ⟨p, hp, rfl⟩ := List.mem_map.1 h
    exact Or.inr (List.mem_map_of_mem (List.mem_filter.1 hp).1)

/-- A struct has one tag at most. -/
theorem nodup_objectOf_struct (inner : Option String) (name : String) (members : List (String × Schema × Bool)) :
    (objectOf (inner.map fun t => (t, const name)).toList members).1.keys.Nodup := by
  refine nodup_objectOf ?_ members
  cases inner with
  | none => exact List.nodup_nil
  | some t => exact List.nodup_singleton t

/-! ## Tags in front -/

variable {properties : OrderedMap Schema} {label : String} {schema : Schema}

theorem withTag_text (label : String) (entry : String × Schema) (properties : OrderedMap Schema) :
    withTag (.string label) entry properties = OrderedMap.insertAll [entry] properties := rfl

theorem nodup_withTag (label : String) (entry : String × Schema) (properties : OrderedMap Schema) :
    (withTag (.string label) entry properties).keys.Nodup :=
  OrderedMap.nodup_insertAll (m := [entry]) (List.nodup_singleton entry.1) properties

theorem mem_keys_withTag {key : String} :
    key ∈ (withTag (.string label) (label, schema) properties).keys ↔ key ∈ label :: properties.keys := by
  rw [withTag_text, OrderedMap.mem_keys_insertAll, List.mem_cons]
  exact or_congr_left List.mem_singleton

theorem lookup_withTag (h : properties.keys.Nodup) (key : String) :
    (withTag (.string label) (label, schema) properties).lookup key =
      (properties.lookup key).or (if key = label then some schema else none) := by
  rw [withTag_text, OrderedMap.lookup_insertAll h, List.lookup_cons, List.lookup_nil]
  by_cases hk : key = label
  · rw [if_pos hk, beq_iff_eq.2 hk]
  · rw [if_neg hk, beq_false_of_ne hk]

theorem forall_mem_withTag {P : Schema → Prop} {tag : Json} {entry : String × Schema} (he : P entry.2)
    (hp : ∀ p ∈ properties, P p.2) : ∀ p ∈ withTag tag entry properties, P p.2 := by
  unfold withTag
  split
  · exact OrderedMap.forall_mem_insertAll (List.forall_mem_singleton.2 he) hp
  · exact List.forall_mem_cons.2 ⟨he, hp⟩

/-! ## Named bodies -/

theorem bodySchema_named (c : Context) (stack : List TypeKey) (path : Path) (name : String) (tag : Option String)
    (fields : List (Field String Shape)) : c.bodySchema stack path name (.named tag fields) =
      (c.memberSchemas stack path fields).map fun members =>
        objectSchema (objectOf (tag.map fun t => (t, const name)).toList members) := by
  rw [bodySchema]
  rfl

theorem variantSchema_named (c : Context) (stack : List TypeKey) (label : String) (path : Path) (key : String)
    (inner : Option String) (fields : List (Field String Shape)) :
    c.variantSchema stack (.internal (.string label)) path key (.named inner fields) =
      (c.memberSchemas stack path fields).map fun members =>
        let own := objectOf (inner.map fun t => (t, const key)).toList members
        object (withTag (.string label) (label, const key) own.1) (.string label :: own.2.map .string) := by
  rw [variantSchema]
  rfl

end Context

end ShapeExport.JsonSchema
