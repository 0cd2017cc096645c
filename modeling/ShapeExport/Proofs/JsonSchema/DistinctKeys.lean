import ShapeExport.Proofs.Export.Objects
import ShapeExport.Proofs.Json.Alike
import ShapeExport.Proofs.JsonSchema.Expansion
import ShapeExport.Proofs.JsonSchema.Lists
import ShapeExport.Proofs.JsonSchema.Objects

/-!
# Distinct keys in rendered schemas

* `Schema.Keyed` : the value of a schema has distinct keys, all the way down;
* `Tagging.HasTextLabels` : the labels of a representation are texts;
* `Context.HasTextLabels` : so are those of all enums that the walk of the renderer comes to;
* `Context.keyed_schemaIn` : then a rendered schema has distinct keys.
-/

namespace ShapeExport

/-- Labels are meant to be texts. -/
def Tagging.HasTextLabels : Tagging → Prop
  | internal tag => ∃ text, tag = .string text
  | adjacent tag content => (∃ text, tag = .string text) ∧ ∃ text, content = .string text
  | external | untagged | strings _ => True

namespace JsonSchema

namespace Schema

theorem members_eq (ks : List (Keyword Schema)) : members ks = ks.map member := by
  induction ks with
  | nil => rfl
  | cons k ks ih => rw [members, ih, List.map_cons]

theorem jsons_eq (ss : List Schema) : jsons ss = ss.map json := by
  induction ss with
  | nil => rfl
  | cons s ss ih => rw [jsons, ih, List.map_cons]

theorem propertyJsons_eq (ps : List (String × Schema)) : propertyJsons ps = ps.map fun p => (p.1, p.2.json) := by
  induction ps with
  | nil => rfl
  | cons p ps ih => rw [propertyJsons, ih, propertyJson.eq_def, List.map_cons]

/-- The value of the schema has distinct keys, all the way down. -/
def Keyed (s : Schema) : Prop := s.json.Keyed

/-- So has the argument of the keyword. -/
def KeyedKeyword (k : Keyword Schema) : Prop := (member k).2.Keyed

variable {s : Schema} {ss : List Schema} {ms : OrderedMap Schema} {k : Keyword Schema} {ks : List (Keyword Schema)}

theorem keyed_ofKeywords :
    (ofKeywords ks).Keyed ↔ (ks.map fun k => (member k).1).Nodup ∧ ∀ k ∈ ks, KeyedKeyword k := by
  have keys : OrderedMap.keys (members ks) = ks.map fun k => (member k).1 := by
    rw [members_eq, OrderedMap.keys, List.map_map]
    rfl
  constructor
  · intro h
    cases h with
    | scalar h => cases h
    | object distinct parts =>
      rw [keys] at distinct
      rw [members_eq, List.forall_mem_map] at parts
      exact ⟨distinct, parts⟩
  · rintro ⟨distinct, parts⟩
    refine .object (keys ▸ distinct) ?_
    rw [members_eq, List.forall_mem_map]
    exact parts

theorem keyed_schemas (h : ∀ s ∈ ss, s.Keyed) : (Json.array (jsons ss)).Keyed := by
  rw [jsons_eq]
  exact .array (List.forall_mem_map.2 h)

theorem keyed_texts (texts : List String) : (Json.array (texts.map .string)).Keyed :=
  .array (List.forall_mem_map.2 fun _ _ => .scalar rfl)

theorem keyed_properties (distinct : ms.keys.Nodup) (h : ∀ p ∈ ms, p.2.Keyed) :
    KeyedKeyword (.properties ms) := by
  have keys : OrderedMap.keys (propertyJsons ms) = ms.keys := by
    rw [propertyJsons_eq, OrderedMap.keys, List.map_map]
    rfl
  refine .object (keys ▸ distinct) ?_
  rw [propertyJsons_eq, List.forall_mem_map]
  exact h

/-! ## Schemas -/

/-- A first keyword behind the type, and others with scalars. -/
theorem keyed_ofType_cons {name : TypeName} (hk : KeyedKeyword k)
    (distinct : ((.type name :: k :: ks).map fun k => (member k).1).Nodup)
    (scalars : ks.all fun k => (member k).2.isScalar) : (ofType name (k :: ks)).Keyed := by
  refine keyed_ofKeywords.2 ⟨distinct, List.forall_mem_cons.2 ⟨.scalar rfl, List.forall_mem_cons.2 ⟨hk, ?_⟩⟩⟩
  exact fun k hk => .scalar (List.all_eq_true.1 scalars k hk)

theorem keyed_ofType_scalars {name : TypeName} (distinct : ((.type name :: ks).map fun k => (member k).1).Nodup)
    (scalars : ks.all fun k => (member k).2.isScalar) : (ofType name ks).Keyed := by
  refine keyed_ofKeywords.2 ⟨distinct, List.forall_mem_cons.2 ⟨.scalar rfl, ?_⟩⟩
  exact fun k hk => .scalar (List.all_eq_true.1 scalars k hk)

theorem keyed_single (h : KeyedKeyword k) : (ofKeywords [k]).Keyed :=
  keyed_ofKeywords.2 ⟨List.nodup_singleton _, List.forall_mem_singleton.2 h⟩

theorem keyed_null : null.Keyed := keyed_ofType_scalars (by decide) rfl

theorem keyed_const (text : String) : (const text).Keyed := keyed_single (.scalar rfl)

theorem keyed_fixedItems {version : SchemaVersion} (h : ∀ s ∈ ss, s.Keyed) : (fixedItems version ss).Keyed :=
  keyed_ofType_cons (keyed_schemas h) (by cases version <;> simp [member, Keyword.leadingKey, Keyword.moreItemsKey]) rfl

theorem keyed_object (required : List String) (distinct : ms.keys.Nodup) (h : ∀ p ∈ ms, p.2.Keyed) :
    (object ms (required.map .string)).Keyed := by
  refine keyed_ofKeywords.2 ⟨by simp [member], List.forall_mem_cons.2 ⟨.scalar rfl, List.forall_mem_cons.2 ⟨?_, ?_⟩⟩⟩
  · exact keyed_properties distinct h
  · exact List.forall_mem_singleton.2 (keyed_texts required)

theorem keyed_closedObject (required : List String) (distinct : ms.keys.Nodup) (h : ∀ p ∈ ms, p.2.Keyed) :
    (closedObject ms (required.map .string)).Keyed := by
  refine keyed_ofKeywords.2 ⟨by simp [member], List.forall_mem_cons.2 ⟨.scalar rfl, List.forall_mem_cons.2 ⟨?_, ?_⟩⟩⟩
  · exact keyed_properties distinct h
  · exact List.forall_mem_cons.2 ⟨keyed_texts required, List.forall_mem_singleton.2 (.scalar rfl)⟩

theorem Keyed.concat (h : s.Keyed) (hk : KeyedKeyword k)
    (new : (member k).1 ∉ s.keywords.map fun k => (member k).1) : (ofKeywords (s.keywords ++ [k])).Keyed := by
  obtain ⟨ks⟩ := s
  obtain ⟨distinct, parts⟩ := keyed_ofKeywords.1 h
  refine keyed_ofKeywords.2 ⟨?_, List.forall_mem_append.2 ⟨parts, List.forall_mem_singleton.2 hk⟩⟩
  rw [List.map_append, List.map_singleton]
  exact List.nodup_append'.2 ⟨distinct, List.nodup_singleton _, List.disjoint_singleton.2 new⟩

/-- A keyword of a kind is told by its key. -/
theorem keyed_set {isSame : Keyword Schema → Bool} (same : ∀ l, isSame l = true ↔ (member l).1 = (member k).1)
    (hk : KeyedKeyword k) (h : s.Keyed) : (s.set isSame k).Keyed := by
  obtain ⟨ks⟩ := s
  obtain ⟨distinct, parts⟩ := keyed_ofKeywords.1 h
  unfold set
  split
  · have keys : (ks.map fun l => if isSame l then k else l).map (fun k => (member k).1) =
        ks.map fun k => (member k).1 := by
      rw [List.map_map]
      refine List.map_congr_left fun l _ => ?_
      by_cases hl : isSame l = true
      · simp [hl, (same l).1 hl]
      · simp [hl]
    refine keyed_ofKeywords.2 ⟨keys ▸ distinct, List.forall_mem_map.2 fun l hl => ?_⟩
    split
    · exact hk
    · exact parts l hl
  · next new =>
    refine h.concat hk fun hm => new ?_
    obtain ⟨l, hl, e⟩ := List.mem_map.1 hm
    exact List.any_eq_true.2 ⟨l, hl, (same l).2 e⟩

theorem Keyed.annotate (h : s.Keyed) (lines : List String) (isDeprecated : Bool) :
    (s.annotate lines isDeprecated).Keyed := by
  have key (version : SchemaVersion) : Keyword.leadingKey version ∉ ["description", "deprecated"] ∧
      Keyword.moreItemsKey version ∉ ["description", "deprecated"] := by
    cases version <;> decide
  have described (text : String) (s : Schema) (h : s.Keyed) :
      (s.set Keyword.isDescription (.description text)).Keyed := by
    refine keyed_set (fun l => ?_) (.scalar rfl) h
    cases l <;> simp_all [Keyword.isDescription, member]
  have deprecated (s : Schema) (h : s.Keyed) : (s.set Keyword.isDeprecated .deprecated).Keyed := by
    refine keyed_set (fun l => ?_) (.scalar rfl) h
    cases l <;> simp_all [Keyword.isDeprecated, member]
  unfold Schema.annotate
  dsimp only
  split
  · split
    · exact deprecated _ h
    · exact deprecated _ (described _ _ h)
  · split
    · exact h
    · exact described _ _ h

theorem keyed_union (h : ∀ s ∈ ss, s.Keyed) : (anyOf ss).Keyed := by
  rcases anyOf_cases ss with hs | ⟨ts, hts, e⟩
  · exact h _ hs
  · rw [e]
    exact keyed_single (keyed_schemas fun t ht => h t (hts t ht))

end Schema

/-! ## Rendered schemas -/

namespace Context
open Schema

variable {c : Context} {stack : List TypeKey} {path : Path} {x : Schema}

/-- The labels of all enums that the walk of the renderer comes to are texts. -/
def HasTextLabels (c : Context) (stack : List TypeKey) (s : Shape) : Prop :=
  ∀ stack' name vs tagging, c.types.Visits stack s stack' (.enum name vs tagging) →
    (c.scope.overrides.effective name tagging).HasTextLabels

/-- Wherever the shape stands, its schema has distinct keys. -/
def Keys (c : Context) (stack : List TypeKey) (t : Shape) : Prop :=
  ∀ path x, c.schemaIn stack path t = .ok x → x.Keyed

theorem keyed_primitiveSchema {kind : Primitive} (h : c.primitiveSchema path kind = .ok x) : x.Keyed := by
  have bounds : (ofType .integer (integerBounds kind)).Keyed := by
    cases kind <;> exact keyed_ofType_scalars (by decide) rfl
  unfold primitiveSchema at h
  split at h
  · obtain ⟨behaviour, -, h⟩ := bind_eq_ok.1 h
    split at h
    · cases h
      exact keyed_ofType_scalars (by decide) rfl
    · cases h
      exact bounds
  · split at h
    · cases h
      exact bounds
    · split at h
      · cases h
        exact keyed_ofType_scalars (by simp [member]) rfl
      · split at h <;> cases h <;> exact keyed_ofType_scalars (by decide) rfl

theorem keyed_literalSchema (value : Literal) : (literalSchema value).Keyed := by
  cases value with
  | none => exact keyed_null
  | _ => exact keyed_single (.scalar rfl)

/-- The constraint on the keys of a map has texts in it. -/
theorem keyed_propertyNames? {seen : List TypeKey} {s : Shape} {names : Option Schema}
    (h : c.propertyNames? path seen s = .ok names) : ∀ x ∈ names, x.Keyed := by
  have some (k : Keyword Schema) (hk : KeyedKeyword k) : ∀ y ∈ some (ofKeywords [k]), y.Keyed := by
    rintro y ⟨⟩
    exact keyed_single hk
  fun_induction Context.propertyNames? c path seen s with
  | case1 _ _ ih | case13 _ _ _ _ _ _ ih => exact ih h
  | case3 =>
    cases h
    intro y hy
    cases hy
  | case4 | case5 | case7 =>
    cases h
    exact some _ (.scalar rfl)
  | case9 =>
    obtain ⟨r, -, rfl⟩ := map_eq_ok.1 h
    exact some _ (keyed_texts _)
  | _ => cases h

theorem keyed_elementSchemas {ss : List Shape} (parts : ∀ t ∈ ss, c.Keys stack t) {i : Nat} {xs : List Schema}
    (h : c.elementSchemas stack path i ss = .ok xs) : ∀ x ∈ xs, x.Keyed := by
  intro x hx
  rw [elementSchemas_eq_mapM] at h
  obtain ⟨p, hp, h⟩ := exists_of_mem_results h hx
  exact parts p.1 (List.fst_mem_of_mem_zipIdx hp) _ x h

theorem keyed_positionalSchemas {fs : List (Field (Option String) Shape)}
    (parts : ∀ f ∈ Field.kept fs, c.Keys stack f.ty) {i : Nat} {xs : List Schema}
    (h : c.positionalSchemas stack path i fs = .ok xs) : ∀ x ∈ xs, x.Keyed := by
  rw [positionalSchemas_eq] at h
  exact keyed_elementSchemas (List.forall_mem_map.2 parts) h

theorem keyed_memberSchemas {fs : List (Field String Shape)} (parts : ∀ f ∈ Field.kept fs, c.Keys stack f.ty)
    {ms : List (String × Schema × Bool)} (h : c.memberSchemas stack path fs = .ok ms) : ∀ m ∈ ms, m.2.1.Keyed := by
  intro m hm
  rw [memberSchemas_eq_mapM] at h
  obtain ⟨f, hf, h⟩ := exists_of_mem_results h hm
  obtain ⟨schema, hs, rfl⟩ := map_eq_ok.1 h
  exact (parts f hf _ schema hs).annotate _ _

theorem keyed_map {names : Option Schema} {value : Schema} (hn : ∀ x ∈ names, x.Keyed) (hv : value.Keyed) :
    (ofType .object ((names.map Keyword.propertyNames).toList ++ [.values value])).Keyed := by
  cases names with
  | none => exact keyed_ofType_cons hv (by simp [member]) rfl
  | some names =>
    refine keyed_ofKeywords.2 ⟨by simp [member], List.forall_mem_cons.2 ⟨.scalar rfl, ?_⟩⟩
    exact List.forall_mem_cons.2 ⟨hn names rfl, List.forall_mem_singleton.2 hv⟩

theorem keyed_unique {list : Schema} (h : list.Keyed)
    (new : "uniqueItems" ∉ list.keywords.map fun k => (member k).1) (unique : Bool) :
    (if unique then ofKeywords (list.keywords ++ [.uniqueItems]) else list).Keyed := by
  split
  · exact h.concat (.scalar rfl) new
  · exact h

/-! ### Bodies and variants -/

theorem keyed_objectSchema {o : OrderedMap Schema × List String} (distinct : o.1.keys.Nodup)
    (h : ∀ p ∈ o.1, p.2.Keyed) : (objectSchema o).Keyed := by
  unfold objectSchema
  split
  · exact keyed_ofType_scalars (by decide) rfl
  · exact keyed_ofType_cons (keyed_properties distinct h) (by simp [member]) rfl
  · exact keyed_object _ distinct h

theorem keyed_structTag (inner : Option String) (name : String) :
    ∀ p ∈ (inner.map fun t => (t, const name)).toList, p.2.Keyed := by
  cases inner with
  | none => exact List.forall_mem_nil _
  | some t => exact List.forall_mem_singleton.2 (keyed_const name)

theorem keyed_bodySchema {b : Body Shape} (parts : ∀ t ∈ b.kept, c.Keys stack t) {name : String}
    (h : c.bodySchema stack path name b = .ok x) : x.Keyed := by
  cases b with
  | unit =>
    rw [bodySchema] at h
    cases h
    exact keyed_null
  | positional fields =>
    rw [Body.kept, List.forall_mem_map] at parts
    unfold bodySchema at h
    split at h
    · next f =>
      split at h
      · cases h
        exact keyed_fixedItems (List.forall_mem_nil _)
      · next hf =>
        rw [Field.kept_cons_of_not_skip hf] at parts
        exact parts f List.mem_cons_self path x h
    · obtain ⟨items, hi, rfl⟩ := map_eq_ok.1 h
      exact keyed_fixedItems (keyed_positionalSchemas parts hi)
  | named tag fields =>
    rw [Body.kept, List.forall_mem_map] at parts
    rw [bodySchema_named] at h
    obtain ⟨members, hm, rfl⟩ := map_eq_ok.1 h
    exact keyed_objectSchema (nodup_objectOf_struct tag name members)
      (forall_mem_objectOf (keyed_structTag tag name) (keyed_memberSchemas parts hm))

theorem keyed_taggedSchema {tag : Schema} (ht : tag.Keyed) {fields : List (Field (Option String) Shape)}
    (parts : ∀ t ∈ (Body.positional fields).kept, c.Keys stack t) (h : c.taggedSchema stack tag path fields = .ok x) :
    x.Keyed := by
  rw [taggedSchema_eq] at h
  split at h
  · cases h
    exact ht
  · next s rest payloads =>
    obtain ⟨schema, hs, rfl⟩ := map_eq_ok.1 h
    have kept : s ∈ (Body.positional fields).kept := by
      rw [Body.kept, payloads]
      exact List.mem_cons_self
    refine keyed_single (keyed_schemas (List.forall_mem_cons.2 ⟨ht, List.forall_mem_singleton.2 ?_⟩))
    exact parts s kept path schema hs

/-- The labels of a representation are texts, and those of one object differ. -/
def HasDistinctLabels : Representation → Prop
  | .internal tag => ∃ text, tag = .string text
  | .adjacent tag content => ∃ text other, tag = .string text ∧ content = .string other ∧ text ≠ other
  | .external | .untagged | .strings _ => True

theorem hasDistinctLabels_of_represent {name : String} {vs : List (Variant Shape)} {tagging : Option Tagging}
    {r : Representation} (labels : (c.scope.overrides.effective name tagging).HasTextLabels)
    (h : c.scope.represent path name vs tagging = .ok r) : HasDistinctLabels r := by
  have represented := h
  unfold Scope.represent at h
  dsimp only at h
  split at h
  · cases h
    trivial
  · cases h
    trivial
  · next tag effective =>
    rw [effective] at labels
    obtain ⟨_, -, h⟩ := bind_eq_ok.1 h
    cases h
    exact labels
  · next tag content effective =>
    rw [effective] at labels
    obtain ⟨⟨text, rfl⟩, other, rfl⟩ := labels
    split at h
    · cases h
    · cases h
      exact ⟨text, other, rfl, rfl, Scope.labels_ne_of_represent represented⟩
  · split at h
    · obtain ⟨rule, -, rfl⟩ := map_eq_ok.1 h
      trivial
    · cases h

theorem keyed_variantSchema {r : Representation} (labels : HasDistinctLabels r) {b : Body Shape}
    (parts : ∀ t ∈ b.kept, c.Keys stack t) {key : String} (h : c.variantSchema stack r path key b = .ok x) :
    x.Keyed := by
  have entry (label : String) : ∀ p ∈ [(label, const key)], p.2.Keyed :=
    List.forall_mem_singleton.2 (keyed_const key)
  cases r with
  | strings rule =>
    rw [variantSchema] at h
    cases h
    exact keyed_const key
  | untagged =>
    rw [variantSchema] at h
    exact keyed_bodySchema parts h
  | external =>
    rw [variantSchema] at h
    split at h
    · cases h
      exact keyed_const key
    · obtain ⟨schema, hs, rfl⟩ := map_eq_ok.1 h
      exact keyed_closedObject [key] (List.nodup_singleton key)
        (List.forall_mem_singleton.2 (keyed_bodySchema parts hs))
  | internal tag =>
    obtain ⟨label, rfl⟩ := labels
    cases b with
    | unit =>
      rw [variantSchema] at h
      cases h
      exact keyed_object [label] (List.nodup_singleton label) (entry label)
    | positional fields =>
      rw [variantSchema] at h
      have tag : (object [(label, const key)] ([label].map .string)).Keyed :=
        keyed_object [label] (List.nodup_singleton label) (entry label)
      exact keyed_taggedSchema tag parts h
    | named inner fields =>
      rw [Body.kept, List.forall_mem_map] at parts
      rw [variantSchema_named] at h
      obtain ⟨members, hm, rfl⟩ := map_eq_ok.1 h
      refine keyed_object (label :: _) (nodup_withTag label _ _) (forall_mem_withTag (keyed_const key) ?_)
      exact forall_mem_objectOf (keyed_structTag inner key) (keyed_memberSchemas parts hm)
  | adjacent tag content =>
    obtain ⟨label, other, rfl, rfl, ne⟩ := labels
    rw [variantSchema] at h
    obtain ⟨_, ht, h⟩ := bind_eq_ok.1 h
    cases ht
    split at h
    · cases h
      exact keyed_closedObject [label] (List.nodup_singleton label) (entry label)
    · obtain ⟨schema, hs, h⟩ := bind_eq_ok.1 h
      cases h
      -- The label of the tag and that of the content are the only two keys, and they were checked to differ.
      refine keyed_closedObject [label, other] (by simpa [OrderedMap.keys] using ne) ?_
      exact List.forall_mem_cons.2 ⟨keyed_const key, List.forall_mem_singleton.2 (keyed_bodySchema parts hs)⟩

theorem keyed_variantSchemas {r : Representation} (labels : HasDistinctLabels r) {vs : List (Variant Shape)}
    (parts : ∀ v ∈ Variant.kept vs, ∀ t ∈ v.body.kept, c.Keys stack t) {xs : List Schema}
    (h : c.variantSchemas stack r path vs = .ok xs) : ∀ x ∈ xs, x.Keyed := by
  intro x hx
  rw [variantSchemas_eq_mapM] at h
  obtain ⟨v, hv, h⟩ := exists_of_mem_results h hx
  obtain ⟨schema, hs, rfl⟩ := map_eq_ok.1 h
  exact (keyed_variantSchema labels (parts v hv) hs).annotate _ _

/-! ### Shapes -/

theorem HasTextLabels.of_part {s t : Shape} (h : c.HasTextLabels stack s) (ht : t ∈ s.parts) :
    c.HasTextLabels stack t :=
  fun stack' name vs tagging hv => h stack' name vs tagging (.part ht hv)

/-- A rendered schema has distinct keys, if the labels on the way are texts. -/
theorem keyed_schemaIn {s : Shape} (labels : c.HasTextLabels stack s) : c.Keys stack s := by
  induction stack, s using Collection.renderInduction (c := c.types) with
  | reference stack id arguments ih =>
    intro path x h
    obtain ⟨r, hr, ⟨-, uri, -, rfl⟩ | ⟨hp, hm, hl, body, hb, rfl⟩⟩ := schemaIn_reference_eq_ok h
    · exact keyed_single (.scalar rfl)
    · -- The body stands in the place of the reference, so the walk goes on to its labels.
      have inside : c.HasTextLabels (id.key :: stack) (r.expand arguments) := fun stack' name vs tagging hv =>
        labels stack' name vs tagging (.expand hr hp hm hl hv)
      exact (ih r hm hr inside _ body hb).annotate _ _
  | parts stack s hs ih =>
    replace ih : ∀ t ∈ s.parts, c.Keys stack t := fun t ht => ih t ht (labels.of_part ht)
    intro path x h
    cases s with
    | primitive kind =>
      rw [schemaIn] at h
      exact keyed_primitiveSchema h
    | literal value =>
      rw [schemaIn] at h
      cases h
      exact keyed_literalSchema value
    | list element length unique =>
      rw [schemaIn] at h
      obtain ⟨item, hi, h⟩ := bind_eq_ok.1 h
      have hi : item.Keyed := ih element List.mem_cons_self path item hi
      cases length with
      | none =>
        cases h
        have items : KeyedKeyword (.items item) := hi
        refine keyed_unique (keyed_ofType_cons items (by simp [member]) rfl) ?_ unique
        simp [ofType, keywords, member]
      | some n =>
        cases h
        refine keyed_unique (keyed_fixedItems fun s hs => List.eq_of_mem_replicate hs ▸ hi) ?_ unique
        cases c.version <;> simp [fixedItems, ofType, keywords, member, Keyword.leadingKey, Keyword.moreItemsKey]
    | map key value =>
      rw [schemaIn] at h
      obtain ⟨names, hn, h⟩ := bind_eq_ok.1 h
      obtain ⟨v, hv, rfl⟩ := map_eq_ok.1 h
      have hv : v.Keyed := ih value List.mem_cons_self path v hv
      exact keyed_map (keyed_propertyNames? hn) hv
    | nullable inner =>
      rw [schemaIn] at h
      obtain ⟨schema, hi, rfl⟩ := map_eq_ok.1 h
      refine keyed_single (keyed_schemas (List.forall_mem_cons.2 ⟨?_, List.forall_mem_singleton.2 keyed_null⟩))
      exact ih inner List.mem_cons_self path schema hi
    | tuple elements =>
      cases elements with
      | nil =>
        rw [schemaIn] at h
        cases h
        exact keyed_null
      | cons t ts =>
        rw [schemaIn] at h
        · obtain ⟨items, hi, rfl⟩ := map_eq_ok.1 h
          exact keyed_fixedItems (keyed_elementSchemas ih hi)
        · intro ht
          cases ht
    | struct name body =>
      rw [schemaIn] at h
      exact keyed_bodySchema ih h
    | enum name vs tagging =>
      rw [schemaIn] at h
      split at h
      · cases h
        exact keyed_single (keyed_ofKeywords.2 ⟨List.nodup_nil, List.forall_mem_nil _⟩)
      · obtain ⟨r, hr, h⟩ := bind_eq_ok.1 h
        obtain ⟨schemas, hv, rfl⟩ := map_eq_ok.1 h
        have distinct := hasDistinctLabels_of_represent (labels _ name vs tagging (.here _ _)) hr
        refine keyed_union (keyed_variantSchemas distinct (fun v hv t ht => ?_) hv)
        exact ih t (List.mem_flatMap.2 ⟨v, hv, ht⟩)
    | reference id arguments => exact absurd rfl (hs id arguments)
    | foreign value =>
      rw [schemaIn] at h
      cases h
    | placeholder name =>
      rw [schemaIn] at h
      cases h

end Context

end JsonSchema

end ShapeExport
