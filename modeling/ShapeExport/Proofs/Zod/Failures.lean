import ShapeExport.Proofs.TypeScript.Failures
import ShapeExport.Proofs.Zod.Formed

/-!
# What Zod schemas fail with

A map key that is an integer is matched by its text, so its width does not count.

* `Shape.keyParts`, `Shape.schemaParts` : the shapes whose schemas go into the schema of a map key, and into the
  schema of a shape;
* `Export.SchemaRefuses`, `Export.KeyRefuses` : wherever a shape stands, or stands as a map key, its schema fails
  with an error of a set only, and it has none under a condition;
* `Export.refuses_schemaExpr` : a shape that finds its records fails with an error that the collection covers, and
  where wide integers are forbidden, one among the parts makes it fail.
-/

namespace ShapeExport

namespace Shape

/-- Keys that are primitives or literals are matched by texts, and a reference is followed into its record. -/
def keyParts (key : Shape) : List Shape :=
  match key.stripNullable with
  | .primitive _ | .literal _ | .reference .. => []
  | s => [s]

/-- The shapes whose schemas go into the schema of a shape. -/
def schemaParts : Shape → List Shape
  | .map key value => key.keyParts ++ [value]
  | s => s.kept

theorem schemaParts_of_ne_map {s : Shape} (h : ∀ key value, s ≠ .map key value) : s.schemaParts = s.kept := by
  cases s with
  | map key value => exact absurd rfl (h key value)
  | _ => rfl

theorem eq_of_mem_keyParts {key c : Shape} (h : c ∈ key.keyParts) : c = key.stripNullable := by
  unfold keyParts at h
  split at h
  · cases h
  · cases h
  · cases h
  · exact List.mem_singleton.1 h

theorem HasWide.of_keyParts {key c : Shape} (hc : c ∈ key.keyParts) (h : c.HasWide schemaParts) :
    key.HasWide schemaParts := by
  rw [eq_of_mem_keyParts hc] at h
  exact h.of_stripNullable List.mem_singleton_self

end Shape

namespace Export
open Zod Zod.Schema

variable {x : Export} {E : Error → Prop} {M : Shape → Prop} {left : Nat}

/-- Wherever the shape stands, its schema fails with an error of the set only, and it has none if `N`. -/
def SchemaRefuses (x : Export) (E : Error → Prop) (left : Nat) (N : Prop) (s : Shape) : Prop :=
  ∀ path, Refuses E N (x.schemaExpr left path s)

/-- Wherever the shape stands as a map key, its schema fails with an error of the set only, and it has none if
`N`. -/
def KeyRefuses (x : Export) (E : Error → Prop) (left : Nat) (N : Prop) (seen : List TypeKey) (s : Shape) : Prop :=
  ∀ path, Refuses E N (x.keySchema left seen path s)

/-! ## Lists of shapes and fields -/

theorem refuses_argumentSchemas {ss : List Shape} (hs : ∀ c ∈ ss, x.SchemaRefuses E left (M c) c) (path : Path) :
    Refuses E (∃ c ∈ ss, M c) (x.argumentSchemas left path ss) := by
  rw [argumentSchemas_eq_mapM]
  exact refuses_mapM fun c hc => hs c hc path

theorem refuses_elementSchemas {ss : List Shape} (hs : ∀ c ∈ ss, x.SchemaRefuses E left (M c) c) (path : Path)
    (i : Nat) : Refuses E (∃ c ∈ ss, M c) (x.elementSchemas left path i ss) := by
  rw [elementSchemas_eq_mapM]
  exact refuses_mapM_zipIdx (fun c hc j => hs c hc _) i

theorem refuses_memberSchemas {fs : List (Field String Shape)}
    (hs : ∀ c ∈ (Field.kept fs).map (·.ty), x.SchemaRefuses E left (M c) c) (path : Path) :
    Refuses E (∃ c ∈ (Field.kept fs).map (·.ty), M c) (x.memberSchemas left path fs) := by
  rw [memberSchemas_eq_mapM]
  have each : ∀ f ∈ Field.kept fs, Refuses E (M f.ty) (x.memberSchema left path f) := fun f hf =>
    (hs f.ty (List.mem_map_of_mem hf) _).map _
  refine (refuses_mapM each).of_imp ?_
  rintro ⟨_, hc, hm⟩
  obtain ⟨f, hf, rfl⟩ := List.mem_map.1 hc
  exact ⟨f, hf, hm⟩

/-- Only the first kept field is rendered beside a tag. -/
theorem refuses_taggedSchema {fs : List (Field (Option String) Shape)}
    (hs : ∀ c ∈ (Field.kept fs).map (·.ty), x.SchemaRefuses E left (M c) c) (single : (Field.kept fs).length ≤ 1)
    (tag : Zod.Member Schema) (path : Path) :
    Refuses E (∃ c ∈ (Field.kept fs).map (·.ty), M c) (x.taggedSchema left tag path fs) := by
  rw [← List.length_map (fun f => f.ty)] at single
  rw [taggedSchema_eq]
  split
  · next none =>
    rw [none]
    exact refuses_nil _
  · next s rest payloads =>
    rw [payloads] at hs single ⊢
    obtain rfl : rest = [] := List.length_eq_zero_iff.1 (by simpa using single)
    exact (refuses_map (hs s List.mem_cons_self path) _).singleton

/-! ## Bodies and variants -/

theorem refuses_bodySchema {b : Body Shape} (hs : ∀ c ∈ b.kept, x.SchemaRefuses E left (M c) c) (path : Path)
    (name : String) : Refuses E (∃ c ∈ b.kept, M c) (x.bodySchema left path name b) := by
  cases b with
  | unit =>
    rw [bodySchema]
    exact refuses_nil _
  | positional fields =>
    unfold bodySchema
    split
    · next f =>
      split
      · next hf =>
        rw [Body.kept, Field.kept_cons_of_skip hf]
        exact refuses_nil _
      · next hf =>
        rw [Body.kept, Field.kept_cons_of_not_skip hf] at hs ⊢
        exact (hs f.ty List.mem_cons_self path).singleton
    · rw [positionalSchemas_eq]
      exact (refuses_elementSchemas hs path 0).map _
  | named tag fields =>
    rw [bodySchema]
    refine (refuses_memberSchemas hs path).before fun members => ?_
    split <;> exact failsIn_ok _

theorem refuses_variantSchema (labels : ∀ e, e.IsBadLabel → E e) {r : Representation} {b : Body Shape}
    (hs : ∀ c ∈ b.kept, x.SchemaRefuses E left (M c) c) (fits : r.Fits b) (path : Path) (key : String) :
    Refuses E (∃ c ∈ b.kept, M c) (x.variantSchema left r path key b) := by
  have body : Refuses E (∃ c ∈ b.kept, M c) (x.bodySchema left path key b) := refuses_bodySchema hs path key
  have none {schema : Schema} (h : b.kept = []) : Refuses E (∃ c ∈ b.kept, M c) (.ok schema) := by
    rw [h]
    exact refuses_nil schema
  cases r with
  | strings rule =>
    rw [variantSchema]
    exact none fits
  | untagged =>
    rw [variantSchema]
    exact body
  | external =>
    rw [variantSchema]
    split
    · next hu => exact none (Body.kept_of_isUnit hu)
    · split
      · next ha => exact none (Body.kept_of_allSkipped ha)
      · exact body.map _
  | internal tag =>
    rw [variantSchema]
    refine (failsIn_labelText labels tag).after fun text _ => ?_
    cases b with
    | unit => exact none rfl
    | positional fields =>
      rw [Representation.Fits, Body.payloads, List.length_map] at fits
      exact refuses_taggedSchema hs fits _ path
    | named inner fields => exact (refuses_memberSchemas hs path).map _
  | adjacent tag content =>
    rw [variantSchema]
    refine (failsIn_labelText labels tag).after fun text _ => ?_
    split
    · next hu => exact none (Body.kept_of_isUnit hu)
    · exact body.before fun _ => (failsIn_labelText labels content).map _

theorem refuses_variantSchemas (labels : ∀ e, e.IsBadLabel → E e) {r : Representation} {vs : List (Variant Shape)}
    (hs : ∀ v ∈ Variant.kept vs, ∀ c ∈ v.body.kept, x.SchemaRefuses E left (M c) c)
    (fits : ∀ v ∈ Variant.kept vs, r.Fits v.body) (path : Path) :
    Refuses E (∃ v ∈ Variant.kept vs, ∃ c ∈ v.body.kept, M c) (x.variantSchemas left r path vs) := by
  rw [variantSchemas_eq_mapM]
  exact refuses_mapM fun v hv => refuses_variantSchema labels (hs v hv) (fits v hv) _ _

/-! ## Shapes -/

theorem refuses_primitiveSchema {kind : Primitive} (wide : kind.isBigInt → WideIn E) (path : Path) :
    Refuses E (x.config.bigint = .fail ∧ kind.isBigInt) (x.primitiveSchema path kind) := by
  unfold primitiveSchema
  split
  · next hk =>
    refine ⟨(failsIn_bigIntAt (wide hk) x.config path).bind fun policy _ => ?_, fun ⟨hf, _⟩ schema h => ?_⟩
    · split <;> exact failsIn_ok _
    · rw [Config.bigIntAt, if_pos hf] at h
      cases h
  · next hk =>
    have fine {schema : Schema} : Refuses E (x.config.bigint = .fail ∧ kind.isBigInt) (.ok schema) :=
      (refuses_ok schema).of_imp fun h => hk h.2
    split
    · exact fine
    · split
      · exact fine
      · split <;> exact fine

/-- Wide integers are forbidden, and one goes into the schema of the shape. -/
def WideSchema (x : Export) (s : Shape) : Prop := x.config.bigint = .fail ∧ s.HasWide Shape.schemaParts

/-- Wide integers are forbidden, and one goes into the schema of the map key. -/
def WideKey (x : Export) (s : Shape) : Prop :=
  x.config.bigint = .fail ∧ ∃ c ∈ s.keyParts, c.HasWide Shape.schemaParts

section Steps

variable {s : Shape} (found : x.types.Finds E s)
include found

/-- A shape fails if one of its parts does, and else with an error that the collection covers. -/
theorem refuses_schemaExpr_step (admits : x.types.AdmitsLabels E) (hs : ∀ kind, s ≠ .primitive kind)
    (hm : ∀ key value, s ≠ .map key value) (plain : ∀ c ∈ s.kept, x.SchemaRefuses E left (M c) c) :
    x.SchemaRefuses E left (∃ c ∈ s.kept, M c) s := by
  intro path
  have none {schema : Schema} (h : s.kept = []) : Refuses E (∃ c ∈ s.kept, M c) (.ok schema) := by
    rw [h]
    exact refuses_nil schema
  cases s with
  | primitive kind => exact absurd rfl (hs kind)
  | map key value => exact absurd rfl (hm key value)
  | literal | placeholder =>
    rw [schemaExpr]
    exact none rfl
  | foreign value =>
    cases value with
    | verbatim text =>
      rw [schemaExpr]
      exact none rfl
    | named kind =>
      rw [schemaExpr]
      exact refuses_error (admits.own _ trivial)
  | list element length =>
    rw [schemaExpr]
    refine (plain element List.mem_cons_self path).singleton.before fun _ => ?_
    split <;> exact failsIn_ok _
  | nullable inner =>
    rw [schemaExpr]
    exact ((plain inner List.mem_cons_self path).map _).singleton
  | tuple elements =>
    cases elements with
    | nil =>
      rw [schemaExpr]
      exact none rfl
    | cons t ts =>
      rw [schemaExpr]
      · exact (refuses_elementSchemas plain path 0).map _
      · intro ht
        cases ht
  | struct name body =>
    rw [schemaExpr]
    exact refuses_bodySchema plain _ name
  | enum name vs tagging =>
    have variants : ∀ v ∈ Variant.kept vs, ∀ c ∈ v.body.kept, x.SchemaRefuses E left (M c) c :=
      fun v hv c hc => plain c (List.mem_flatMap.2 ⟨v, hv, hc⟩)
    rw [schemaExpr]
    split
    · next hv =>
      refine none ?_
      show (Variant.kept vs).flatMap (·.body.kept) = []
      rw [List.isEmpty_iff.1 hv, List.flatMap_nil]
    · refine (admits.represent x.scope found _).after fun r hr => (Refuses.map ?_ _).of_imp Shape.exists_mem_variant
      exact refuses_variantSchemas admits.labels variants (Scope.fits_of_represent hr) _
  | reference id arguments =>
    rw [schemaExpr]
    exact (failsIn_target found path).after fun _ _ => (refuses_argumentSchemas plain path).map _

/-- A key is followed into records at the cost of an expansion. Where it comes to a record that is on the way
already, the reference is rendered as it is. -/
theorem refuses_keySchema_step (covers : x.types.Covers E) {seen : List TypeKey}
    (expanded : ∀ m r arguments, left = m + 1 → r ∈ x.types.members → x.types.Finds E (r.expand arguments) →
      ∀ k, x.KeyRefuses E m False (k :: seen) (r.expand arguments))
    (again : seen ≠ [] → x.SchemaRefuses E left False s)
    (self : s ∈ s.keyParts → x.SchemaRefuses E left (x.WideSchema s) s)
    (inner : ∀ t, s = .nullable t → x.KeyRefuses E left (x.WideKey t) seen t) :
    x.KeyRefuses E left (x.WideKey s) seen s := by
  intro path
  have none {schema : Except Error Schema} (h : s.keyParts = []) (hx : FailsIn E schema) :
      Refuses E (x.WideKey s) schema := by
    refine hx.refuses.of_imp ?_
    rintro ⟨-, c, hc, -⟩
    rw [h] at hc
    cases hc
  have whole (h : s.keyParts = [s]) : Refuses E (x.WideKey s) (x.schemaExpr left path s) := by
    refine (self (by rw [h]; exact List.mem_singleton_self s) path).of_imp fun ⟨hf, c, hc, hw⟩ => ⟨hf, ?_⟩
    rw [h] at hc
    rwa [List.mem_singleton.1 hc] at hw
  cases s with
  | nullable t =>
    rw [keySchema]
    exact inner t rfl path
  | primitive kind =>
    rw [keySchema]
    split
    · exact none rfl (failsIn_ok _)
    · next hk =>
      split
      · exact none rfl (failsIn_ok _)
      · refine none rfl ?_
        rw [schemaExpr]
        exact (refuses_primitiveSchema (fun hb => absurd (Primitive.isInteger_of_isBigInt hb) hk) path).failsIn
  | literal value =>
    rw [keySchema]
    exact none rfl (failsIn_ok _)
  | reference id arguments =>
    cases left with
    | zero =>
      rw [keySchema]
      split
      · next hs => exact none rfl (again (List.ne_nil_of_mem hs) path).failsIn
      · exact none rfl (failsIn_error (covers.other _ trivial))
    | succ m =>
      rw [keySchema]
      split
      · next hs => exact none rfl (again (List.ne_nil_of_mem hs) path).failsIn
      · refine none rfl ((failsIn_target found path).bind fun r hr => ?_)
        have member : r ∈ x.types.members := Collection.mem_members_of_resolve (resolve_of_target hr)
        have body : x.types.Finds E (r.expand arguments) := found.expand (covers.records r member)
        exact (expanded m r arguments rfl member body _ path).failsIn
  | _ =>
    simp only [keySchema]
    exact whole rfl

end Steps

/-- The refusals of wide integers are in `E` if one goes into the schema of the map key. A key that a reference
was followed for may be rendered as a whole. -/
def KeyWideIn (E : Error → Prop) (seen : List TypeKey) (s : Shape) : Prop :=
  ((∃ c ∈ s.keyParts, c.HasWide Shape.schemaParts) → WideIn E) ∧
    (seen ≠ [] → s.HasWide Shape.schemaParts → WideIn E)

section Records

variable (covers : x.types.Covers E)
  (records : ∀ r ∈ x.types.members, ∀ arguments, (r.expand arguments).HasWide Shape.schemaParts → WideIn E)
include covers records

theorem refuses_schemas (expanded : ∀ m t, left = m + 1 → x.types.Finds E t → ∀ seen, KeyWideIn E seen t →
      x.KeyRefuses E m (x.WideKey t) seen t) {s : Shape} (found : x.types.Finds E s) :
    ((s.HasWide Shape.schemaParts → WideIn E) → x.SchemaRefuses E left (x.WideSchema s) s) ∧
      ∀ seen, KeyWideIn E seen s → x.KeyRefuses E left (x.WideKey s) seen s := by
  induction s using Shape.childInduction with
  | step s ih =>
    have kept := fun c (hc : c ∈ s.kept) => ih c (Shape.mem_children_of_mem_kept hc) (found.of_mem_kept hc)
    -- The schema first, for the key of a shape may be its schema.
    have self : (s.HasWide Shape.schemaParts → WideIn E) → x.SchemaRefuses E left (x.WideSchema s) s := by
      intro wide path
      by_cases hs : ∃ kind, s = .primitive kind
      · obtain ⟨kind, rfl⟩ := hs
        rw [schemaExpr]
        refine (refuses_primitiveSchema (fun hk => wide (.here hk)) path).of_imp fun h => ⟨h.1, ?_⟩
        exact (Shape.hasWide_primitive rfl).1 h.2
      have hs : ∀ kind, s ≠ .primitive kind := fun kind e => hs ⟨kind, e⟩
      by_cases hm : ∃ key value, s = .map key value
      · obtain ⟨key, value, rfl⟩ := hm
        have value_mem : value ∈ (Shape.map key value).schemaParts :=
          List.mem_append_right _ (List.mem_singleton_self value)
        have keys : x.KeyRefuses E left (x.WideKey key) [] key := by
          refine (kept key List.mem_cons_self).2 [] ⟨?_, fun h => absurd rfl h⟩
          rintro ⟨c, hc, hw⟩
          exact wide (.part (List.mem_append_left _ hc) hw)
        have values := (kept value (List.mem_cons_of_mem _ List.mem_cons_self)).1 fun hw => wide (.part value_mem hw)
        rw [schemaExpr]
        refine ((keys path).bind fun _ _ => (values path).map _).of_imp ?_
        rintro ⟨hf, hw⟩
        obtain ⟨c, hc, hw⟩ := (Shape.hasWide_iff hs).1 hw
        rcases List.mem_append.1 hc with hc | hc
        · exact Or.inl ⟨hf, c, hc, hw⟩
        · rw [List.mem_singleton.1 hc] at hw
          exact Or.inr ⟨hf, hw⟩
      · have hm : ∀ key value, s ≠ .map key value := fun key value e => hm ⟨key, value, e⟩
        have parts : s.schemaParts = s.kept := Shape.schemaParts_of_ne_map hm
        refine (refuses_schemaExpr_step found covers.admits (M := x.WideSchema) hs hm ?_ path).of_imp ?_
        · exact fun c hc => (kept c hc).1 fun hw => wide (.part (parts ▸ hc) hw)
        · rintro ⟨hf, hw⟩
          obtain ⟨c, hc, hw⟩ := (Shape.hasWide_iff hs).1 hw
          exact ⟨c, parts ▸ hc, hf, hw⟩
    refine ⟨self, fun seen wide => refuses_keySchema_step found covers ?_ ?_ ?_ ?_⟩
    · intro m r arguments hm member body k path
      have inside := records r member arguments
      refine (expanded m _ hm body (k :: seen) ⟨?_, fun _ => inside⟩ path).of_imp False.elim
      rintro ⟨c, hc, hw⟩
      exact inside (.of_keyParts hc hw)
    · intro hs path
      exact (self (wide.2 hs) path).of_imp False.elim
    · exact fun hs => self fun hw => wide.1 ⟨s, hs, hw⟩
    · rintro t rfl
      refine (kept t List.mem_cons_self).2 seen ⟨wide.1, fun hs hw => wide.2 hs (.part ?_ hw)⟩
      exact List.mem_singleton_self t

theorem refuses_keySchema (left : Nat) {s : Shape} (found : x.types.Finds E s) {seen : List TypeKey}
    (wide : KeyWideIn E seen s) : x.KeyRefuses E left (x.WideKey s) seen s := by
  induction left generalizing s seen with
  | zero =>
    refine (refuses_schemas covers records (fun m t hm => ?_) found).2 seen wide
    cases hm
  | succ left ih =>
    refine (refuses_schemas covers records (fun m t hm ht seen wide => ?_) found).2 seen wide
    cases hm
    exact ih ht wide

/-- A wide integer among the parts is an error exactly where the policy forbids it. -/
theorem refuses_schemaExpr (left : Nat) {s : Shape} (found : x.types.Finds E s)
    (wide : s.HasWide Shape.schemaParts → WideIn E) : x.SchemaRefuses E left (x.WideSchema s) s :=
  (refuses_schemas covers records (fun m _ _ ht _ => refuses_keySchema covers records m ht) found).1 wide

end Records

end Export

end ShapeExport
