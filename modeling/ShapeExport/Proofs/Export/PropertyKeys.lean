import Mathlib
import ShapeExport.Proofs.TypeScript.KeyUnion
import ShapeExport.Proofs.Validation.Acceptance
import ShapeExport.Proofs.Validation.Union

/-!
# Keys of mapped types

A map is written as a mapped type over the type of its key. The key is followed through the names of a
document down to the types that may be keys of properties.

* `Export.WritesKey` : the map keys that are written as unions of property keys;
* `Export.Declares` : statements that declare the records of an export;
* `Export.keyUnion_of_writesKey`, `Export.writesKey_of_keyUnion` : of the keys that the validator admits these
  and no others come out as unions of property keys;
* `Export.exists_map_of_mapped` : the mapped types in a rendering come from maps;
* `Export.mapped_keys` : the mapped types in a document.
-/

namespace ShapeExport
open TypeScript TypeScript.TypeExpr

namespace Shape

/-- There are no type parameters and no foreign shapes at kept positions. -/
def IsClosed (s : Shape) : Prop :=
  ∀ t, s.Holds t → (∀ name, t ≠ .placeholder name) ∧ ∀ value, t ≠ .foreign value

theorem IsClosed.of_holds {s t : Shape} (h : s.IsClosed) (ht : s.Holds t) : t.IsClosed :=
  fun u hu => h u (ht.trans hu)

theorem IsClosed.of_kept {s c : Shape} (h : s.IsClosed) (hc : c ∈ s.kept) : c.IsClosed :=
  h.of_holds (.of_mem hc)

theorem holds_stripNullable (s : Shape) : s.Holds s.stripNullable := by
  fun_induction stripNullable s with
  | case1 inner ih => exact .child (List.mem_singleton_self inner) ih
  | case2 => exact .here _

end Shape

namespace Export

variable {x : Export} {D : List Statement} {path : Path}

/-! ## Keys that are written as property keys -/

/-- The shape is written as strings, as numbers or as a literal of these. -/
def IsKeyLeaf : Shape → Prop
  | .primitive kind => kind ≠ .bool
  | .literal value => isKeyLiteral value
  | _ => False

/-- The shape is written as a union of strings, numbers and literals of both. -/
def WritesKey (x : Export) (s : Shape) : Prop := x.scope.IsUnion IsKeyLeaf s

/-- The statements declare each record under its name, as what its shape renders to. -/
structure Declares (x : Export) (D : List Statement) : Prop where
  names : DeclaresNames D
  exists_alias {r : Record} : r ∈ x.types.members → ∃ type,
    .typeAlias (x.displayName r) r.parameters type ∈ D ∧ x.typeExpr [r.name] r.shape = .ok type
  unique {r : Record} {ps : List String} {type : TypeExpr} : r ∈ x.types.members →
    .typeAlias (x.displayName r) ps type ∈ D → x.typeExpr [r.name] r.shape = .ok type
  exists_record {name : String} {ps : List String} {type : TypeExpr} : .typeAlias name ps type ∈ D →
    ∃ r ∈ x.types.members, name = x.displayName r

/-! ## Renderings of enums -/

/-- An enum with a kept variant renders to the union of what its variants render to. -/
theorem typeExpr_enum {name : String} {vs : List (Variant Shape)} {tagging : Option Tagging} {e : TypeExpr}
    (hne : Variant.kept vs ≠ []) (h : x.typeExpr path (.enum name vs tagging) = .ok e) :
    ∃ path' r es, x.scope.represent path' name vs tagging = .ok r ∧ es ≠ [] ∧ e = unionOf es ∧
      ((Variant.kept vs).mapM fun v => x.variantExpr r (path' ++ [v.name]) (r.variantKey v) v.body) =
        .ok es := by
  rw [typeExpr, if_neg (by simpa using hne)] at h
  obtain ⟨r, hr, h⟩ := bind_eq_ok.1 h
  obtain ⟨es, hes, h⟩ := bind_eq_ok.1 h
  cases h
  rw [variantExprs_eq_mapM] at hes
  refine ⟨_, r, es, hr, ?_, rfl, hes⟩
  rintro rfl
  obtain ⟨v, hv⟩ := List.exists_mem_of_ne_nil _ hne
  obtain ⟨e, he, -⟩ := exists_of_mapM hes hv
  cases he

theorem typeExpr_empty_enum {name : String} {vs : List (Variant Shape)} {tagging : Option Tagging}
    (h : Variant.kept vs = []) : x.typeExpr path (.enum name vs tagging) = .ok (.builtin "never") := by
  rw [typeExpr, if_pos (by simp [h])]

theorem variantExpr_unit_constant {r : Representation} (hr : r = .external ∨ ∃ rule, r = .strings rule)
    {key : String} {b : Body Shape} (hb : b.isUnit) :
    x.variantExpr r path key b = .ok (stringConstant key) := by
  rcases hr with rfl | ⟨rule, rfl⟩
  · rw [variantExpr, if_pos hb]
  · rw [variantExpr]

theorem bodyExpr_newtype {f : Field (Option String) Shape} (h : f.skip = false) (path : Path) (key : String) :
    x.bodyExpr path key (.positional [f]) = x.typeExpr path f.ty := by
  rw [bodyExpr, if_neg (by simp [h])]

/-! ## Keys that are unions of property keys -/

theorem covers_of_isClosed (checked : x.checkNames = .ok ()) {s : Shape} (closed : s.IsClosed) :
    plainNames.Covers x s :=
  covers_of_checkNames checked (fun name h => absurd rfl ((closed _ h).1 name))
    fun _ h => (closed _ h).2 _ rfl

theorem exists_whole_of_formed {e : TypeExpr} (h : Formed plainNames e) :
    ∃ outer, Whole e.text.toList outer := by
  obtain ⟨outer, hw, -⟩ := h.hasOperators.outside
  exact ⟨outer, hw⟩

theorem keyUnion_builtin {name : String} (h : name ∈ ["string", "number", "never"]) :
    KeyUnion D (TypeExpr.builtin name).text.toList :=
  .atom (.builtin h)

theorem keyUnion_primitive (bigint : x.config.bigint = .string ∨ x.config.bigint = .number) {kind : Primitive}
    (hk : kind ≠ .bool) {e : TypeExpr} (h : x.typeExpr path (.primitive kind) = .ok e) :
    KeyUnion D e.text.toList := by
  rw [typeExpr] at h
  unfold primitiveExpr Config.bigIntAt at h
  split at h
  · rcases bigint with hp | hp
    · rw [hp] at h
      cases h
      exact keyUnion_builtin (by decide)
    · rw [hp] at h
      cases h
      exact keyUnion_builtin (by decide)
  · split at h
    · cases h
      exact keyUnion_builtin (by decide)
    · split at h
      · cases h
        exact keyUnion_builtin (by decide)
      · cases kind <;> simp_all [Primitive.isNumber, Primitive.isInteger,
          Primitive.isBigInt, Primitive.isFloat, Primitive.isStringLike]

theorem keyUnion_of_writesKey (declares : x.Declares D) (checked : x.checkNames = .ok ())
    (records : ∀ r ∈ x.types.members, r.shape.IsClosed)
    (bigint : x.config.bigint = .string ∨ x.config.bigint = .number) {s : Shape} (h : x.WritesKey s)
    (closed : s.IsClosed) {e : TypeExpr} (he : x.typeExpr path s = .ok e) : KeyUnion D e.text.toList := by
  have union {es : List TypeExpr} (hne : es ≠ []) (all : ∀ e ∈ es, KeyUnion D e.text.toList) :
      KeyUnion D (unionOf es).text.toList :=
    (KeyUnion.unionOf_iff declares.names hne fun e he => (all e he).exists_whole declares.names).2 all
  induction h generalizing path e with
  | @leaf s hs =>
    cases s with
    | primitive kind => exact keyUnion_primitive bigint hs he
    | literal value =>
      rw [typeExpr] at he
      cases he
      exact .atom (keyAtom_literal hs)
    | _ => exact hs.elim
  | @reference id arguments r hr _ ih =>
    obtain ⟨q, es, hq, hes, rfl⟩ := typeExpr_reference_eq_ok he
    obtain rfl := Option.some.inj (hr.symm.trans hq)
    have hm := Collection.mem_members_of_resolve hr
    obtain ⟨type, hd, ht⟩ := declares.exists_alias hm
    -- What the name stands for is known by induction; of the arguments only the brackets matter.
    have formed := yields_argumentExprs (P := Formed plainNames)
      (fun c hc _ _ => formed_typeExpr (covers_of_isClosed checked (closed.of_kept hc))) hes
    obtain ⟨cs, ha, text⟩ := exists_arguments r.id.key (x.displayName r) formed.2
    rw [text]
    exact .named hd ha (ih (records r hm) ht)
  | never hv =>
    rw [typeExpr_empty_enum hv] at he
    cases he
    exact keyUnion_builtin (by decide)
  | @constants name vs tagging hc hu =>
    by_cases hne : Variant.kept vs = []
    · rw [typeExpr_empty_enum hne] at he
      cases he
      exact keyUnion_builtin (by decide)
    obtain ⟨path', r, es, hr, hes, rfl, rendered⟩ := typeExpr_enum hne he
    refine union hes fun e he => ?_
    obtain ⟨v, hv, h⟩ := exists_of_mem_results rendered he
    rw [variantExpr_unit_constant (Scope.writesConstants_of_represent hr hc) (hu v hv)] at h
    cases h
    exact .atom (.literal _)
  | @payloads name vs tagging hu hn _ ih =>
    by_cases hne : Variant.kept vs = []
    · rw [typeExpr_empty_enum hne] at he
      cases he
      exact keyUnion_builtin (by decide)
    obtain ⟨path', r, es, hr, hes, rfl, rendered⟩ := typeExpr_enum hne he
    refine union hes fun e he => ?_
    obtain ⟨v, hv, h⟩ := exists_of_mem_results rendered he
    obtain rfl := Scope.represent_of_isUntagged hr hu
    obtain ⟨f, hf, hb⟩ := Body.exists_of_isNewtype (hn v hv)
    have ht : f.ty ∈ v.body.kept := by
      rw [hb, Body.kept_newtype hf]
      exact List.mem_singleton_self _
    rw [variantExpr, hb, bodyExpr_newtype hf] at h
    exact ih v hv f.ty ht (closed.of_kept (List.mem_flatMap.2 ⟨v, hv, ht⟩)) h

/-! ## And no others -/

section Converse

variable (declares : x.Declares D) (checked : x.checkNames = .ok ())
include declares

theorem not_keyUnion_null : ¬ KeyUnion D null.text.toList :=
  KeyUnion.not_null declares.names

theorem not_keyUnion_tuple (es : List TypeExpr) : ¬ KeyUnion D (TypeExpr.tuple es).text.toList := by
  cases es with
  | nil =>
    show ¬ KeyUnion D ['[', ']']
    exact KeyUnion.not_head declares.names rfl
  | cons e es =>
    have start : (TypeExpr.tuple (e :: es)).text.toList =
        '[' :: (e.text ++ texts ", " es ++ "]").toList := by
      show ("[" ++ e.text ++ texts ", " es ++ "]").toList = _
      simp
    rw [start]
    exact KeyUnion.not_head declares.names rfl

theorem not_keyUnion_grouped (e : TypeExpr) : ¬ KeyUnion D (TypeExpr.grouped e).text.toList := by
  have start : (TypeExpr.grouped e).text.toList = '(' :: (e.text ++ ")").toList := by
    show ("(" ++ e.text ++ ")").toList = _
    simp
  rw [start]
  exact KeyUnion.not_head declares.names rfl

theorem not_keyUnion_object (m : Member TypeExpr) (ms : List (Member TypeExpr)) :
    ¬ KeyUnion D (TypeExpr.object (m :: ms)).text.toList := by
  have start : (TypeExpr.object (m :: ms)).text.toList =
      '\x7b' :: (" " ++ memberText m ++ memberTexts ms ++ " \x7d").toList := by
    show ("\x7b " ++ memberText m ++ memberTexts ms ++ " \x7d").toList = _
    simp
  rw [start]
  exact KeyUnion.not_head declares.names rfl

/-- A nullable type ends with null. -/
theorem not_keyUnion_nullableOf (e : TypeExpr) : ¬ KeyUnion D e.nullableOf.text.toList := by
  intro h
  refine h.not_suffix declares.names ?_
  unfold TypeExpr.nullableOf
  split
  · next ends => exact Text.endsWith_iff.1 ends
  · exact ⟨e.text.toList, by show _ = (e.text ++ " | null").toList; simp⟩

/-- A number that is not finite is written as a word. -/
theorem isKeyLiteral_of_keyUnion
    (plain : ∀ r ∈ x.types.members, x.displayName r ≠ "nan" ∧ x.displayName r ≠ "inf") {l : Literal}
    (hl : l.isKey) (h : KeyUnion D l.typeExpr.text.toList) : isKeyLiteral l := by
  have undeclared {w : String} (hw : w = "nan" ∨ w = "inf" ∨ isTypeName w = false) (ps : List String)
      (type : TypeExpr) : .typeAlias w ps type ∉ D := by
    intro hd
    obtain ⟨r, hr, rfl⟩ := declares.exists_record hd
    rcases hw with hw | hw | hw
    · exact (plain r hr).1 hw
    · exact (plain r hr).2 hw
    · rw [declares.names.typeName hd] at hw
      cases hw
  cases l with
  | bool | none => cases hl
  | string | char | integer => rfl
  | float width value =>
    cases value with
    | integer => rfl
    | double d =>
      cases d with
      | finite => rfl
      | nan serial =>
        exact absurd h (KeyUnion.not_word declares.names (w := "nan") (by decide) (by decide)
          (undeclared (Or.inl rfl)))
      | infinite negative =>
        cases negative
        · exact absurd h (KeyUnion.not_word declares.names (w := "inf") (by decide) (by decide)
            (undeclared (Or.inr (Or.inl rfl))))
        · exact absurd h (KeyUnion.not_word declares.names (w := "-inf") (by decide) (by decide)
            (undeclared (Or.inr (Or.inr (by decide)))))

/-- A positional body of an untagged variant is written as its type, if it was declared with a single field,
and as a tuple otherwise. -/
theorem isNewtype_of_keyUnion {b : Body Shape} (hb : b.isPositional ∨ b.isUnit) {key : String} {e : TypeExpr}
    (he : x.bodyExpr path key b = .ok e) (h : KeyUnion D e.text.toList) : b.isNewtype := by
  cases b with
  | named => simp [Body.isPositional, Body.isUnit] at hb
  | unit =>
    rw [bodyExpr] at he
    cases he
    exact absurd h (not_keyUnion_null declares)
  | positional fields =>
    unfold bodyExpr at he
    split at he
    · next f =>
      split at he
      · cases he
        exact absurd h (not_keyUnion_tuple declares [])
      · next hf => simpa [Body.isNewtype] using hf
    · obtain ⟨es, -, he⟩ := bind_eq_ok.1 he
      cases he
      exact absurd h (not_keyUnion_tuple declares es)

/-- A unit with a tag is written as an object. -/
theorem writesConstants_of_keyUnion {name : String} {vs : List (Variant Shape)} {tagging : Option Tagging}
    {r : Representation} (hr : x.scope.represent path name vs tagging = .ok r)
    (hu : (x.scope.overrides.effective name tagging).isUntagged = false) {key : String} {path' : Path}
    {e : TypeExpr} (he : x.variantExpr r path' key .unit = .ok e) (h : KeyUnion D e.text.toList) :
    (x.scope.overrides.effective name tagging).writesConstants := by
  cases hc : (x.scope.overrides.effective name tagging).writesConstants with
  | true => rfl
  | false =>
    rcases Scope.tagged_of_represent hr hu hc with ⟨tag, rfl⟩ | ⟨tag, content, rfl⟩
    all_goals
      rw [variantExpr] at he
      obtain ⟨tag, -, he⟩ := bind_eq_ok.1 he
      cases he
    · exact absurd h (not_keyUnion_grouped declares _)
    · exact absurd h (not_keyUnion_object declares _ _)

include checked

theorem writesKey_of_keyUnion (records : ∀ r ∈ x.types.members, r.shape.IsClosed)
    (plain : ∀ r ∈ x.types.members, x.displayName r ≠ "nan" ∧ x.displayName r ≠ "inf")
    {seen : List TypeKey} {s : Shape} (hk : x.scope.IsKey true seen s) (closed : s.IsClosed) {e : TypeExpr}
    (he : x.typeExpr path s = .ok e) (h : KeyUnion D e.text.toList) : x.WritesKey s := by
  induction seen, s using Collection.seenInduction (c := x.types) generalizing path e with
  | step seen s ih it =>
    cases s with
    | list => exact absurd hk Scope.not_isKey_list
    | map => exact absurd hk Scope.not_isKey_map
    | tuple => exact absurd hk Scope.not_isKey_tuple
    | struct => exact absurd hk Scope.not_isKey_struct
    | placeholder name => exact absurd rfl ((closed _ (.here _)).1 name)
    | foreign value => exact absurd rfl ((closed _ (.here _)).2 value)
    | primitive kind =>
      refine .leaf ?_
      rintro rfl
      cases Scope.isKey_primitive.1 hk
    | literal value =>
      rw [typeExpr] at he
      cases he
      exact .leaf (isKeyLiteral_of_keyUnion declares plain (Scope.isKey_literal.1 hk) h)
    | nullable inner =>
      rw [typeExpr] at he
      obtain ⟨t, -, he⟩ := bind_eq_ok.1 he
      cases he
      exact absurd h (not_keyUnion_nullableOf declares t)
    | reference id arguments =>
      obtain ⟨hn, r, hr, hk⟩ := Scope.isKey_reference.1 hk
      obtain ⟨q, es, hq, hes, rfl⟩ := typeExpr_reference_eq_ok he
      obtain rfl := Option.some.inj (hr.symm.trans hq)
      have hm := Collection.mem_members_of_resolve hr
      obtain ⟨type, hd, ht⟩ := declares.exists_alias hm
      have nameType := declares.names.typeName hd
      have formed := yields_argumentExprs (P := Formed plainNames)
        (fun c hc _ _ => formed_typeExpr (covers_of_isClosed checked (closed.of_kept hc))) hes
      obtain ⟨cs, ha, text⟩ := exists_arguments r.id.key (x.displayName r) formed.2
      rw [text] at h
      -- A name with arguments is a single member, so it is an atom or the name of a declared union.
      rcases h.of_single declares.names (isMember_named nameType ha).single with
        hatom | ⟨name, arguments', ps, type', e, hd', ha', ht'⟩
      · exact absurd hatom (KeyAtom.not_name nameType (declares.names.unreserved hd) ha)
      · obtain rfl : x.displayName r = name :=
          name_eq_of_arguments nameType (declares.names.typeName hd') ha ha' e
        exact .reference hr
          (it id.key r hn hr r.shape hk.of_expand (records r hm) (declares.unique hm hd') ht')
    | enum name vs tagging =>
      by_cases hne : Variant.kept vs = []
      · exact .never hne
      obtain ⟨path', r, es, hr, hes, rfl, rendered⟩ := typeExpr_enum hne he
      have child {v : Variant Shape} (hv : v ∈ Variant.kept vs) {c : Shape} (hc : c ∈ v.body.kept) :
          c ∈ (Shape.enum name vs tagging).kept := List.mem_flatMap.2 ⟨v, hv, hc⟩
      have whole : ∀ e ∈ es, ∃ outer, Whole e.text.toList outer := by
        intro e he
        obtain ⟨v, hv, h⟩ := exists_of_mem_results rendered he
        refine exists_whole_of_formed (yields_variantExpr (builds_formed plainNames) (fun c hc _ _ => ?_) h)
        exact formed_typeExpr (covers_of_isClosed checked (closed.of_kept (child hv hc)))
      -- Each member is a union of keys by itself, as its brackets are closed.
      have all := (KeyUnion.unionOf_iff declares.names hes whole).1 h
      refine Scope.IsUnion.enum_of_isKey hk (fun v hv unit hu => ?_) (fun hu v hv => ?_)
        fun hu v hv t ht key => ?_
      · obtain ⟨e, he, h⟩ := exists_of_mapM rendered hv
        rw [unit] at h
        exact writesConstants_of_keyUnion declares hr hu h (all e he)
      all_goals
        obtain rfl := Scope.represent_of_isUntagged hr hu
        obtain ⟨e, he, h⟩ := exists_of_mapM rendered hv
        rw [variantExpr] at h
        have newtype : v.body.isNewtype :=
          isNewtype_of_keyUnion declares (Scope.isKey_enum.1 hk v hv).isPositional_or h (all e he)
      · exact newtype
      · obtain ⟨f, hf, hb⟩ := Body.exists_of_isNewtype newtype
        obtain rfl : t = f.ty := by simpa [hb, Body.kept_newtype hf] using ht
        rw [hb, bodyExpr_newtype hf] at h
        exact ih f.ty (Shape.mem_children_enum hv ht) key (closed.of_kept (child hv ht)) h (all e he)

end Converse

/-! ## Mapped types come from maps -/

/-- Every mapped type in the type is one of these. -/
def MapsOnly (M : TypeExpr → TypeExpr → Prop) (e : TypeExpr) : Prop := ∀ k v, e.Holds (.mapped k v) → M k v

variable {M : TypeExpr → TypeExpr → Prop}

theorem mapsOnly_of_children {e : TypeExpr} (own : ∀ k v, e = .mapped k v → M k v)
    (h : ∀ c ∈ e.children, MapsOnly M c) : MapsOnly M e := by
  intro k v he
  cases he with
  | here => exact own k v rfl
  | child hc he => exact h _ hc k v he

theorem builds_mapsOnly : Builds (MapsOnly M) where
  builtin _ := mapsOnly_of_children (by simp) (List.forall_mem_nil _)
  string _ := mapsOnly_of_children (by simp [stringConstant]) (List.forall_mem_nil _)
  constant _ := mapsOnly_of_children (by simp) (List.forall_mem_nil _)
  array {e} h := by
    refine mapsOnly_of_children (by simp) (List.forall_mem_singleton.2 ?_)
    unfold TypeExpr.groupFor
    split
    · exact mapsOnly_of_children (by simp) (List.forall_mem_singleton.2 h)
    · exact h
  tuple h := mapsOnly_of_children (by simp) h
  nullable h := mapsOnly_of_children (by simp) (List.forall_mem_singleton.2 h)
  emptyObject := mapsOnly_of_children (by simp) (List.forall_mem_nil _)
  object _ h := mapsOnly_of_children (by simp) (List.forall_mem_map.2 h)
  union h := mapsOnly_of_children (by simp) h
  intersection hl hr :=
    mapsOnly_of_children (by simp) (List.forall_mem_cons.2 ⟨hl, List.forall_mem_singleton.2 hr⟩)
  grouped h := mapsOnly_of_children (by simp) (List.forall_mem_singleton.2 h)

/-- The key of a mapped type in a rendering is what the key of a map renders to without its nullables. -/
theorem exists_map_of_mapped {s : Shape} {e : TypeExpr} (h : x.typeExpr path s = .ok e) {K V : TypeExpr}
    (he : e.Holds (.mapped K V)) :
    ∃ k v path', s.Holds (.map k v) ∧ x.typeExpr path' k.stripNullable = .ok K := by
  have supplies : ∀ t, s.Holds t → x.Supplies
      (MapsOnly fun K _ => ∃ k v path', s.Holds (.map k v) ∧ x.typeExpr path' k.stripNullable = .ok K) t := by
    intro t ht
    cases t with
    | map key value =>
      intro path' k v hk _ hks hvs
      refine mapsOnly_of_children ?_ (List.forall_mem_cons.2 ⟨hks, List.forall_mem_singleton.2 hvs⟩)
      rintro _ _ ⟨⟩
      exact ⟨key, value, path', ht, hk⟩
    | reference id arguments => exact fun _ _ _ _ hs => mapsOnly_of_children (by simp) hs
    | placeholder name => exact mapsOnly_of_children (by simp) (List.forall_mem_nil _)
    | foreign value =>
      cases value with
      | verbatim text => exact mapsOnly_of_children (by simp) (List.forall_mem_nil _)
      | named kind => trivial
    | _ => trivial
  exact (yields_strip builds_mapsOnly supplies).1 path e h K V he

/-! ## Documents -/

/-- The statements of a document in TypeScript declare its records. -/
theorem declares_of_mapM (own : x.types.OwnIds) (language : x.config.language = .typescript)
    (layout : x.config.layout ≠ .perTypeFile) (checked : x.checkNames = .ok ()) {sss : List (List Statement)}
    (h : x.types.records.mapM x.statements = .ok sss) : x.Declares sss.flatten := by
  have script : x.config.language ≠ .zod := by
    rw [language]
    decide
  have origin {name : String} {ps : List String} {type : TypeExpr}
      (hd : .typeAlias name ps type ∈ sss.flatten) :
      ∃ r ∈ x.types.records, name = x.displayName r ∧ x.typeExpr [r.name] r.shape = .ok type := by
    obtain ⟨ss, hss, hs⟩ := List.mem_flatten.1 hd
    obtain ⟨r, hr, rendered⟩ := exists_of_mem_results h hss
    exact ⟨r, hr, name_of_mem_statements rendered hs, typeExpr_of_mem_statements rendered hs⟩
  refine ⟨⟨fun hd => ?_, fun hd => ?_⟩, fun {r} hr => ?_, fun {r _ _} hr hd => ?_, fun hd => ?_⟩
  · obtain ⟨r, hr, rfl, -⟩ := origin hd
    exact isTypeName_of_checkNames checked hr
  · obtain ⟨r, hr, rfl, -⟩ := origin hd
    rw [← language]
    exact (checkTypeName_of_checkNames checked hr).1
  · obtain ⟨ss, hss, rendered⟩ := exists_of_mapM h (Collection.mem_records.2 hr)
    obtain ⟨type, ht, rfl⟩ := statements_of_ne_zod script rendered
    exact ⟨type, List.mem_flatten.2 ⟨_, hss, List.mem_singleton_self _⟩, ht⟩
  · obtain ⟨q, hq, hn, ht⟩ := origin hd
    obtain rfl := List.inj_on_of_nodup_map (nodup_displayName own layout checked)
      (Collection.mem_records.2 hr) hq hn
    exact ht
  · obtain ⟨r, hr, hn, -⟩ := origin hd
    exact ⟨r, Collection.mem_records.1 hr, hn⟩

/-- Each mapped type in a document comes from a map, and ranges over property keys exactly if the key of the
map is written so. -/
theorem mapped_keys (own : x.types.OwnIds) (language : x.config.language = .typescript)
    (bigint : x.config.bigint = .string ∨ x.config.bigint = .number)
    (records : ∀ r ∈ x.types.members, r.shape.IsClosed) (valid : x.scope.validate = .ok ()) {text : String}
    (h : x.text = .ok text) :
    ∃ sss, text = x.documentText x.types.records [] sss ∧
      ∀ name ps type, .typeAlias name ps type ∈ sss.flatten → ∀ K V, type.Holds (.mapped K V) →
        ∃ r ∈ x.types.records, name = x.displayName r ∧ ∃ k v path, r.shape.Holds (.map k v) ∧
          x.typeExpr path k.stripNullable = .ok K ∧
          (x.WritesKey k.stripNullable → KeyUnion sss.flatten K.text.toList) ∧
          ((∀ q ∈ x.types.members, x.displayName q ≠ "nan" ∧ x.displayName q ≠ "inf") →
            KeyUnion sss.flatten K.text.toList → x.WritesKey k.stripNullable) := by
  obtain ⟨layout, checked, sss, rendered, rfl⟩ := script_eq_ok (by rw [language]; decide) h
  have declares := declares_of_mapM own language layout checked rendered
  refine ⟨sss, rfl, fun name ps type hd K V held => ?_⟩
  obtain ⟨ss, hss, hs⟩ := List.mem_flatten.1 hd
  obtain ⟨r, hr, statements⟩ := exists_of_mem_results rendered hss
  have member := Collection.mem_records.1 hr
  obtain ⟨k, v, path, hmap, hK⟩ := exists_map_of_mapped (typeExpr_of_mem_statements statements hs) held
  have closed : k.stripNullable.IsClosed := by
    have key : k ∈ (Shape.map k v).kept := List.mem_cons_self
    exact (((records r member).of_holds hmap).of_kept key).of_holds (Shape.holds_stripNullable k)
  have hk : x.scope.IsKey true [] k.stripNullable :=
    Scope.isKey_stripNullable.2 ((Scope.accepts_of_validate own valid member).key hmap)
  exact ⟨r, hr, name_of_mem_statements statements hs, k, v, path, hmap, hK,
    fun hw => keyUnion_of_writesKey declares checked records bigint hw closed hK,
    fun plain hu => writesKey_of_keyUnion declares checked records plain hk closed hK hu⟩

/-! ### A map over a named key

`Count` is a map whose key is the record `Name`. -/

namespace Counts

def named (shape : Shape) : Record where
  id := ⟨⟨.static, 1⟩, "Name"⟩
  name := "Name"
  shape

def count : Record where
  id := ⟨⟨.static, 2⟩, "Count"⟩
  name := "Count"
  shape := .map (.reference ⟨⟨.static, 1⟩, "Name"⟩ []) (.primitive .i32)

/-- The export of the two, where names have the given shape. -/
def counts (key : Shape) : Export := ⟨{ banner := "", bigint := .string }, .ofRecords [count, named key]⟩

/-- The document, where names are written as the given type. -/
def document (type : TypeExpr) : List (List Statement) :=
  [[.typeAlias "Count" [] (.mapped (.named ⟨.static, 1⟩ "Name" []) (.builtin "number"))],
    [.typeAlias "Name" [] type]]

theorem records_counts (key : Shape) : (counts key).types.records = [count, named key] := by
  have sorted : List.Pairwise (fun a b => Record.le a b) [count, named key] := by
    refine List.pairwise_pair.2 ?_
    cbv
  exact List.mergeSort_of_pairwise sorted

theorem checkNames_counts {key : Shape} : (counts key).checkNames = .ok () := by
  have free : ∀ n ∈ ["Count", "Name"], n ∉ Language.typescript.reservedTypeNames ∧ isTypeName n := by decide
  refine checkNames_of_nodup ?_ ?_
  · rw [records_counts]
    exact List.forall_mem_cons.2 ⟨free "Count" (by decide), List.forall_mem_singleton.2 (free "Name" (by decide))⟩
  · rw [records_counts]
    show ["Count", "Name"].Nodup
    decide

theorem text_counts {key : Shape} {type : TypeExpr} (complete : (counts key).types.checkComplete = .ok ())
    (valid : (counts key).scope.validate = .ok ())
    (map : (counts key).typeExpr ["Count"] count.shape =
      .ok (.mapped (.named ⟨.static, 1⟩ "Name" []) (.builtin "number")))
    (names : (counts key).typeExpr ["Name"] key = .ok type) :
    (counts key).text = .ok ((counts key).documentText [count, named key] [] (document type)) := by
  have rendered : [count, named key].mapM (counts key).statements = .ok (document type) := by
    have both : (counts key).statements count = .ok _ ∧ (counts key).statements (named key) = .ok _ :=
      ⟨bind_eq_ok.2 ⟨_, map, rfl⟩, bind_eq_ok.2 ⟨_, names, rfl⟩⟩
    rw [List.mapM_cons, List.mapM_cons, List.mapM_nil, both.1, both.2]
    rfl
  have prepared : (counts key).prepare = .ok () :=
    prepare_eq_ok complete (fun _ => valid) checkNames_counts
  have language : (counts key).config.language ≠ .jsonschema := by
    intro h
    cases h
  have layout : (counts key).config.layout ≠ .perTypeFile := by
    intro h
    cases h
  exact text_of_statements language layout (records_counts key) prepared rendered

theorem mem_members {key : Shape} {r : Record} (h : r ∈ (counts key).types.members) :
    r = count ∨ r = named key := by
  have members : r ∈ [count, named key] := h
  simpa using members

theorem isClosed_scalar {kind : Primitive} : (Shape.primitive kind).IsClosed := by
  intro t ht
  cases ht with
  | here => exact ⟨fun _ => Shape.noConfusion, fun _ => Shape.noConfusion⟩
  | child hc => cases hc

/-- Besides itself the map holds its key and its value. -/
theorem holds_count {t : Shape} (h : count.shape.Holds t) :
    t = count.shape ∨ t = .reference ⟨⟨.static, 1⟩, "Name"⟩ [] ∨ t = .primitive .i32 := by
  cases h with
  | here => exact Or.inl rfl
  | child hc h =>
    have children : _ ∈ [Shape.reference ⟨⟨.static, 1⟩, "Name"⟩ [], .primitive .i32] := hc
    rcases List.mem_cons.1 children with rfl | hc
    · cases h with
      | here => exact Or.inr (Or.inl rfl)
      | child hc _ => cases hc
    · obtain rfl := List.mem_singleton.1 hc
      cases h with
      | here => exact Or.inr (Or.inr rfl)
      | child hc _ => cases hc

theorem isClosed_count : count.shape.IsClosed := by
  intro t ht
  rcases holds_count ht with rfl | rfl | rfl
  all_goals exact ⟨fun _ => Shape.noConfusion, fun _ => Shape.noConfusion⟩

/-- Names are strings, and so are the keys. -/
theorem mapped_keys_counts : (counts (.primitive .string)).scope.validate = .ok () ∧
    ∃ sss, (counts (.primitive .string)).text =
        .ok ((counts (.primitive .string)).documentText (counts (.primitive .string)).types.records [] sss) ∧
      ∀ name ps type, .typeAlias name ps type ∈ sss.flatten → ∀ K V, type.Holds (.mapped K V) →
        KeyUnion sss.flatten K.text.toList := by
  have records : ∀ r ∈ (counts (.primitive .string)).types.members, r.shape.IsClosed := by
    intro r hr
    rcases mem_members hr with rfl | rfl
    · exact isClosed_count
    · exact isClosed_scalar
  have valid : (counts (.primitive .string)).scope.validate = .ok () := by cbv
  have map : (counts (.primitive .string)).typeExpr ["Count"] count.shape =
      .ok (.mapped (.named ⟨.static, 1⟩ "Name" []) (.builtin "number")) := by cbv
  have names : (counts (.primitive .string)).typeExpr ["Name"] (.primitive .string) =
      .ok (.builtin "string") := by cbv
  have written := text_counts (by cbv) valid map names
  obtain ⟨sss, text, keys⟩ :=
    mapped_keys (Collection.ownIds_ofRecords _) rfl (Or.inl rfl) records valid written
  refine ⟨valid, sss, by rw [written, text], fun n ps type hd K V held => ?_⟩
  obtain ⟨r, hr, -, k, v, path, hmap, -, union, -⟩ := keys n ps type hd K V held
  rcases mem_members (Collection.mem_records.1 hr) with rfl | rfl
  · rcases holds_count hmap with e | e | e
    · cases e
      exact union (.reference (r := named (.primitive .string)) rfl (.leaf Primitive.noConfusion))
    · cases e
    · cases e
  · cases hmap with
    | child hc => cases hc

theorem declaresNames_document (type : TypeExpr) : DeclaresNames (document type).flatten := by
  have names {n : String} {ps : List String} {t : TypeExpr}
      (h : .typeAlias n ps t ∈ (document type).flatten) : n = "Count" ∨ n = "Name" := by
    have named : ∀ s ∈ (document type).flatten, s.name = "Count" ∨ s.name = "Name" := by
      simp [document, Statement.name]
    exact named _ h
  constructor <;> intro n _ _ h <;> rcases names h with rfl | rfl <;> decide

/-- A nullable name is accepted as well, and then null is among the keys. -/
theorem nullable_name_not_keyUnion :
    (counts (.nullable (.primitive .string))).scope.validate = .ok () ∧
    (counts (.nullable (.primitive .string))).text =
      .ok ((counts (.nullable (.primitive .string))).documentText
        [count, named (.nullable (.primitive .string))] [] (document (.nullable (.builtin "string")))) ∧
    .typeAlias "Count" [] (.mapped (.named ⟨.static, 1⟩ "Name" []) (.builtin "number")) ∈
      (document (.nullable (.builtin "string"))).flatten ∧
    ¬ KeyUnion (document (.nullable (.builtin "string"))).flatten
      (TypeExpr.named ⟨.static, 1⟩ "Name" []).text.toList := by
  have valid : (counts (.nullable (.primitive .string))).scope.validate = .ok () := by cbv
  refine ⟨valid, text_counts (by cbv) valid (by cbv) (by cbv), List.mem_cons_self, fun h => ?_⟩
  have declares := declaresNames_document (.nullable (.builtin "string"))
  have alone : IsArguments [] := Or.inl rfl
  have member : IsMember ("Name".toList ++ []) := isMember_named (by decide) alone
  rcases h.of_single declares member.single with
    hatom | ⟨n, arguments, ps, type, e, hd, ha, ht⟩
  · have undeclared : ¬ KeyAtom ("Name".toList ++ []) := KeyAtom.not_name (by decide) (by decide) alone
    exact undeclared hatom
  · obtain rfl : "Name" = n :=
      name_eq_of_arguments (by decide) (declares.typeName hd) alone ha e
    obtain ⟨-, rfl⟩ : ps = [] ∧ type = .nullable (.builtin "string") := by simpa [document] using hd
    exact ht.not_suffix declares ⟨"string".toList, by decide⟩

end Counts

end Export

end ShapeExport
