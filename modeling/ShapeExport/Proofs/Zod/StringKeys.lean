import Mathlib
import ShapeExport.Proofs.Export.Names
import ShapeExport.Proofs.Export.Statements
import ShapeExport.Proofs.Validation.Acceptance
import ShapeExport.Proofs.Validation.Union

/-!
# Keys of records in Zod

Keys of an object arrive as strings, so the schema of a key must be one of strings. A key is followed through
references and nullables to that end. The variants of an enum are rendered like any other value.

* `Export.StringSchema` : schemas of strings, where a name counts for what its record is rendered to;
* `Export.WritesString`, `Export.WritesStringKey` : the shapes, and the map keys, with such schemas;
* `Export.SetsApart` : no two variants of an enum are written alike, so that all of them come out;
* `Export.stringSchema_of_writesStringKey`, `Export.writesStringKey_of_stringSchema` : of the keys that the
  validator admits these and no others have schemas of strings;
* `Export.record_keys` : the keys of an accepted collection.
-/

namespace ShapeExport
open Zod Zod.Schema

/-- The schema admits strings alone, as those of the decimal texts of numbers do, or nothing. -/
def Zod.Scalar.isString : Scalar → Bool
  | string | char | integerKey | numberKey | never => true
  | integer | number | bigint | boolean | null => false

namespace Export

variable {x : Export} {left : Nat} {path : Path} {seen : List TypeKey}

/-! ## Keys with schemas of strings -/

/-- The shape is written as a string or as a constant one. -/
def IsStringLeaf (x : Export) : Shape → Prop
  | .primitive kind => kind.isStringLike ∨ kind.isBigInt ∧ x.config.bigint = .string
  | .literal value => value.isStringLike
  | _ => False

/-- Rendered like any other value, the shape has a schema of strings. -/
def WritesString (x : Export) (s : Shape) : Prop := x.scope.IsUnion x.IsStringLeaf s

/-- Rendered as a key, the shape has a schema of strings. -/
inductive WritesStringKey (x : Export) : Shape → Prop
  | primitive {kind : Primitive} : kind ≠ .bool → WritesStringKey x (.primitive kind)
  | literal {value : Literal} : value.isKey → WritesStringKey x (.literal value)
  | nullable {inner : Shape} : WritesStringKey x inner → WritesStringKey x (.nullable inner)
  | reference {id : TypeId} {arguments : List Shape} {r : Record} : x.types.resolve id.key = some r →
      WritesStringKey x (r.expand arguments) → WritesStringKey x (.reference id arguments)
  | enum {name : String} {vs : List (Variant Shape)} {tagging : Option Tagging} :
      x.WritesString (.enum name vs tagging) → WritesStringKey x (.enum name vs tagging)

/-- What the schema of a shape is made of: the kept parts of the shape, and for references the bodies of their
records, with the arguments and without. -/
inductive Comprises (x : Export) : Shape → Shape → Prop
  | here (s : Shape) : Comprises x s s
  | part {s c t : Shape} : c ∈ s.kept → Comprises x c t → Comprises x s t
  | expanded {id : TypeId} {arguments : List Shape} {r : Record} {t : Shape} :
      x.types.resolve id.key = some r → Comprises x (r.expand arguments) t →
      Comprises x (.reference id arguments) t
  | named {id : TypeId} {arguments : List Shape} {r : Record} {t : Shape} :
      x.types.resolve id.key = some r → Comprises x r.shape t → Comprises x (.reference id arguments) t

/-- No enum in the shape has two variants that are written alike. -/
def SetsApart (x : Export) (s : Shape) : Prop :=
  ∀ name vs tagging, x.Comprises s (.enum name vs tagging) → ∀ left r path es,
    x.variantSchemas left r path vs = .ok es → (es.map Schema.text).Nodup

/-! ## Schemas of strings -/

/-- Schemas of strings, string literals and unions of these. A name counts for whatever its record renders
to. -/
inductive StringSchema (x : Export) : Schema → Prop
  | scalar {kind : Scalar} : kind.isString → StringSchema x (.scalar kind)
  | literal (s : String) : StringSchema x (stringLiteral s)
  | lazy {target : TypeKey} {arguments : List Schema} {r : Record} : x.types.resolve target = some r →
      (∀ e, x.schema [r.name] r.shape = .ok e → StringSchema x e) →
      StringSchema x (.lazy target (x.displayName r) arguments)
  | union {es : List Schema} : (∀ e ∈ es, StringSchema x e) → StringSchema x (.union es)

theorem StringSchema.unionOf {es : List Schema} (h : ∀ e ∈ es, x.StringSchema e) :
    x.StringSchema (unionOf es) := by
  have distinct : ∀ e ∈ Text.distinctBy Schema.text es, x.StringSchema e :=
    fun e he => h e (Text.mem_of_mem_distinctBy he)
  unfold Schema.unionOf
  split
  · next e he =>
    rw [he] at distinct
    exact distinct e (List.mem_singleton_self e)
  · exact .union distinct

/-- If no two members are written alike, all of them are in the union. -/
theorem StringSchema.of_unionOf {es : List Schema} (apart : (es.map Schema.text).Nodup)
    (h : x.StringSchema (Schema.unionOf es)) : ∀ e ∈ es, x.StringSchema e := by
  rw [Schema.unionOf, Text.distinctBy_of_nodup apart] at h
  split at h
  · exact List.forall_mem_singleton.2 h
  · cases h with
    | union h => exact h

/-! ### Nullable schemas -/

/-- A text that ends with another character before its last bracket is not nullable. -/
theorem not_endsWith_nullable {s : String} (front : List Char) (c : Char)
    (hs : s.toList = front ++ [c, ')']) (hc : c ≠ '(') : ¬ s.endsWith ".nullable()" := by
  intro h
  obtain ⟨before, e⟩ := Text.endsWith_iff.1 h
  have ending : (before ++ ".nullable".toList) ++ ['(', ')'] = front ++ [c, ')'] := by
    rw [← hs, ← e, List.append_assoc]
    rfl
  obtain ⟨-, last⟩ := List.append_inj' ending rfl
  exact hc (List.head_eq_of_cons_eq last).symm

theorem exists_last_of_isTypeName {name : String} (h : isTypeName name) :
    ∃ front c, name.toList = front ++ [c] ∧ c ≠ '(' := by
  have hne : name.toList ≠ [] := by
    intro e
    rw [isTypeName, e] at h
    cases h
  refine ⟨_, _, (List.dropLast_append_getLast hne).symm, fun e => ?_⟩
  have word := isWordChar_of_isTypeName h (List.getLast_mem hne)
  rw [e] at word
  revert word
  decide

theorem StringSchema.not_nullable (names : ∀ r ∈ x.types.members, isTypeName (x.displayName r)) {e : Schema}
    (h : x.StringSchema e) : ¬ e.text.endsWith ".nullable()" := by
  cases h with
  | @scalar kind hk =>
    show ¬ kind.text.endsWith ".nullable()"
    rw [Text.endsWith_iff]
    cases kind with
    | string | char | integerKey | numberKey | never => decide
    | integer | number | bigint | boolean | null => cases hk
  | literal s =>
    refine not_endsWith_nullable ("z.literal(\"".toList ++ s.toList.flatMap (Text.literalChar .ascii)) '"' ?_
      (by decide)
    show ("z.literal(" ++ Text.literal .ascii s ++ ")").toList = _
    simp [Text.literal, Text.literalChars]
  | @lazy target arguments r hr =>
    cases arguments with
    | nil =>
      obtain ⟨front, c, hn, hc⟩ := exists_last_of_isTypeName (names r (Collection.mem_members_of_resolve hr))
      refine not_endsWith_nullable ("z.lazy(() => ".toList ++ front) c ?_ hc
      show ("z.lazy(() => " ++ x.displayName r ++ ")").toList = _
      simp [hn]
    | cons a as =>
      refine not_endsWith_nullable ("z.lazy(() => " ++ x.displayName r ++ "(" ++ a.text ++ texts as).toList ')'
        ?_ (by decide)
      show ("z.lazy(() => " ++ (x.displayName r ++ "(" ++ a.text ++ texts as ++ ")") ++ ")").toList = _
      simp
  | @union es =>
    cases es with
    | nil =>
      have whole : (Schema.union []).text.toList = "z.union([".toList ++ [']', ')'] := rfl
      exact not_endsWith_nullable _ _ whole (by decide)
    | cons e es =>
      refine not_endsWith_nullable ("z.union([" ++ e.text ++ texts es).toList ']' ?_ (by decide)
      show ("z.union([" ++ e.text ++ texts es ++ "])").toList = _
      simp

/-! ## Renderings of enums -/

theorem schemaExpr_empty_enum {name : String} {vs : List (Variant Shape)} {tagging : Option Tagging}
    (h : Variant.kept vs = []) : x.schemaExpr left path (.enum name vs tagging) = .ok (.scalar .never) := by
  rw [schemaExpr, if_pos (by simp [h])]

/-- An enum with a kept variant renders to the union of what its variants render to. -/
theorem schemaExpr_enum {name : String} {vs : List (Variant Shape)} {tagging : Option Tagging} {e : Schema}
    (hne : Variant.kept vs ≠ []) (h : x.schemaExpr left path (.enum name vs tagging) = .ok e) :
    ∃ path' r es, x.scope.represent path' name vs tagging = .ok r ∧ e = Schema.unionOf es ∧
      x.variantSchemas left r path' vs = .ok es := by
  rw [schemaExpr, if_neg (by simpa using hne)] at h
  obtain ⟨r, hr, h⟩ := bind_eq_ok.1 h
  obtain ⟨es, hes, h⟩ := bind_eq_ok.1 h
  cases h
  exact ⟨_, r, es, hr, rfl, hes⟩

theorem variantSchema_unit_constant {r : Representation} (hr : r = .external ∨ ∃ rule, r = .strings rule)
    {key : String} {b : Body Shape} (hb : b.isUnit) :
    x.variantSchema left r path key b = .ok (stringLiteral key) := by
  rcases hr with rfl | ⟨rule, rfl⟩
  · rw [variantSchema, if_pos hb]
  · rw [variantSchema]

theorem bodySchema_newtype {f : Field (Option String) Shape} (h : f.skip = false) (path : Path)
    (key : String) : x.bodySchema left path key (.positional [f]) = x.schemaExpr left path f.ty := by
  rw [bodySchema, if_neg (by simp [h])]

/-! ## Such keys have schemas of strings -/

theorem stringSchema_of_isStringLeaf {s : Shape} (hs : x.IsStringLeaf s) {e : Schema}
    (h : x.schemaExpr left path s = .ok e) : x.StringSchema e := by
  cases s with
  | primitive kind =>
    rw [schemaExpr] at h
    unfold primitiveSchema Config.bigIntAt at h
    rcases hs with hs | ⟨hb, policy⟩
    · cases kind <;> cases hs <;> cases h <;> exact .scalar rfl
    · rw [if_pos hb, policy] at h
      cases h
      exact .scalar rfl
  | literal value =>
    rw [schemaExpr] at h
    cases h
    cases value with
    | string s => exact .literal _
    | char c => exact .literal _
    | _ => cases hs
  | _ => exact hs.elim

theorem stringSchema_of_writesString (own : x.types.OwnIds) {s : Shape} (hs : x.WritesString s) {e : Schema}
    (h : x.schemaExpr left path s = .ok e) : x.StringSchema e := by
  induction hs generalizing left path e with
  | leaf hs => exact stringSchema_of_isStringLeaf hs h
  | @reference id arguments r hr _ ih =>
    obtain ⟨q, es, hq, -, rfl⟩ := schemaExpr_reference_eq_ok h
    obtain rfl := Option.some.inj (hr.symm.trans hq)
    exact .lazy (own.resolve (Collection.mem_members_of_resolve hr)) fun e he => ih he
  | never hv =>
    rw [schemaExpr_empty_enum hv] at h
    cases h
    exact .scalar rfl
  | @constants name vs tagging hc hu =>
    by_cases hne : Variant.kept vs = []
    · rw [schemaExpr_empty_enum hne] at h
      cases h
      exact .scalar rfl
    obtain ⟨path', r, es, hr, rfl, rendered⟩ := schemaExpr_enum hne h
    rw [variantSchemas_eq_mapM] at rendered
    refine .unionOf fun e he => ?_
    obtain ⟨v, hv, h⟩ := exists_of_mem_results rendered he
    rw [variantSchema_unit_constant (Scope.writesConstants_of_represent hr hc) (hu v hv)] at h
    cases h
    exact .literal _
  | @payloads name vs tagging hu hn _ ih =>
    by_cases hne : Variant.kept vs = []
    · rw [schemaExpr_empty_enum hne] at h
      cases h
      exact .scalar rfl
    obtain ⟨path', r, es, hr, rfl, rendered⟩ := schemaExpr_enum hne h
    rw [variantSchemas_eq_mapM] at rendered
    refine .unionOf fun e he => ?_
    obtain ⟨v, hv, h⟩ := exists_of_mem_results rendered he
    obtain rfl := Scope.represent_of_isUntagged hr hu
    obtain ⟨f, hf, hb⟩ := Body.exists_of_isNewtype (hn v hv)
    have ht : f.ty ∈ v.body.kept := by
      rw [hb, Body.kept_newtype hf]
      exact List.mem_singleton_self _
    rw [variantSchema, hb, bodySchema_newtype hf] at h
    exact ih v hv f.ty ht h

/-- A record that is not on the way is followed, at the cost of an expansion. -/
theorem keySchema_of_not_mem {id : TypeId} {arguments : List Shape} (hn : id.key ∉ seen) {e : Schema}
    (h : x.keySchema left seen path (.reference id arguments) = .ok e) :
    ∃ m r, left = m + 1 ∧ x.types.resolve id.key = some r ∧
      x.keySchema m (id.key :: seen) path (r.expand arguments) = .ok e := by
  cases left with
  | zero =>
    rw [keySchema, if_neg hn] at h
    cases h
  | succ m =>
    rw [keySchema, if_neg hn] at h
    obtain ⟨r, hr, h⟩ := bind_eq_ok.1 h
    exact ⟨m, r, rfl, resolve_of_target hr, h⟩

theorem stringSchema_of_writesStringKey (own : x.types.OwnIds) {s : Shape} (hs : x.WritesStringKey s)
    (hk : x.scope.IsKey true seen s) {e : Schema} (h : x.keySchema left seen path s = .ok e) :
    x.StringSchema e := by
  induction hs generalizing left seen e with
  | @primitive kind hb =>
    rw [keySchema] at h
    split at h
    · cases h
      exact .scalar rfl
    · next hi =>
      split at h
      · cases h
        exact .scalar rfl
      · next hf =>
        have string : kind.isStringLike := by
          cases kind <;> simp_all [Primitive.isInteger, Primitive.isBigInt, Primitive.isFloat,
            Primitive.isStringLike]
        exact stringSchema_of_isStringLeaf (s := .primitive kind) (Or.inl string) h
  | @literal value hl =>
    rw [keySchema] at h
    cases h
    split
    · exact .literal _
    · next hn =>
      cases value with
      | string | char => exact .literal _
      | bool | none => cases hl
      | integer | float => exact absurd rfl hn
  | nullable _ ih =>
    rw [keySchema] at h
    exact ih (Scope.isKey_nullable.1 hk) h
  | @reference id arguments r hr _ ih =>
    obtain ⟨hn, hk⟩ := (Scope.isKey_reference_of_resolve hr).1 hk
    obtain ⟨m, q, -, hq, h⟩ := keySchema_of_not_mem hn h
    obtain rfl := Option.some.inj (hr.symm.trans hq)
    exact ih hk h
  | enum hs =>
    simp only [keySchema] at h
    exact stringSchema_of_writesString own hs h

/-! ## And no others -/

section Converse

variable (own : x.types.OwnIds) (names : ∀ r ∈ x.types.members, isTypeName (x.displayName r))
  (rendered : ∀ r ∈ x.types.members, ∃ e, x.schema [r.name] r.shape = .ok e)

theorem SetsApart.of_kept {s c : Shape} (h : x.SetsApart s) (hc : c ∈ s.kept) : x.SetsApart c :=
  fun name vs tagging ht => h name vs tagging (.part hc ht)

theorem StringSchema.of_lazy {target : TypeKey} {name : String} {arguments : List Schema} {r : Record}
    {e : Schema} (h : x.StringSchema (.lazy target name arguments)) (hr : x.types.resolve target = some r)
    (he : x.schema [r.name] r.shape = .ok e) : x.StringSchema e := by
  cases h with
  | lazy hr' looked =>
    obtain rfl := Option.some.inj (hr.symm.trans hr')
    exact looked e he

theorem isStringLeaf_primitive {kind : Primitive} {e : Schema}
    (he : x.schemaExpr left path (.primitive kind) = .ok e) (h : x.StringSchema e) :
    x.IsStringLeaf (.primitive kind) := by
  have scalar {k : Scalar} (h : x.StringSchema (.scalar k)) : k.isString := by
    cases h
    assumption
  rw [schemaExpr] at he
  unfold primitiveSchema Config.bigIntAt at he
  split at he
  · next hb =>
    cases policy : x.config.bigint with
    | string => exact Or.inr ⟨hb, policy⟩
    | number | bigint =>
      rw [policy] at he
      cases he
      cases scalar h
    | fail =>
      rw [policy] at he
      cases he
  · split at he
    · cases he
      cases scalar h
    · split at he
      · cases he
        cases scalar h
      · split at he
        · exact Or.inl rfl
        · exact Or.inl rfl
        · cases he
          cases scalar h

/-- The text of a number is none of a string. -/
theorem isStringLeaf_literal {value : Literal} (hl : value.isKey) {e : Schema}
    (he : x.schemaExpr left path (.literal value) = .ok e) (h : x.StringSchema e) :
    x.IsStringLeaf (.literal value) := by
  rw [schemaExpr] at he
  cases he
  have number (n : Number) (h : x.StringSchema (.literal (n.text .message))) : False := by
    generalize written : n.text .message = text at h
    cases h with
    | literal s =>
      have quote : '"' ∈ (n.text .message).toList := by
        rw [written]
        simp [Text.literal, Text.literalChars]
      exact absurd (n.text_chars '"' quote) (by unfold IsNumberChar; decide)
  cases value with
  | string | char => rfl
  | bool | none => cases hl
  | integer width value => exact (number (.integer value) h).elim
  | float width value => exact (number value h).elim

theorem not_stringSchema_tuple {es : List Schema} : ¬ x.StringSchema (.tuple es) := by
  intro h
  cases h

/-- A positional body of an untagged variant is written as its type, if it was declared with a single field,
and as a tuple otherwise. -/
theorem isNewtype_of_stringSchema {b : Body Shape} (hb : b.isPositional ∨ b.isUnit) {key : String}
    {e : Schema} (he : x.bodySchema left path key b = .ok e) (h : x.StringSchema e) : b.isNewtype := by
  cases b with
  | named => simp [Body.isPositional, Body.isUnit] at hb
  | unit =>
    rw [bodySchema] at he
    cases he
    cases h with
    | scalar hk => cases hk
  | positional fields =>
    unfold bodySchema at he
    split at he
    · next f =>
      split at he
      · cases he
        exact absurd h not_stringSchema_tuple
      · next hf => simpa [Body.isNewtype] using hf
    · obtain ⟨es, -, he⟩ := bind_eq_ok.1 he
      cases he
      exact absurd h not_stringSchema_tuple

/-- A unit with a tag is written as an object. -/
theorem writesConstants_of_stringSchema {name : String} {vs : List (Variant Shape)} {tagging : Option Tagging}
    {r : Representation} (hr : x.scope.represent path name vs tagging = .ok r)
    (hu : (x.scope.overrides.effective name tagging).isUntagged = false) {key : String} {path' : Path}
    {e : Schema} (he : x.variantSchema left r path' key .unit = .ok e) (h : x.StringSchema e) :
    (x.scope.overrides.effective name tagging).writesConstants := by
  cases hc : (x.scope.overrides.effective name tagging).writesConstants with
  | true => rfl
  | false =>
    rcases Scope.tagged_of_represent hr hu hc with ⟨tag, rfl⟩ | ⟨tag, content, rfl⟩
    all_goals
      rw [variantSchema] at he
      obtain ⟨tag, -, he⟩ := bind_eq_ok.1 he
      cases he
      cases h

include own names rendered

theorem writesString_of_stringSchema {s : Shape} (hk : x.scope.IsKey true seen s) (apart : x.SetsApart s)
    {e : Schema} (he : x.schemaExpr left path s = .ok e) (h : x.StringSchema e) : x.WritesString s := by
  induction seen, s using Collection.seenInduction (c := x.types) generalizing left path e with
  | step seen s ih it =>
    cases s with
    | list => exact absurd hk Scope.not_isKey_list
    | map => exact absurd hk Scope.not_isKey_map
    | tuple => exact absurd hk Scope.not_isKey_tuple
    | struct => exact absurd hk Scope.not_isKey_struct
    | placeholder name =>
      rw [schemaExpr] at he
      cases he
      cases h
    | foreign value =>
      cases value with
      | verbatim text =>
        rw [schemaExpr] at he
        cases he
        cases h
      | named kind =>
        rw [schemaExpr] at he
        cases he
    | primitive kind => exact .leaf (isStringLeaf_primitive he h)
    | literal value => exact .leaf (isStringLeaf_literal (Scope.isKey_literal.1 hk) he h)
    | nullable inner =>
      rw [schemaExpr] at he
      obtain ⟨t, ht, he⟩ := bind_eq_ok.1 he
      cases he
      unfold Schema.nullableOf at h
      split at h
      · next ends => exact absurd ends (h.not_nullable names)
      · cases h
    | reference id arguments =>
      obtain ⟨hn, r, hr, hk⟩ := Scope.isKey_reference.1 hk
      obtain ⟨q, es, hq, -, rfl⟩ := schemaExpr_reference_eq_ok he
      obtain rfl := Option.some.inj (hr.symm.trans hq)
      have hm := Collection.mem_members_of_resolve hr
      obtain ⟨e, he⟩ := rendered r hm
      -- A reference is looked up when a value is read, so the schema behind it is that of the record.
      have looked : x.StringSchema e := h.of_lazy (own.resolve hm) he
      refine .reference hr (it id.key r hn hr r.shape hk.of_expand (fun name vs tagging ht => ?_) he looked)
      exact apart name vs tagging (.named hr ht)
    | enum name vs tagging =>
      by_cases hne : Variant.kept vs = []
      · exact .never hne
      obtain ⟨path', r, es, hr, rfl, all⟩ := schemaExpr_enum hne he
      have strings := h.of_unionOf (apart name vs tagging (.here _) _ _ _ _ all)
      rw [variantSchemas_eq_mapM] at all
      refine Scope.IsUnion.enum_of_isKey hk (fun v hv unit hu => ?_) (fun hu v hv => ?_)
        fun hu v hv t ht key => ?_
      · obtain ⟨e, he, h⟩ := exists_of_mapM all hv
        rw [unit] at h
        exact writesConstants_of_stringSchema hr hu h (strings e he)
      all_goals
        obtain rfl := Scope.represent_of_isUntagged hr hu
        obtain ⟨e, he, h⟩ := exists_of_mapM all hv
        rw [variantSchema] at h
        have newtype : v.body.isNewtype :=
          isNewtype_of_stringSchema (Scope.isKey_enum.1 hk v hv).isPositional_or h (strings e he)
      · exact newtype
      · obtain ⟨f, hf, hb⟩ := Body.exists_of_isNewtype newtype
        obtain rfl : t = f.ty := by simpa [hb, Body.kept_newtype hf] using ht
        rw [hb, bodySchema_newtype hf] at h
        have kept : f.ty ∈ (Shape.enum name vs tagging).kept := List.mem_flatMap.2 ⟨v, hv, ht⟩
        exact ih f.ty (Shape.mem_children_enum hv ht) key (apart.of_kept kept) h (strings e he)

theorem writesStringKey_of_stringSchema {s : Shape} (hk : x.scope.IsKey true seen s) (apart : x.SetsApart s)
    {e : Schema} (he : x.keySchema left seen path s = .ok e) (h : x.StringSchema e) :
    x.WritesStringKey s := by
  induction seen, s using Collection.seenInduction (c := x.types) generalizing left path e with
  | step seen s ih it =>
    cases s with
    | list => exact absurd hk Scope.not_isKey_list
    | map => exact absurd hk Scope.not_isKey_map
    | tuple => exact absurd hk Scope.not_isKey_tuple
    | struct => exact absurd hk Scope.not_isKey_struct
    | placeholder name =>
      simp only [keySchema, schemaExpr] at he
      cases he
      cases h
    | foreign value =>
      simp only [keySchema] at he
      cases value with
      | verbatim text =>
        rw [schemaExpr] at he
        cases he
        cases h
      | named kind =>
        rw [schemaExpr] at he
        cases he
    | primitive kind =>
      refine .primitive ?_
      rintro rfl
      cases Scope.isKey_primitive.1 hk
    | literal value => exact .literal (Scope.isKey_literal.1 hk)
    | nullable inner =>
      rw [keySchema] at he
      have kept : inner ∈ (Shape.nullable inner).kept := List.mem_singleton_self _
      exact .nullable (ih inner List.mem_cons_self (Scope.isKey_nullable.1 hk) (apart.of_kept kept) he h)
    | reference id arguments =>
      obtain ⟨hn, r, hr, hk⟩ := Scope.isKey_reference.1 hk
      obtain ⟨m, q, -, hq, he⟩ := keySchema_of_not_mem hn he
      obtain rfl := Option.some.inj (hr.symm.trans hq)
      refine .reference hr (it id.key r hn hr _ hk (fun name vs tagging ht => ?_) he h)
      exact apart name vs tagging (.expanded hr ht)
    | enum name vs tagging =>
      simp only [keySchema] at he
      exact .enum (writesString_of_stringSchema own names rendered hk apart he h)

end Converse

/-- The first schema of a record is one of strings if the key of the map is among those above. If the document
is written, and no two variants of an enum in the key are written alike, it is one only then. -/
theorem record_keys (own : x.types.OwnIds) (valid : x.scope.validate = .ok ()) {r : Record}
    (hr : r ∈ x.types.members) {k v : Shape} (held : r.shape.Holds (.map k v)) {K V : Schema}
    (h : x.schemaExpr left path (.map k v) = .ok (.record K V)) :
    (x.WritesStringKey k → x.StringSchema K) ∧
      ∀ text, x.config.language = .zod → x.text = .ok text → x.SetsApart k → x.StringSchema K →
        x.WritesStringKey k := by
  rw [schemaExpr] at h
  obtain ⟨K', hK, h⟩ := bind_eq_ok.1 h
  obtain ⟨V', -, h⟩ := bind_eq_ok.1 h
  cases h
  have hk : x.scope.IsKey true [] k := (Scope.accepts_of_validate own valid hr).key held
  refine ⟨fun hw => stringSchema_of_writesStringKey own hw hk hK, fun text language written apart hs => ?_⟩
  obtain ⟨-, checked, sss, all, -⟩ := script_eq_ok (by rw [language]; decide) written
  have names : ∀ r ∈ x.types.members, isTypeName (x.displayName r) :=
    fun r hr => isTypeName_of_checkNames checked (Collection.mem_records.2 hr)
  have rendered : ∀ r ∈ x.types.members, ∃ e, x.schema [r.name] r.shape = .ok e := by
    intro r hr
    obtain ⟨ss, -, statements⟩ := exists_of_mapM all (Collection.mem_records.2 hr)
    obtain ⟨e, he, -⟩ := statements_of_zod language statements
    exact ⟨e, he⟩
  exact writesStringKey_of_stringSchema own names rendered hk apart hK hs

/-! ### A map over an untagged enum

The key of `Index` is an untagged enum with one variant. -/

namespace Untagged

def key (payload : Shape) : Shape :=
  .enum "Key" [{ name := "Id", body := .positional [{ name := none, ty := payload }] }] (some .untagged)

def index (payload : Shape) : Record where
  id := ⟨⟨.static, 1⟩, "Index"⟩
  name := "Index"
  shape := .map (key payload) (.primitive .i32)

def indexed (payload : Shape) : Export :=
  ⟨{ language := .zod, banner := "" }, .ofRecords [index payload]⟩

theorem records_indexed (payload : Shape) : (indexed payload).types.records = [index payload] := by
  have sorted : List.Pairwise (fun a b => Record.le a b) [index payload] := List.pairwise_singleton _ _
  exact List.mergeSort_of_pairwise sorted

theorem mem_members (payload : Shape) : index payload ∈ (indexed payload).types.members :=
  List.mem_singleton_self (index payload)

theorem comprises_key {kind : Primitive} {t : Shape}
    (h : (indexed (.primitive kind)).Comprises (key (.primitive kind)) t) :
    t = key (.primitive kind) ∨ t = .primitive kind := by
  cases h with
  | here => exact Or.inl rfl
  | part hc h =>
    obtain rfl := List.mem_singleton.1 hc
    cases h with
    | here => exact Or.inr rfl
    | part hc _ => cases hc

/-- One variant has no other one that is written alike. -/
theorem setsApart_key {kind : Primitive} : (indexed (.primitive kind)).SetsApart (key (.primitive kind)) := by
  intro name vs tagging ht left r path es rendered
  rcases comprises_key ht with e | e
  · cases e
    rw [variantSchemas_eq_mapM] at rendered
    have one : es.length = 1 := (mapM_eq_ok.1 rendered).length_eq.symm
    obtain ⟨e, rfl⟩ := List.length_eq_one_iff.1 one
    exact List.nodup_singleton _
  · cases e

/-- A key that holds a string has a schema of strings, and is one with such a schema. -/
theorem record_keys_index : (indexed (.primitive .string)).scope.validate = .ok () ∧
    (indexed (.primitive .string)).StringSchema (.scalar .string) ∧
    (indexed (.primitive .string)).WritesStringKey (key (.primitive .string)) := by
  have valid : (indexed (.primitive .string)).scope.validate = .ok () := by cbv
  have rendered : (indexed (.primitive .string)).schemaExpr expansionLimit ["Index"]
      (.map (key (.primitive .string)) (.primitive .i32)) =
        .ok (.record (.scalar .string) (.scalar .integer)) := by cbv
  obtain ⟨text, written⟩ : ∃ text, (indexed (.primitive .string)).text = .ok text := by
    have names : (indexed (.primitive .string)).checkNames = .ok () := by
      refine checkNames_of_nodup ?_ ?_
      all_goals
        rw [records_indexed]
        decide
    have prepared : (indexed (.primitive .string)).prepare = .ok () :=
      prepare_eq_ok (by cbv) (fun _ => valid) names
    have statements : (indexed (.primitive .string)).statements (index (.primitive .string)) = .ok
        [.constant "Index" false (.record (.scalar .string) (.scalar .integer)), .inferred "Index"] := by cbv
    unfold Export.text
    rw [prepared, records_indexed]
    show ∃ text, (indexed (.primitive .string)).scriptDocument [index (.primitive .string)] [] = .ok text
    rw [scriptDocument_eq, List.mapM_cons, statements]
    exact ⟨_, rfl⟩
  have own : (indexed (.primitive .string)).types.OwnIds := Collection.ownIds_ofRecords _
  obtain ⟨strings, only⟩ := record_keys own valid (mem_members _) (.here _) rendered
  have schema : (indexed (.primitive .string)).StringSchema (.scalar .string) := by
    refine strings (.enum (.payloads rfl (List.forall_mem_singleton.2 rfl) (List.forall_mem_singleton.2 ?_)))
    exact List.forall_mem_singleton.2 (.leaf (Or.inl rfl))
  exact ⟨valid, schema, only _ rfl written setsApart_key schema⟩

/-- A key that holds a number is accepted as well, and its schema is one of numbers. -/
theorem number_not_stringSchema : (indexed (.primitive .i32)).scope.validate = .ok () ∧
    (indexed (.primitive .i32)).schemaExpr expansionLimit ["Index"] (index (.primitive .i32)).shape =
      .ok (.record (.scalar .integer) (.scalar .integer)) ∧
    ¬ (indexed (.primitive .i32)).StringSchema (.scalar .integer) := by
  refine ⟨by cbv, by cbv, fun h => ?_⟩
  cases h with
  | scalar hk => cases hk

end Untagged

end Export

end ShapeExport
