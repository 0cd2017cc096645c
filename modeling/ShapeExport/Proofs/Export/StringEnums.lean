import Mathlib
import ShapeExport.Proofs.Casing
import ShapeExport.Proofs.JsonSchema.Union
import ShapeExport.Proofs.Text.Literals
import ShapeExport.Proofs.TypeScript.Formed
import ShapeExport.Proofs.Zod.Formed

/-!
# Enums of strings

An enum that is represented by strings is a union of constants. Constants that are written alike count once, so a casing
that makes different names alike would take variants away.

* `Scope.Spells` : an enum of units that a rule turns into strings;
* `Variant.distinctNames`, `Variant.distinctEntries` : its names, and its names with what is noted beside them;
* `TypeScript.TypeExpr.alternatives`, `Zod.Schema.alternatives`, `JsonSchema.Schema.alternatives` : the members of a
  union;
* `Export.alternatives_typeExpr`, `Export.alternatives_schemaExpr`, `JsonSchema.Context.alternatives_schemaIn` : the
  three languages have a constant for each name;
* `Casing.keeps_names` : so no name is lost, on the way through a rule and in a union.
-/

namespace ShapeExport
open Casing (isVariantName wordwise)

/-! ## The enums -/

/-- The enum is made of units without new names, and a rule turns its names into strings. -/
structure Scope.Spells (scope : Scope) (rule : Casing) (name : String) (vs : List (Variant Shape))
    (tagging : Option Tagging) : Prop where
  effective : scope.overrides.effective name tagging = .strings (.string rule.name)
  units : Variant.allUnits vs
  named : ∀ v ∈ Variant.kept vs, v.rename = none ∧ isVariantName v.name

namespace Variant

variable {σ : Type}

/-- The names of the variants that are kept, each once. -/
def distinctNames (vs : List (Variant σ)) : List String := Text.distinctBy id ((kept vs).map (·.name))

/-- The description of a variant, and whether it is marked as deprecated. -/
def note (v : Variant σ) : Option String × Bool :=
  (if (docLines v.docs).isEmpty then none else some ("\n".intercalate (docLines v.docs)), v.deprecation.isSome)

/-- The names of the variants that are kept with what is noted beside them, each pair once. -/
def distinctEntries (vs : List (Variant σ)) : List (String × Option String × Bool) :=
  Text.distinctBy id ((kept vs).map fun v => (v.name, v.note))

end Variant

theorem Text.length_distinctBy_id {α : Type} [DecidableEq α] [BEq α] [LawfulBEq α] (xs : List α) :
    (Text.distinctBy id xs).length = xs.toFinset.card := by
  have nodup : ((Text.distinctBy id xs).map id).Nodup := Text.nodup_distinctBy xs
  have members (x : α) : x ∈ (Text.distinctBy id xs).map id ↔ x ∈ xs.map id := Text.mem_map_distinctBy
  simp only [List.map_id] at nodup members
  have same : (Text.distinctBy id xs).toFinset = xs.toFinset := by
    ext x
    rw [List.mem_toFinset, List.mem_toFinset, members]
  rw [← List.toFinset_card_of_nodup nodup, same]

theorem ofJson_name {rule : Casing} (hr : rule ∈ wordwise) (path : Path) :
    Casing.ofJson path (.string rule.name) = .ok rule := by
  rcases Casing.mem_wordwise.1 hr with rfl | rfl | rfl | rfl | rfl <;> rfl

variable {rule : Casing} {name : String} {vs : List (Variant Shape)} {tagging : Option Tagging}

theorem Scope.Spells.represent {scope : Scope} (hr : rule ∈ wordwise) (h : scope.Spells rule name vs tagging)
    (path : Path) : scope.represent path name vs tagging = .ok (.strings rule) := by
  rw [Scope.represent, h.effective]
  dsimp only
  rw [if_pos h.units, ofJson_name hr]
  rfl

theorem Scope.Spells.variantKey {scope : Scope} (h : scope.Spells rule name vs tagging) {v : Variant Shape}
    (hv : v ∈ Variant.kept vs) : (Representation.strings rule).variantKey v = rule.onVariant v.name := by
  simp only [Representation.variantKey, (h.named v hv).1]

/-- Different names of an enum have different keys. -/
theorem Scope.Spells.onVariant_inj {scope : Scope} (hr : rule ∈ wordwise) (h : scope.Spells rule name vs tagging)
    {s t : String} (hs : s ∈ (Variant.kept vs).map (·.name)) (ht : t ∈ (Variant.kept vs).map (·.name))
    (e : rule.onVariant s = rule.onVariant t) : s = t := by
  have valid {s : String} (hs : s ∈ (Variant.kept vs).map (·.name)) : isVariantName s := by
    obtain ⟨v, hv, rfl⟩ := List.mem_map.1 hs
    exact (h.named v hv).2
  exact Casing.onVariant_injOn hr (valid hs) (valid ht) e

/-! ## TypeScript -/

namespace TypeScript.TypeExpr

/-- The members of a union. The type without values has none, and any other type is its only one. -/
def alternatives : TypeExpr → List TypeExpr
  | union members => members
  | builtin name => if name = "never" then [] else [builtin name]
  | e => [e]

end TypeScript.TypeExpr

namespace Export

variable {x : Export}

/-- The type of an enum of strings has a constant for each name. -/
theorem alternatives_typeExpr (hr : rule ∈ wordwise) (h : x.scope.Spells rule name vs tagging) (path : Path) :
    ∃ e, x.typeExpr path (.enum name vs tagging) = .ok e ∧
      e.alternatives = (Variant.distinctNames vs).map fun n => stringConstant (rule.onVariant n) := by
  rw [typeExpr]
  by_cases none : (Variant.kept vs).isEmpty
  · refine ⟨_, if_pos none, ?_⟩
    rw [Variant.distinctNames, List.isEmpty_iff.1 none]
    rfl
  · refine ⟨.unionOf (((Variant.kept vs).map (·.name)).map fun n => stringConstant (rule.onVariant n)), ?_, ?_⟩
    · have each : ∀ v ∈ Variant.kept vs, x.variantExpr (.strings rule) (path.enter name ++ [v.name])
          ((Representation.strings rule).variantKey v) v.body = .ok (stringConstant (rule.onVariant v.name)) := by
        intro v hv
        rw [variantExpr, h.variantKey hv]
      rw [if_neg none, h.represent hr, List.map_map]
      show (x.variantExprs (.strings rule) (path.enter name) vs >>= fun es => pure (TypeScript.TypeExpr.unionOf es)) = _
      rw [variantExprs_eq_mapM, mapM_ok each]
      rfl
    · refine Text.distinctBy_map fun s hs t ht e => ?_
      exact h.onVariant_inj hr hs ht (Text.literal_injective .ascii e)

end Export

/-! ## Zod -/

namespace Zod.Schema

/-- The members of a union. The schema without values has none, and any other schema is its only one. -/
def alternatives : Schema → List Schema
  | union members => members
  | scalar .never => []
  | e => [e]

/-- A union of literals keeps its members, also if there is only one. -/
theorem alternatives_unionOf {es : List Schema} (h : ∀ e ∈ es, e.alternatives = [e]) :
    (unionOf es).alternatives = Text.distinctBy text es := by
  unfold unionOf
  split
  · next e single =>
    have member : e ∈ Text.distinctBy text es := single ▸ List.mem_singleton_self e
    rw [single]
    exact h e (Text.mem_of_mem_distinctBy member)
  · rfl

end Zod.Schema

namespace Export

variable {x : Export} {left : Nat}

theorem text_stringLiteral_injective : Function.Injective fun s => (stringLiteral s).text := by
  intro s t e
  have texts : "z.literal(" ++ Text.literal .ascii s ++ ")" = "z.literal(" ++ Text.literal .ascii t ++ ")" := e
  rw [String.append_left_inj, String.append_right_inj] at texts
  exact Text.literal_injective .ascii texts

/-- The Zod schema of an enum of strings has a literal for each name. -/
theorem alternatives_schemaExpr (hr : rule ∈ wordwise) (h : x.scope.Spells rule name vs tagging) (left : Nat)
    (path : Path) :
    ∃ s, x.schemaExpr left path (.enum name vs tagging) = .ok s ∧
      s.alternatives = (Variant.distinctNames vs).map fun n => stringLiteral (rule.onVariant n) := by
  rw [schemaExpr]
  by_cases none : (Variant.kept vs).isEmpty
  · refine ⟨_, if_pos none, ?_⟩
    rw [Variant.distinctNames, List.isEmpty_iff.1 none]
    rfl
  · refine ⟨.unionOf (((Variant.kept vs).map (·.name)).map fun n => stringLiteral (rule.onVariant n)), ?_, ?_⟩
    · have each : ∀ v ∈ Variant.kept vs, x.variantSchema left (.strings rule) (path.enter name ++ [v.name])
          ((Representation.strings rule).variantKey v) v.body = .ok (stringLiteral (rule.onVariant v.name)) := by
        intro v hv
        rw [variantSchema, h.variantKey hv]
      rw [if_neg none, h.represent hr, List.map_map]
      show (x.variantSchemas left (.strings rule) (path.enter name) vs >>= fun es => pure (Zod.Schema.unionOf es)) = _
      rw [variantSchemas_eq_mapM, mapM_ok each]
      rfl
    · rw [Zod.Schema.alternatives_unionOf (List.forall_mem_map.2 fun _ _ => rfl)]
      refine Text.distinctBy_map fun s hs t ht e => ?_
      exact h.onVariant_inj hr hs ht (text_stringLiteral_injective e)

end Export

/-! ## JSON Schema -/

namespace JsonSchema

namespace Schema

/-- The members of a union. The schema without values has none, and any other schema is its only one. -/
def alternatives : Schema → List Schema
  | .ofKeywords [.anyOf schemas] => schemas
  | .ofKeywords [.not _] => []
  | s => [s]

/-- A constant with what is noted beside it. -/
def notedConst (key : String) (note : Option String × Bool) : Schema :=
  .ofKeywords (.const (.string key) ::
    ((note.1.map Keyword.description).toList ++ if note.2 then [Keyword.deprecated] else []))

theorem annotate_const (key : String) (v : Variant Shape) :
    (const key).annotate (docLines v.docs) v.deprecation.isSome = notedConst key v.note := by
  unfold annotate notedConst Variant.note
  cases (docLines v.docs).isEmpty <;> cases v.deprecation.isSome <;> rfl

/-- Constants are the same value if they have the same key and the same notes. -/
theorem same_notedConst {key key' : String} {note note' : Option String × Bool} :
    (notedConst key note).json.same (notedConst key' note').json = true ↔ key = key' ∧ note = note' := by
  obtain ⟨description, isDeprecated⟩ := note
  obtain ⟨description', isDeprecated'⟩ := note'
  have truth : (Json.numeric? (.bool true)).any (Number.integer 1).eq = true := by decide
  cases description <;> cases description' <;> cases isDeprecated <;> cases isDeprecated' <;>
    simp [notedConst, json, members, member, Json.same, Json.sameMembers, List.lookup, truth]

/-- What is left of schemas that are the same only if they were made of the same. -/
theorem distinctFrom_map {α : Type} [BEq α] [LawfulBEq α] {f : α → Schema}
    (same : ∀ a b, (f a).json.same (f b).json = true ↔ a = b) (done seen as : List α)
    (known : ∀ a, a ∈ done ↔ a ∈ seen) :
    distinctFrom (done.map f) (as.map f) = (done ++ Text.distinctFrom id seen as).map f := by
  induction as generalizing done seen with
  | nil => rw [Text.distinctFrom, List.append_nil]; rfl
  | cons a as ih =>
    have before : ((done.map f).any fun d => d.json.same (f a).json) = seen.contains (id a) := by
      rw [Bool.eq_iff_iff, List.any_eq_true, List.contains_iff_mem, ← known]
      constructor
      · rintro ⟨d, hd, e⟩
        obtain ⟨b, hb, rfl⟩ := List.mem_map.1 hd
        exact (same b a).1 e ▸ hb
      · exact fun ha => ⟨f a, List.mem_map_of_mem ha, (same a a).2 rfl⟩
    rw [List.map_cons, distinctFrom, Text.distinctFrom, before]
    split
    · exact ih done seen known
    · have next := ih (done ++ [a]) (a :: seen) fun b => by simp [known, or_comm]
      rw [List.map_append, List.map_singleton, List.append_assoc, List.singleton_append] at next
      exact next

theorem alternatives_anyOf {ss : List Schema} (h : ∀ s ∈ ss, s.alternatives = [s]) :
    (anyOf ss).alternatives = distinctFrom [] ss := by
  unfold anyOf
  split
  · next s single =>
    rw [single]
    exact h s ((distinctFrom_sublist ss).subset (single ▸ List.mem_singleton_self s))
  · rfl

end Schema

namespace Context
open Schema

variable {c : Context}

/-- The schema of an enum of strings has a constant for each name and each way in which it is documented. -/
theorem alternatives_schemaIn (hr : rule ∈ wordwise) (h : c.scope.Spells rule name vs tagging) (stack : List TypeKey)
    (path : Path) :
    ∃ s, c.schemaIn stack path (.enum name vs tagging) = .ok s ∧
      s.alternatives = (Variant.distinctEntries vs).map fun entry => notedConst (rule.onVariant entry.1) entry.2 := by
  rw [schemaIn]
  by_cases none : (Variant.kept vs).isEmpty
  · refine ⟨_, if_pos none, ?_⟩
    rw [Variant.distinctEntries, List.isEmpty_iff.1 none]
    rfl
  · refine ⟨anyOf ((Variant.kept vs).map fun v => notedConst (rule.onVariant v.name) v.note), ?_, ?_⟩
    · have each : ∀ v ∈ Variant.kept vs, (do
          let schema ← c.variantSchema stack (.strings rule) (path.enter name ++ [v.name])
            ((Representation.strings rule).variantKey v) v.body
          return schema.annotate (docLines v.docs) v.deprecation.isSome) =
            .ok (notedConst (rule.onVariant v.name) v.note) := by
        intro v hv
        rw [variantSchema, h.variantKey hv, ← annotate_const]
        rfl
      rw [if_neg none, h.represent hr]
      show (c.variantSchemas stack (.strings rule) (path.enter name) vs >>= fun ss => pure (anyOf ss)) = _
      rw [variantSchemas_eq_mapM, mapM_ok each]
      rfl
    · have keyed : ((Variant.kept vs).map fun v => notedConst (rule.onVariant v.name) v.note) =
          (((Variant.kept vs).map fun v => (v.name, v.note)).map fun entry =>
            (rule.onVariant entry.1, entry.2)).map fun entry => notedConst entry.1 entry.2 := by
        rw [List.map_map, List.map_map]
        rfl
      rw [alternatives_anyOf (List.forall_mem_map.2 fun _ _ => rfl), keyed]
      refine (distinctFrom_map (fun _ _ => same_notedConst.trans Prod.ext_iff.symm) [] [] _ fun _ => Iff.rfl).trans ?_
      refine (congrArg _ (Text.distinctBy_map fun entry he entry' he' e => ?_)).trans (List.map_map ..)
      obtain ⟨v, hv, rfl⟩ := List.mem_map.1 he
      obtain ⟨w, hw, rfl⟩ := List.mem_map.1 he'
      obtain ⟨keys, notes⟩ := Prod.mk.inj e
      have names := h.onVariant_inj hr (List.mem_map_of_mem hv) (List.mem_map_of_mem hw) keys
      exact Prod.ext names notes

end Context

end JsonSchema

/-! ## Names and alternatives -/

namespace Variant

theorem length_distinctNames (vs : List (Variant Shape)) :
    (distinctNames vs).length = ((kept vs).map (·.name)).toFinset.card := Text.length_distinctBy_id _

theorem length_distinctEntries (vs : List (Variant Shape)) :
    (distinctEntries vs).length = ((kept vs).map fun v => (v.name, v.note)).toFinset.card := Text.length_distinctBy_id _

/-- Variants of one name have the same notes. -/
def NotedAlike (vs : List (Variant Shape)) : Prop := ∀ v ∈ kept vs, ∀ w ∈ kept vs, v.name = w.name → v.note = w.note

theorem NotedAlike.length_eq {vs : List (Variant Shape)} (h : NotedAlike vs) :
    (distinctEntries vs).length = (distinctNames vs).length := by
  have names : ((kept vs).map fun v => (v.name, v.note)).toFinset.image Prod.fst =
      ((kept vs).map (·.name)).toFinset := by
    ext n
    simp
  rw [length_distinctEntries, length_distinctNames, ← names]
  refine (Finset.card_image_of_injOn fun entry he entry' he' e => ?_).symm
  rw [Finset.mem_coe, List.mem_toFinset] at he he'
  obtain ⟨v, hv, rfl⟩ := List.mem_map.1 he
  obtain ⟨w, hw, rfl⟩ := List.mem_map.1 he'
  exact Prod.ext e (h v hv w hw e)

theorem notedAlike_of_nodup {vs : List (Variant Shape)} (h : ((kept vs).map (·.name)).Nodup) : NotedAlike vs :=
  fun _ hv _ hw e => congrArg note (List.inj_on_of_nodup_map h hv hw e)

theorem length_distinctNames_of_nodup {vs : List (Variant Shape)} (h : ((kept vs).map (·.name)).Nodup) :
    (distinctNames vs).length = (kept vs).length := by
  rw [length_distinctNames, List.toFinset_card_of_nodup h, List.length_map]

end Variant

/-- **Casings lose no name.** Take names of ASCII letters and digits that start with a capital. Such a name comes back
from its snake form, and each rule that keeps words apart makes of this form what it makes of the name; so it makes
different names different. An enum of strings under such a rule is rendered, with as many alternatives as there are
names among its kept variants: one for each variant if these have different names. Only JSON Schema keeps variants of
one name apart, if they are documented in different ways. -/
theorem Casing.keeps_names :
    (∀ v, isVariantName v → pascal.onField (snake.onVariant v) = v ∧
      ∀ rule ∈ wordwise, rule.onField (snake.onVariant v) = rule.onVariant v) ∧
    (∀ rule ∈ wordwise, ∀ v w, isVariantName v → isVariantName w → rule.onVariant v = rule.onVariant w → v = w) ∧
    ∀ (c : JsonSchema.Context) (rule : Casing) (name : String) (vs : List (Variant Shape)) (tagging : Option Tagging),
      rule ∈ wordwise → c.scope.Spells rule name vs tagging → ∀ (path : Path) (left : Nat) (stack : List TypeKey),
      ∃ type zod schema, c.typeExpr path (.enum name vs tagging) = .ok type ∧
        c.schemaExpr left path (.enum name vs tagging) = .ok zod ∧
        c.schemaIn stack path (.enum name vs tagging) = .ok schema ∧
        type.alternatives.length = ((Variant.kept vs).map (·.name)).toFinset.card ∧
        zod.alternatives.length = ((Variant.kept vs).map (·.name)).toFinset.card ∧
        (Variant.NotedAlike vs → schema.alternatives.length = ((Variant.kept vs).map (·.name)).toFinset.card) ∧
        schema.alternatives.length = ((Variant.kept vs).map fun v => (v.name, v.note)).toFinset.card ∧
        (((Variant.kept vs).map (·.name)).Nodup → type.alternatives.length = (Variant.kept vs).length ∧
          zod.alternatives.length = (Variant.kept vs).length ∧
          schema.alternatives.length = (Variant.kept vs).length) := by
  refine ⟨fun v hv => ⟨?_, fun rule hr => ?_⟩, fun rule hr v w hv hw e => onVariant_injOn hr hv hw e, ?_⟩
  · exact (onField_onVariant_snake List.mem_cons_self hv).trans String.ofList_toList
  · exact onField_onVariant_snake (List.mem_cons_of_mem _ hr) hv
  · intro c rule name vs tagging hr h path left stack
    obtain ⟨type, rendered, types⟩ := Export.alternatives_typeExpr hr h path
    obtain ⟨zod, rendered', zods⟩ := Export.alternatives_schemaExpr hr h left path
    obtain ⟨schema, rendered'', schemas⟩ := JsonSchema.Context.alternatives_schemaIn hr h stack path
    refine ⟨type, zod, schema, rendered, rendered', rendered'', ?_⟩
    simp only [types, zods, schemas, List.length_map, ← Variant.length_distinctNames,
      ← Variant.length_distinctEntries]
    refine ⟨trivial, trivial, Variant.NotedAlike.length_eq, trivial, fun nodup => ?_⟩
    rw [(Variant.notedAlike_of_nodup nodup).length_eq, Variant.length_distinctNames_of_nodup nodup]
    exact ⟨rfl, rfl, rfl⟩

/-! ### Runs of capitals and digits -/

namespace Palette

def site : JsonSchema.Context :=
  { toExport := ⟨{ overrides := [("Color", .strings (.string "kebab-case"))] }, .ofRecords []⟩ }

def colors : List (Variant Shape) :=
  [{ name := "DarkRed" }, { name := "HTTPBlue2", docs := ["As on the web."] }, { name := "unset", skip := true },
    { name := "X11Gray", deprecation := some {} }]

theorem keeps_names_colors :
    Casing.kebab ∈ wordwise ∧ isVariantName "HTTPBlue2" ∧ isVariantName "HttpBlue2" ∧
    Casing.pascal.onField (Casing.snake.onVariant "HTTPBlue2") = "HTTPBlue2" ∧
    Casing.kebab.onVariant "HTTPBlue2" = "h-t-t-p-blue2" ∧
    Casing.kebab.onVariant "HTTPBlue2" ≠ Casing.kebab.onVariant "HttpBlue2" ∧
    site.scope.Spells .kebab "Color" colors none ∧ Variant.NotedAlike colors ∧
    ((Variant.kept colors).map (·.name)).Nodup ∧
    ∃ type zod schema, site.typeExpr [] (.enum "Color" colors none) = .ok type ∧
      site.schemaExpr 0 [] (.enum "Color" colors none) = .ok zod ∧
      site.schemaIn [] [] (.enum "Color" colors none) = .ok schema ∧
      type.alternatives.length = 3 ∧ zod.alternatives.length = 3 ∧ schema.alternatives.length = 3 := by
  have rule : Casing.kebab ∈ wordwise := by decide
  have valid : isVariantName "HTTPBlue2" := by decide
  have valid' : isVariantName "HttpBlue2" := by decide
  have spells : site.scope.Spells .kebab "Color" colors none := ⟨by rfl, by decide, by decide⟩
  have nodup : ((Variant.kept colors).map (·.name)).Nodup := by decide
  obtain ⟨back, apart, rendered⟩ := Casing.keeps_names
  obtain ⟨type, zod, schema, ht, hz, hs, -, -, -, -, all⟩ :=
    rendered site .kebab "Color" colors none rule spells [] 0 []
  refine ⟨rule, valid, valid', (back _ valid).1, by decide, fun e => ?_, spells,
    Variant.notedAlike_of_nodup nodup, nodup, type, zod, schema, ht, hz, hs, all nodup⟩
  exact absurd (apart .kebab rule _ _ valid valid' e) (by decide)

end Palette

end ShapeExport
