import Mathlib
import ShapeExport.Proofs.JsonSchema.DistinctKeys

/-!
# Unions that lose no schema

A union leaves out schemas that equal one before. For that equality `true` is one and `false` is zero.

* `Schema.exists_same_distinctFrom`, `Schema.pairwise_distinctFrom` : each schema equals one that is kept, and those
  that are kept differ;
* `Schema.Offers` : what a union is made of;
* `Schema.keeps_iff` : the union keeps a schema alike each one, unless two of them differ in truth values only;
* `Context.union_keeps_iff` : so the schema of an enum has that of each variant.
-/

namespace ShapeExport.JsonSchema

namespace Schema

/-! ## Leaving out schemas -/

theorem exists_append_distinctFrom (done ts : List Schema) :
    ∃ us, us.Sublist ts ∧ distinctFrom done ts = done ++ us := by
  induction ts generalizing done with
  | nil => exact ⟨[], .slnil, (List.append_nil done).symm⟩
  | cons t ts ih =>
    rw [distinctFrom]
    split
    · obtain ⟨us, sub, e⟩ := ih done
      exact ⟨us, sub.cons t, e⟩
    · obtain ⟨us, sub, e⟩ := ih (done ++ [t])
      exact ⟨t :: us, sub.cons_cons t, by rw [e, List.append_assoc, List.singleton_append]⟩

theorem distinctFrom_sublist (ts : List Schema) : (distinctFrom [] ts).Sublist ts := by
  obtain ⟨us, sub, e⟩ := exists_append_distinctFrom [] ts
  rwa [e]

theorem mem_distinctFrom_of_mem {done : List Schema} {d : Schema} (h : d ∈ done) (ts : List Schema) :
    d ∈ distinctFrom done ts := by
  obtain ⟨us, -, e⟩ := exists_append_distinctFrom done ts
  rw [e]
  exact List.mem_append_left us h

/-- Each schema is kept, or one before that is the same. -/
theorem exists_same_distinctFrom {done ts : List Schema} {t : Schema} (h : t ∈ ts) :
    ∃ u ∈ distinctFrom done ts, u = t ∨ u.json.same t.json = true := by
  induction ts generalizing done with
  | nil => cases h
  | cons r ts ih =>
    rw [distinctFrom]
    rcases List.mem_cons.1 h with rfl | h
    · split
      · next known =>
        obtain ⟨d, hd, same⟩ := List.any_eq_true.1 known
        exact ⟨d, mem_distinctFrom_of_mem hd ts, Or.inr same⟩
      · have kept : t ∈ done ++ [t] := List.mem_append_right done (List.mem_singleton_self t)
        exact ⟨t, mem_distinctFrom_of_mem kept ts, Or.inl rfl⟩
    · split
      · exact ih h
      · exact ih h

/-- No schema that is kept is the same as one before. -/
theorem pairwise_distinctFrom {done : List Schema} (h : done.Pairwise fun d e => ¬ d.json.same e.json = true)
    (ts : List Schema) : (distinctFrom done ts).Pairwise fun d e => ¬ d.json.same e.json = true := by
  induction ts generalizing done with
  | nil => exact h
  | cons t ts ih =>
    rw [distinctFrom]
    split
    · exact ih h
    · next new =>
      refine ih (List.pairwise_append.2 ⟨h, List.pairwise_singleton _ _, fun d hd e he same => new ?_⟩)
      rw [List.mem_singleton.1 he] at same
      exact List.any_eq_true.2 ⟨d, hd, same⟩

/-! ## Unions -/

/-- The schema is the only one of `us`, or it lists them. -/
def Offers (s : Schema) (us : List Schema) : Prop := us = [s] ∨ us.length ≠ 1 ∧ s = .ofKeywords [.anyOf us]

theorem offers_anyOf (ts : List Schema) : (anyOf ts).Offers (distinctFrom [] ts) := by
  unfold anyOf
  split
  · next s e => exact Or.inl e
  · next several =>
    refine Or.inr ⟨fun one => ?_, rfl⟩
    obtain ⟨s, e⟩ := List.length_eq_one_iff.1 one
    exact several s e

/-- The values of the schemas are alike once truth values are read as numbers. -/
def Confuses (t u : Schema) : Prop := t.json.asNumbers.Alike u.json.asNumbers

section Keyed

variable {ts : List Schema} (keyed : ∀ t ∈ ts, t.Keyed)
include keyed

theorem exists_confuses {t : Schema} (ht : t ∈ ts) : ∃ u ∈ distinctFrom [] ts, u.Confuses t := by
  obtain ⟨u, hu, rfl | same⟩ := @exists_same_distinctFrom [] ts t ht
  · exact ⟨u, hu, (keyed u ht).alike_refl.asNumbers⟩
  · exact ⟨u, hu, ((keyed u ((distinctFrom_sublist ts).subset hu)).same_iff (keyed t ht)).1 same⟩

/-- Schemas that are kept are confused only with themselves. -/
theorem eq_of_confuses {t u : Schema} (ht : t ∈ distinctFrom [] ts) (hu : u ∈ distinctFrom [] ts)
    (h : t.Confuses u) : t = u := by
  have subset := (distinctFrom_sublist ts).subset
  have apart : (distinctFrom [] ts).Pairwise fun d e => ¬ d.Confuses e :=
    (pairwise_distinctFrom List.Pairwise.nil ts).imp_of_mem fun hd he different confused =>
      different (((keyed _ (subset hd)).same_iff (keyed _ (subset he))).2 confused)
  have symm : Std.Symm fun d e : Schema => ¬ d.Confuses e := ⟨fun _ _ different confused => different confused.symm⟩
  by_contra ne
  exact apart.forall ht hu ne h

/-- A union has a schema alike each one exactly if it confuses only those that are alike. -/
theorem keeps_iff : (∀ t ∈ ts, ∃ u ∈ distinctFrom [] ts, u.json.Alike t.json) ↔
    ∀ t ∈ ts, ∀ u ∈ ts, t.Confuses u → t.json.Alike u.json := by
  constructor
  · intro all t ht u hu confused
    obtain ⟨t', ht', alike⟩ := all t ht
    obtain ⟨u', hu', alike'⟩ := all u hu
    have same : t' = u' := eq_of_confuses keyed ht' hu' (alike.asNumbers.trans (confused.trans alike'.asNumbers.symm))
    subst same
    exact alike.symm.trans alike'
  · intro apart t ht
    obtain ⟨u, hu, confused⟩ := exists_confuses keyed ht
    exact ⟨u, hu, apart u ((distinctFrom_sublist ts).subset hu) t ht confused⟩

end Keyed

end Schema

/-! ## Enums -/

namespace Context
open Schema

variable {c : Context} {stack : List TypeKey}

/-- The schema of a variant of an enum, with its notes. -/
def variant (c : Context) (stack : List TypeKey) (path : Path) (name : String) (vs : List (Variant Shape))
    (tagging : Option Tagging) (v : Variant Shape) : Except Error Schema := do
  let r ← c.scope.represent path name vs tagging
  let schema ← c.variantSchema stack r (path ++ [v.name]) (r.variantKey v) v.body
  return schema.annotate (docLines v.docs) v.deprecation.isSome

/-- The schemas of the variants that are kept, and their union. -/
theorem exists_variants {path : Path} {name : String} {vs : List (Variant Shape)} {tagging : Option Tagging}
    {s : Schema} (labels : c.HasTextLabels stack (.enum name vs tagging))
    (h : c.schemaIn stack path (.enum name vs tagging) = .ok s) :
    ∃ ts, List.Forall₂ (fun v t => c.variant stack (path.enter name) name vs tagging v = .ok t) (Variant.kept vs) ts ∧
      (∀ t ∈ ts, t.Keyed) ∧ (ts ≠ [] → s = anyOf ts) := by
  rw [schemaIn] at h
  split at h
  · next none =>
    rw [List.isEmpty_iff.1 none]
    exact ⟨[], .nil, List.forall_mem_nil _, fun ne => absurd rfl ne⟩
  · obtain ⟨r, hr, h⟩ := bind_eq_ok.1 h
    obtain ⟨ts, hts, rfl⟩ := map_eq_ok.1 h
    have distinct := hasDistinctLabels_of_represent (labels _ name vs tagging (.here _ _)) hr
    refine ⟨ts, ?_, keyed_variantSchemas distinct (fun v hv t ht => ?_) hts, fun _ => rfl⟩
    · rw [variantSchemas_eq_mapM] at hts
      exact (mapM_eq_ok.1 hts).imp fun v t ht => bind_eq_ok.2 ⟨r, hr, ht⟩
    · exact keyed_schemaIn (labels.of_part (List.mem_flatMap.2 ⟨v, hv, ht⟩))

/-- **What the union of an enum keeps.** The schema of an enum is made of some of the schemas of its variants. It has
one for each variant, up to truth values that are read as numbers; and one alike that of each variant exactly if no two
of them differ in this alone. -/
theorem union_keeps_iff (c : Context) (stack : List TypeKey) (path : Path) (name : String) (vs : List (Variant Shape))
    (tagging : Option Tagging) (labels : c.HasTextLabels stack (.enum name vs tagging)) {s : Schema}
    (h : c.schemaIn stack path (.enum name vs tagging) = .ok s) :
    ∃ ts us, List.Forall₂ (fun v t => c.variant stack (path.enter name) name vs tagging v = .ok t)
        (Variant.kept vs) ts ∧
      us.Sublist ts ∧ (ts ≠ [] → s.Offers us) ∧ (∀ t ∈ ts, ∃ u ∈ us, u.Confuses t) ∧
      ((∀ t ∈ ts, ∃ u ∈ us, u.json.Alike t.json) ↔ ∀ t ∈ ts, ∀ u ∈ ts, t.Confuses u → t.json.Alike u.json) := by
  obtain ⟨ts, rendered, keyed, union⟩ := exists_variants labels h
  refine ⟨ts, distinctFrom [] ts, rendered, distinctFrom_sublist ts, fun some => ?_, fun t ht => ?_, keeps_iff keyed⟩
  · rw [union some]
    exact offers_anyOf ts
  · exact exists_confuses keyed ht

/-! ### Truth values and numbers -/

theorem hasTextLabels_of_parts {s : Shape} (hs : ∀ id arguments, s ≠ .reference id arguments)
    (own : ∀ name vs tagging, s = .enum name vs tagging → (c.scope.overrides.effective name tagging).HasTextLabels)
    (parts : ∀ t ∈ s.parts, c.HasTextLabels stack t) : c.HasTextLabels stack s := by
  intro stack' name vs tagging hv
  cases hv with
  | here => exact own name vs tagging rfl
  | part ht hv => exact parts _ ht stack' name vs tagging hv
  | expand => exact absurd rfl (hs _ _)

namespace Flags

def site : Context := { toExport := ⟨{ language := .jsonschema }, .ofRecords []⟩ }

def ofLiteral (name : String) (value : Literal) : Variant Shape :=
  { name, body := .positional [{ name := none, ty := .literal value }] }

def on : Variant Shape := ofLiteral "On" (.bool true)

def one : Variant Shape := ofLiteral "One" (.integer .i32 1 (by decide))

def two : Variant Shape := ofLiteral "Two" (.integer .i32 2 (by decide))

def flag : Shape := .enum "Flag" [on, one] (some .untagged)

def level : Shape := .enum "Level" [on, two] (some .untagged)

def constant (value : Json) : Schema := .ofKeywords [.const value]

theorem alike_of_member {key : String} {v w : Json} (h : (Json.object [(key, v)]).Alike (.object [(key, w)])) :
    v.Alike w := by
  cases h with
  | object _ members => exact members key v w List.lookup_cons_self List.lookup_cons_self

theorem keyed_constant {v : Json} (h : v.isScalar) : (constant v).Keyed := keyed_single (.scalar h)

/-- The schemas of `true` and of another number are kept. -/
theorem union_keeps_level : site.HasTextLabels [] level ∧
    site.schemaIn [] [] level = .ok (.ofKeywords [.anyOf [constant (.bool true), constant (.integer 2)]]) ∧
    ∃ ts us, List.Forall₂ (fun v t => site.variant [] ["Level"] "Level" [on, two] (some .untagged) v = .ok t)
        (Variant.kept [on, two]) ts ∧
      (Schema.ofKeywords [.anyOf [constant (.bool true), constant (.integer 2)]]).Offers us ∧
      ∀ t ∈ ts, ∃ u ∈ us, u.json.Alike t.json := by
  have labels : site.HasTextLabels [] level := by
    refine hasTextLabels_of_parts (fun _ _ e => by cases e) (fun _ _ _ e => by cases e; trivial) fun t ht => ?_
    have leaf (l : Literal) : site.HasTextLabels [] (.literal l) :=
      hasTextLabels_of_parts (fun _ _ e => by cases e) (fun _ _ _ e => by cases e) (List.forall_mem_nil _)
    have both : ∀ t ∈ level.parts, site.HasTextLabels [] t :=
      List.forall_mem_cons.2 ⟨leaf _, List.forall_mem_singleton.2 (leaf _)⟩
    exact both t ht
  have rendered : site.schemaIn [] [] level =
      .ok (.ofKeywords [.anyOf [constant (.bool true), constant (.integer 2)]]) := by cbv
  obtain ⟨ts, us, each, -, offers, -, keeps⟩ :=
    union_keeps_iff site [] [] "Level" [on, two] (some .untagged) labels rendered
  have schemas : [on, two].mapM (site.variant [] ["Level"] "Level" [on, two] (some .untagged)) =
      .ok [constant (.bool true), constant (.integer 2)] := by cbv
  obtain rfl : ts = [constant (.bool true), constant (.integer 2)] :=
    Except.ok.inj ((mapM_eq_ok.2 each).symm.trans schemas)
  have apart : ¬ (constant (.bool true)).Confuses (constant (.integer 2)) := by
    intro confused
    have numbers : (Json.integer 1).Alike (.integer 2) := alike_of_member confused
    exact absurd (Json.alike_number.1 numbers) (by decide)
  refine ⟨labels, rendered, _, us, each, offers (List.cons_ne_nil _ _), keeps.2 fun t ht u hu confused => ?_⟩
  simp only [List.mem_cons, List.not_mem_nil, or_false] at ht hu
  rcases ht with rfl | rfl <;> rcases hu with rfl | rfl
  · exact (keyed_constant rfl).alike_refl
  · exact absurd confused apart
  · exact absurd confused.symm apart
  · exact (keyed_constant rfl).alike_refl

/-- The schema of the number one is lost beside that of `true`. -/
theorem one_is_lost :
    site.schemaIn [] [] flag = .ok (constant (.bool true)) ∧
    site.variant [] ["Flag"] "Flag" [on, one] (some .untagged) one = .ok (constant (.integer 1)) ∧
    ∀ us, (constant (.bool true)).Offers us → ∀ u ∈ us, ¬ u.json.Alike (constant (.integer 1)).json := by
  refine ⟨by cbv, by cbv, ?_⟩
  rintro us (rfl | ⟨-, union⟩) u hu alike
  · rw [List.mem_singleton.1 hu] at alike
    have truth : (Json.bool true).Alike (.integer 1) := alike_of_member alike
    cases truth
  · cases union

end Flags

end Context

end ShapeExport.JsonSchema
