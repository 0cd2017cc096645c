import Mathlib
import ShapeExport.Proofs.JsonSchema.Keys

/-!
# Keys as what reduces to a key

The check of map keys gives up on a record that it is in. Beside it stands the rule that it is meant to
follow: a shape is a key if it reduces to one in finitely many steps.

* `Scope.ReducesToKey` : the rule;
* `Scope.KeyStep` : one step of the reduction, and `Scope.ComesBack` : a record that comes again on the way;
* `Scope.isKey_iff` : the check takes the shapes that reduce to a key, unless it meets a record again;
* `Scope.ReducesToKey.isGeneric_of_comesBack` : where the rule applies, only a record with parameters can come
  again;
* `Scope.isMapKey_iff` : the same for the answer of the check.
-/

namespace ShapeExport

open Relation

namespace Scope

variable {scope : Scope} {free : Bool} {seen : List TypeKey}

/-! ## The rule -/

/-- A shape reduces to a key in finitely many steps. `free` tells whether a type parameter is one. -/
inductive ReducesToKey (scope : Scope) (free : Bool) : Shape → Prop
  | primitive {kind : Primitive} : kind.isNumber ∨ kind.isStringLike → ReducesToKey scope free (.primitive kind)
  | literal {value : Literal} : (∀ b, value ≠ .bool b) → value ≠ .none → ReducesToKey scope free (.literal value)
  | foreign {value : Foreign} : ReducesToKey scope free (.foreign value)
  | placeholder {name : String} : free = true → ReducesToKey scope free (.placeholder name)
  | nullable {inner : Shape} : ReducesToKey scope free inner → ReducesToKey scope free (.nullable inner)
  | enum {name : String} {vs : List (Variant Shape)} {tagging : Option Tagging} :
      (∀ v ∈ Variant.kept vs, v.body.isUnit ∨ (scope.overrides.effective name tagging).isUntagged ∧
        v.body.isPositional ∧ v.body.kept.length ≤ 1) →
      (∀ v ∈ Variant.kept vs, ∀ t ∈ v.body.kept, ReducesToKey scope free t) →
      ReducesToKey scope free (.enum name vs tagging)
  | reference {id : TypeId} {arguments : List Shape} {r : Record} : scope.types.resolve id.key = some r →
      ReducesToKey scope free (r.expand arguments) → ReducesToKey scope free (.reference id arguments)

/-- Whether the first shape is a key depends on the second one. -/
inductive KeyStep (scope : Scope) : Shape → Shape → Prop
  | nullable {inner : Shape} : KeyStep scope (.nullable inner) inner
  | payload {name : String} {vs : List (Variant Shape)} {tagging : Option Tagging} {v : Variant Shape} {t : Shape} :
      v ∈ Variant.kept vs → t ∈ v.body.kept → KeyStep scope (.enum name vs tagging) t
  | target {id : TypeId} {arguments : List Shape} {r : Record} : scope.types.resolve id.key = some r →
      KeyStep scope (.reference id arguments) (r.expand arguments)

/-- On the way from the shape there is a reference to the id. -/
def ComesTo (scope : Scope) (k : TypeKey) (s : Shape) : Prop :=
  ∃ id arguments, id.key = k ∧ ReflTransGen scope.KeyStep s (.reference id arguments)

/-- On the way from the shape there is a reference to the record, and another one on the way from its body. -/
def ComesBack (scope : Scope) (r : Record) (s : Shape) : Prop :=
  ∃ id arguments, scope.types.resolve id.key = some r ∧
    ReflTransGen scope.KeyStep s (.reference id arguments) ∧ scope.ComesTo id.key (r.expand arguments)

/-- No id on the way from the shape was seen before, and none comes twice. -/
structure MeetsOnce (scope : Scope) (seen : List TypeKey) (s : Shape) : Prop where
  unseen : ∀ k ∈ seen, ¬ scope.ComesTo k s
  once : ∀ r, ¬ scope.ComesBack r s

/-! ## Records on the way -/

theorem ComesTo.of_step {k : TypeKey} {s t : Shape} (h : scope.KeyStep s t) (ht : scope.ComesTo k t) : scope.ComesTo k s := by
  obtain ⟨id, arguments, hk, hr⟩ := ht
  exact ⟨id, arguments, hk, .head h hr⟩

theorem ComesBack.of_step {r : Record} {s t : Shape} (h : scope.KeyStep s t) (ht : scope.ComesBack r t) :
    scope.ComesBack r s := by
  obtain ⟨id, arguments, hr, ha, hm⟩ := ht
  exact ⟨id, arguments, hr, .head h ha, hm⟩

theorem MeetsOnce.of_step {s t : Shape} (h : scope.MeetsOnce seen s) (ht : scope.KeyStep s t) :
    scope.MeetsOnce seen t where
  unseen k hk hm := h.unseen k hk (hm.of_step ht)
  once r hm := h.once r (hm.of_step ht)

/-- What is no reference meets what its steps meet. -/
theorem MeetsOnce.of_steps {s : Shape} (no : ∀ id arguments, s ≠ .reference id arguments)
    (h : ∀ t, scope.KeyStep s t → scope.MeetsOnce seen t) : scope.MeetsOnce seen s where
  unseen k hk hm := by
    obtain ⟨id, arguments, e, ha⟩ := hm
    rcases ha.cases_head with here | ⟨t, ht, ha⟩
    · exact no id arguments here
    · exact (h t ht).unseen k hk ⟨id, arguments, e, ha⟩
  once r hm := by
    obtain ⟨id, arguments, hr, ha, hm⟩ := hm
    rcases ha.cases_head with here | ⟨t, ht, ha⟩
    · exact no id arguments here
    · exact (h t ht).once r ⟨id, arguments, hr, ha, hm⟩

/-- A reference meets its own id, and what the body of its record meets. -/
theorem meetsOnce_reference {id : TypeId} {arguments : List Shape} {r : Record}
    (hr : scope.types.resolve id.key = some r) : scope.MeetsOnce seen (.reference id arguments) ↔
      id.key ∉ seen ∧ scope.MeetsOnce (id.key :: seen) (r.expand arguments) := by
  have next {t : Shape} (ht : scope.KeyStep (.reference id arguments) t) : t = r.expand arguments := by
    cases ht with
    | target hr' => rw [Option.some.inj (hr.symm.trans hr')]
  constructor
  · intro h
    have body : scope.MeetsOnce seen (r.expand arguments) := h.of_step (.target hr)
    refine ⟨fun hs => h.unseen id.key hs ⟨id, arguments, rfl, .refl⟩, ⟨?_, body.once⟩⟩
    rw [List.forall_mem_cons]
    exact ⟨fun hm => h.once r ⟨id, arguments, hr, .refl, hm⟩, body.unseen⟩
  · rintro ⟨hs, h⟩
    refine ⟨fun k hk hm => ?_, fun q hm => ?_⟩
    · obtain ⟨id', arguments', e, ha⟩ := hm
      rcases ha.cases_head with here | ⟨t, ht, ha⟩
      · cases here
        exact hs (e ▸ hk)
      · exact h.unseen k (List.mem_cons_of_mem _ hk) ⟨id', arguments', e, next ht ▸ ha⟩
    · obtain ⟨id', arguments', hq, ha, hm⟩ := hm
      rcases ha.cases_head with here | ⟨t, ht, ha⟩
      · cases here
        obtain rfl := Option.some.inj (hr.symm.trans hq)
        exact h.unseen id.key List.mem_cons_self hm
      · exact h.once q ⟨id', arguments', hq, next ht ▸ ha, hm⟩

/-! ## The check and the rule -/

theorem IsKey.reducesToKey {s : Shape} (h : scope.IsKey free seen s) :
    scope.ReducesToKey free s ∧ scope.MeetsOnce seen s := by
  induction seen, s using Collection.followInduction (c := scope.types) with
  | step seen s ih it =>
    -- A shape that no step leads from meets no record.
    have leaf (no : ∀ id arguments, s ≠ .reference id arguments) (stuck : ∀ t, ¬ scope.KeyStep s t) :
        scope.MeetsOnce seen s := .of_steps no fun t ht => absurd ht (stuck t)
    cases s with
    | primitive kind =>
      refine ⟨.primitive (by simpa using isKey_primitive.1 h), leaf ?_ ?_⟩
      · rintro _ _ ⟨⟩
      · rintro _ ⟨⟩
    | literal value =>
      have hk : value.isKey := isKey_literal.1 h
      refine ⟨.literal ?_ ?_, leaf ?_ ?_⟩
      · rintro b rfl
        simp [Literal.isKey] at hk
      · rintro rfl
        simp [Literal.isKey] at hk
      · rintro _ _ ⟨⟩
      · rintro _ ⟨⟩
    | foreign value =>
      refine ⟨.foreign, leaf ?_ ?_⟩
      · rintro _ _ ⟨⟩
      · rintro _ ⟨⟩
    | placeholder name =>
      refine ⟨.placeholder (isKey_placeholder.1 h), leaf ?_ ?_⟩
      · rintro _ _ ⟨⟩
      · rintro _ ⟨⟩
    | list => exact absurd h not_isKey_list
    | map => exact absurd h not_isKey_map
    | tuple => exact absurd h not_isKey_tuple
    | struct => exact absurd h not_isKey_struct
    | nullable inner =>
      obtain ⟨hk, ho⟩ := ih inner List.mem_cons_self (isKey_nullable.1 h)
      refine ⟨.nullable hk, .of_steps ?_ ?_⟩
      · rintro _ _ ⟨⟩
      · rintro _ ⟨⟩
        exact ho
    | enum name vs tagging =>
      rw [isKey_enum] at h
      -- The check goes into the payloads of variants that are not constants, and constants have none.
      have payload (v : Variant Shape) (hv : v ∈ Variant.kept vs) (t : Shape) (ht : t ∈ v.body.kept) :
          scope.ReducesToKey free t ∧ scope.MeetsOnce seen t := by
        refine ih t (Shape.mem_children_enum hv ht) ?_
        rcases h v hv with hu | ⟨-, -, -, hk⟩
        · cases hb : v.body with
          | unit =>
            rw [hb] at ht
            cases ht
          | positional | named => simp [hb, Body.isUnit] at hu
        · exact hk t ht
      refine ⟨.enum (fun v hv => ?_) fun v hv t ht => (payload v hv t ht).1, .of_steps ?_ ?_⟩
      · rcases h v hv with hu | ⟨hu, hp, hl, -⟩
        · exact Or.inl hu
        · exact Or.inr ⟨hu, hp, hl⟩
      · rintro _ _ ⟨⟩
      · intro t step
        cases step with
        | payload hv ht => exact (payload _ hv t ht).2
    | reference id arguments =>
      obtain ⟨hs, r, hr, hk⟩ := isKey_reference.1 h
      obtain ⟨hk, ho⟩ := it id arguments r rfl hs hr hk
      exact ⟨.reference hr hk, (meetsOnce_reference hr).2 ⟨hs, ho⟩⟩

theorem ReducesToKey.isKey {s : Shape} (h : scope.ReducesToKey free s) (once : scope.MeetsOnce seen s) :
    scope.IsKey free seen s := by
  induction h generalizing seen with
  | primitive hk => exact isKey_primitive.2 (by simpa using hk)
  | @literal value hb hn =>
    refine isKey_literal.2 ?_
    cases value with
    | bool b => exact absurd rfl (hb b)
    | none => exact absurd rfl hn
    | _ => rfl
  | foreign => exact isKey_foreign
  | placeholder hf => exact isKey_placeholder.2 hf
  | nullable _ ih => exact isKey_nullable.2 (ih (once.of_step .nullable))
  | enum form _ ih =>
    refine isKey_enum.2 fun v hv => ?_
    rcases form v hv with hu | ⟨hu, hp, hl⟩
    · exact Or.inl hu
    · exact Or.inr ⟨hu, hp, hl, fun t ht => ih v hv t ht (once.of_step (.payload hv ht))⟩
  | reference hr _ ih =>
    obtain ⟨hs, ho⟩ := (meetsOnce_reference hr).1 once
    exact (isKey_reference_of_resolve hr).2 ⟨hs, ih ho⟩

/-- The check takes the shapes that reduce to a key, unless it meets a record again. -/
theorem isKey_iff {s : Shape} : scope.IsKey free seen s ↔ scope.ReducesToKey free s ∧ scope.MeetsOnce seen s :=
  ⟨IsKey.reducesToKey, fun h => h.1.isKey h.2⟩

/-! ## What comes again -/

/-- The reduction of a key ends on every way. -/
theorem ReducesToKey.acc {s : Shape} (h : scope.ReducesToKey free s) : Acc (Function.swap scope.KeyStep) s := by
  induction h with
  | primitive | literal | foreign | placeholder =>
    refine .intro _ fun t ht => ?_
    cases ht
  | nullable _ ih =>
    refine .intro _ fun t ht => ?_
    cases ht
    exact ih
  | enum _ _ ih =>
    refine .intro _ fun t ht => ?_
    cases ht with
    | payload hv ht => exact ih _ hv t ht
  | reference hr _ ih =>
    refine .intro _ fun t ht => ?_
    cases ht with
    | target hr' =>
      obtain rfl := Option.some.inj (hr.symm.trans hr')
      exact ih

theorem ReducesToKey.of_step {s t : Shape} (h : scope.ReducesToKey free s) (ht : scope.KeyStep s t) :
    scope.ReducesToKey free t := by
  cases ht with
  | nullable =>
    cases h with
    | nullable h => exact h
  | payload hv ht =>
    cases h with
    | enum _ h => exact h _ hv _ ht
  | target hr =>
    cases h with
    | reference hr' h =>
      obtain rfl := Option.some.inj (hr.symm.trans hr')
      exact h

theorem ReducesToKey.of_steps {s t : Shape} (h : scope.ReducesToKey free s) (ht : ReflTransGen scope.KeyStep s t) :
    scope.ReducesToKey free t := by
  induction ht with
  | refl => exact h
  | tail _ step ih => exact ih.of_step step

/-- A shape that reduces to a key is not on the way from itself. -/
theorem ReducesToKey.not_transGen {s : Shape} (h : scope.ReducesToKey free s) : ¬ TransGen scope.KeyStep s s := by
  intro circle
  have again : TransGen (Function.swap scope.KeyStep) s s := transGen_swap.2 circle
  induction h.acc.transGen with
  | intro s _ ih => exact ih s again h circle again

/-- A record that comes back on the way of a key comes with other arguments, that lead elsewhere. -/
theorem ReducesToKey.isGeneric_of_comesBack {s : Shape} {r : Record} (h : scope.ReducesToKey free s)
    (back : scope.ComesBack r s) : r.isGeneric := by
  obtain ⟨id, arguments, hr, ha, id', arguments', e, ha'⟩ := back
  by_contra plain
  have same (as : List Shape) : r.expand as = r.shape :=
    Record.expand_of_not_generic (by simpa [Record.isGeneric] using plain) as
  have body : scope.ReducesToKey free r.shape := by
    have := (h.of_steps ha).of_step (.target hr)
    rwa [same] at this
  have next : scope.KeyStep (.reference id' arguments') r.shape := by
    rw [← same arguments']
    exact .target (e ▸ hr)
  rw [same] at ha'
  exact body.not_transGen (.tail' ha' next)

/-- **Keys are what reduces to a key.** Where all references lead to records, the check has an answer. It is yes
exactly for the shapes that reduce to a key and on the way to it come back to no record. A record that comes back
has parameters, and so comes with other arguments. -/
theorem isMapKey_iff {key : Shape} (records : ∀ r ∈ scope.types.members, scope.types.Resolves r.shape)
    (resolves : scope.types.Resolves key) (free : Bool) :
    ∃ answer, scope.isMapKey free [] key = .ok answer ∧
      (answer = true ↔ scope.ReducesToKey free key ∧ ∀ r, ¬ scope.ComesBack r key) ∧
      (scope.ReducesToKey free key → ∀ r, scope.ComesBack r key → r.isGeneric) := by
  obtain ⟨answer, ha⟩ := exists_isMapKey records free [] resolves
  refine ⟨answer, ha, ?_, fun h r => h.isGeneric_of_comesBack⟩
  have yes : answer = true ↔ scope.IsKey free [] key := by
    unfold IsKey
    rw [ha, Except.ok.injEq]
  have once : scope.MeetsOnce [] key ↔ ∀ r, ¬ scope.ComesBack r key :=
    ⟨MeetsOnce.once, fun h => ⟨List.forall_mem_nil _, h⟩⟩
  rw [yes, isKey_iff, once]

/-! ### A label of a label

`Label` stands for its argument. -/

namespace Labels

def label : Record where
  id := ⟨⟨.static, 1⟩, "m.Label"⟩
  name := "Label"
  shape := .placeholder "T"
  parameters := ["T"]

def site : Scope := { types := .ofRecords [label] }

def text : Shape := .reference label.id [.primitive .string]

def labelOfText : Shape := .reference label.id [text]

theorem resolves_text : site.types.Resolves text := by
  intro id arguments hold
  cases hold with
  | here => exact ⟨label, rfl⟩
  | child hc hold =>
    obtain rfl := List.mem_singleton.1 hc
    cases hold with
    | child hc => cases hc

theorem resolves_records : ∀ r ∈ site.types.members, site.types.Resolves r.shape := by
  intro r hr
  have member : r ∈ [label] := hr
  rw [List.mem_singleton.1 member]
  intro id arguments hold
  cases hold with
  | child hc => cases hc

theorem resolves_labelOfText : site.types.Resolves labelOfText := by
  intro id arguments hold
  cases hold with
  | here => exact ⟨label, rfl⟩
  | child hc hold =>
    obtain rfl := List.mem_singleton.1 hc
    exact resolves_text id arguments hold

theorem reducesToKey_text : site.ReducesToKey true text := by
  refine .reference (r := label) rfl ?_
  have body : label.expand [.primitive .string] = .primitive .string := by cbv
  rw [body]
  exact .primitive (Or.inr rfl)

/-- A label of a text is a key, and its reduction comes back to no record. -/
theorem isMapKey_text : site.isMapKey true [] text = .ok true ∧ ∀ r, ¬ site.ComesBack r text := by
  have yes : site.isMapKey true [] text = .ok true := by cbv
  obtain ⟨answer, ha, key, -⟩ := isMapKey_iff resolves_records resolves_text true
  obtain rfl : answer = true := Except.ok.inj (ha.symm.trans yes)
  exact ⟨yes, (key.1 rfl).2⟩

/-- A label of a label reduces to a text in two steps. The check refuses it at the second label. -/
theorem labelOfText_refused : (∀ r ∈ site.types.members, site.types.Resolves r.shape) ∧
    site.types.Resolves labelOfText ∧ site.ReducesToKey true labelOfText ∧
    site.isMapKey true [] labelOfText = .ok false := by
  refine ⟨resolves_records, resolves_labelOfText, .reference (r := label) rfl ?_, by cbv⟩
  have body : label.expand [text] = text := by cbv
  rw [body]
  exact reducesToKey_text

end Labels

end Scope

end ShapeExport
