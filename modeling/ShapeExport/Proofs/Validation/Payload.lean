import ShapeExport.Proofs.Outcome
import ShapeExport.Proofs.Scope.Unfolding
import ShapeExport.Validation.Payload

/-!
# Payloads that stay objects

* `Body.payloads` : the payloads of a variant;
* `Scope.Leads` : the check of one shape leads to another, through an untagged enum or a reference;
* `Scope.IsObject`, `Scope.ObjectFor`, `Scope.Objectlike` : a shape is an object by itself, and so is all
  that the check leads to, in a number of steps or in any number;
* `Scope.Objectlike.unfolds` : it stays so when references are unfolded;
* `Scope.Meets`, `Scope.IsOpenPayload` : the walk of the check, and whether it passes over something
  that depends on parameters;
* `Scope.Objectlike.of_check` : a payload that passes and is not open stays an object for all arguments.
-/

namespace ShapeExport
open Relation

/-! ## Payloads of variants -/

namespace Body

variable {σ τ : Type}

/-- The types of the kept fields of a positional body. -/
def payloads : Body σ → List σ
  | positional fields => (Field.kept fields).map (·.ty)
  | _ => []

theorem payloads_map (b : Body σ) (g : σ → τ) : (b.map g).payloads = b.payloads.map g := by
  cases b with
  | positional fields => exact kept_map (positional fields) g
  | _ => rfl

theorem mem_kept_of_mem_payloads {b : Body σ} {t : σ} (h : t ∈ b.payloads) : t ∈ b.kept := by
  cases b with
  | positional fields => exact h
  | _ => cases h

theorem Replaces.length_payloads {t t' : σ} {b b' : Body σ} (h : b.Replaces t t' b') :
    b'.payloads.length = b.payloads.length := by
  cases h with
  | @positional l r f hf ht =>
    rw [payloads, payloads, Field.kept_append_cons hf, Field.kept_append_cons (f := f.withType t') hf]
    simp
  | named => rfl

/-- The payloads are the ones from before and, if that one was a payload, the new one. -/
theorem Replaces.mem_payloads {t t' u : σ} {b b' : Body σ} (h : b.Replaces t t' b')
    (hu : u ∈ b'.payloads) : u ∈ b.payloads ∨ u = t' ∧ t ∈ b.payloads := by
  cases h with
  | @positional l r f hf ht =>
    rw [payloads, Field.kept_append_cons (f := f.withType t') hf, List.map_append, List.map_cons,
      List.mem_append, List.mem_cons] at hu
    rw [payloads, Field.kept_append_cons hf, List.map_append, List.map_cons, List.mem_append,
      List.mem_append, List.mem_cons, List.mem_cons, ht]
    rcases hu with hu | rfl | hu
    · exact Or.inl (Or.inl hu)
    · exact Or.inr ⟨rfl, Or.inr (Or.inl rfl)⟩
    · exact Or.inl (Or.inr (Or.inr hu))
  | named => cases hu

/-- Any payload can be replaced. -/
theorem exists_replaces_payload {b : Body σ} {t : σ} (h : t ∈ b.payloads) (t' : σ) :
    ∃ b', b.Replaces t t' b' ∧ t' ∈ b'.payloads := by
  obtain ⟨b', hb⟩ := exists_replaces (mem_kept_of_mem_payloads h) t'
  refine ⟨b', hb, ?_⟩
  cases hb with
  | @positional l r f hf ht =>
    rw [payloads, Field.kept_append_cons (f := f.withType t') hf, List.map_append, List.map_cons]
    exact List.mem_append_right _ List.mem_cons_self
  | named => cases h

/-- What is checked of a body: it has one payload at most, which `check` goes on with. -/
def checkPayloads (check : Path → Shape → Except Error Unit) (path : Path) (b : Body Shape) : Except Error Unit :=
  match b.payloads with
  | [] => .ok ()
  | [t] => check path t
  | _ => .error (.invalidTagged path .severalFields)

end Body

namespace Scope

variable {scope : Scope} {seen : List TypeKey} {path : Path}

/-! ## The check by constructor -/

theorem checkVariants_eq_forM (vs : List (Variant Shape)) : scope.checkVariants seen path vs =
    forM (Variant.kept vs) fun v => v.body.checkPayloads (scope.checkPayload seen) (path ++ [v.name]) := by
  refine eq_forM_filter (by rw [checkVariants]) (fun v vs => ?_) vs
  rw [checkVariants, Body.checkPayloads]
  by_cases hv : v.skip
  · rw [if_pos hv, if_pos hv]
  · rw [if_neg hv, if_neg hv]
    split
    · next hb => rw [hb]; rfl
    · next hb => rw [hb]; rfl
    · next fields hb =>
      rw [hb, Body.payloads]
      split
      · next hf => rw [hf]; rfl
      · next hf => rw [hf]; rfl
      · next h0 h1 =>
        split
        · next h => exact absurd (List.map_eq_nil_iff.1 h) h0
        · next t h =>
          obtain ⟨f, hf, -⟩ := List.map_eq_singleton_iff.1 h
          exact absurd hf (h1 f)
        · rfl

theorem checkPayloads_eq_ok {b : Body Shape} : b.checkPayloads (scope.checkPayload seen) path = .ok () ↔
    b.payloads.length ≤ 1 ∧ ∀ t ∈ b.payloads, scope.checkPayload seen path t = .ok () := by
  unfold Body.checkPayloads
  split
  · next h => simp [h]
  · next t h => simp [h]
  · next h0 h1 => simp [not_length_le_one h0 h1]

theorem checkVariants_eq_ok {vs : List (Variant Shape)} :
    scope.checkVariants seen path vs = .ok () ↔ ∀ v ∈ Variant.kept vs, v.body.payloads.length ≤ 1 ∧
      ∀ t ∈ v.body.payloads, scope.checkPayload seen (path ++ [v.name]) t = .ok () := by
  rw [checkVariants_eq_forM, forM_eq_ok]
  exact forall₂_congr fun v _ => checkPayloads_eq_ok

theorem checkPayload_enum {name : String} {vs : List (Variant Shape)} {tagging : Option Tagging} :
    scope.checkPayload seen path (.enum name vs tagging) = .ok () ↔
      ((scope.overrides.effective name tagging).isUntagged → scope.checkVariants seen path vs = .ok ()) := by
  rw [checkPayload]
  split
  · next h => simp [h]
  · next h => simp [h]

theorem checkPayload_reference {id : TypeId} {arguments : List Shape} :
    scope.checkPayload seen path (.reference id arguments) = .ok () ↔ id.key ∈ seen ∨
      ∃ r, scope.types.resolve id.key = some r ∧
        scope.checkPayload (id.key :: seen) path (r.expand arguments) = .ok () := by
  rw [checkPayload]
  split
  · next h => simp [h]
  · next h =>
    split
    · next hr => simp [h, hr]
    · next r hr => simp [h, hr]

/-! ## Where the check leads -/

/-- The check of the first shape goes on with the second one. -/
inductive Leads (scope : Scope) : Shape → Shape → Prop
  | variant {name : String} {vs : List (Variant Shape)} {tagging : Option Tagging}
      {v : Variant Shape} {t : Shape} : (scope.overrides.effective name tagging).isUntagged →
      v ∈ Variant.kept vs → t ∈ v.body.payloads → Leads scope (.enum name vs tagging) t
  | target {id : TypeId} {arguments : List Shape} {r : Record} :
      scope.types.resolve id.key = some r → Leads scope (.reference id arguments) (r.expand arguments)

/-- A shape is no reason to refuse a payload. A parameter stands for what it will be bound to. -/
def IsObject (scope : Scope) : Shape → Prop
  | .map .. | .struct .. | .placeholder _ | .foreign _ | .tuple [] => True
  | .enum name vs tagging => (scope.overrides.effective name tagging).isUntagged →
    ∀ v ∈ Variant.kept vs, v.body.payloads.length ≤ 1
  | .reference id _ => ∃ r, scope.types.resolve id.key = some r
  | .primitive _ | .literal _ | .list .. | .nullable _ | .tuple _ => False

/-- All that the check comes to in less than `n` steps is an object. -/
def ObjectFor (scope : Scope) : Nat → Shape → Prop
  | 0, _ => True
  | n + 1, s => scope.IsObject s ∧ ∀ t, scope.Leads s t → scope.ObjectFor n t

/-- All that the check comes to is an object, however long it goes on. -/
def Objectlike (scope : Scope) (s : Shape) : Prop := ∀ n, scope.ObjectFor n s

theorem ObjectFor.mono {m n : Nat} {s : Shape} (hm : m ≤ n) (h : scope.ObjectFor n s) :
    scope.ObjectFor m s := by
  induction m generalizing n s with
  | zero => trivial
  | succ m ih =>
    cases n with
    | zero => omega
    | succ n => exact ⟨h.1, fun t ht => ih (Nat.le_of_succ_le_succ hm) (h.2 t ht)⟩

theorem objectlike_placeholder (name : String) : scope.Objectlike (.placeholder name)
  | 0 => trivial
  | _ + 1 => ⟨trivial, fun _ ht => nomatch ht⟩

theorem objectlike_iff {s : Shape} :
    scope.Objectlike s ↔ scope.IsObject s ∧ ∀ t, scope.Leads s t → scope.Objectlike t := by
  constructor
  · intro h
    exact ⟨(h 1).1, fun t ht n => (h (n + 1)).2 t ht⟩
  · intro h n
    cases n with
    | zero => trivial
    | succ n => exact ⟨h.1, fun t ht => h.2 t ht n⟩

/-- The check never stops at an object with an error, whatever records are on the way. -/
theorem Objectlike.check {s : Shape} (h : scope.Objectlike s) (seen : List TypeKey) (path : Path) :
    scope.checkPayload seen path s = .ok () := by
  induction seen, s using Collection.followInduction (c := scope.types) generalizing path with
  | step seen s ih it =>
    obtain ⟨ho, hl⟩ := objectlike_iff.1 h
    cases s with
    | primitive | literal | list | nullable => cases ho
    | map | struct | placeholder | foreign => rw [checkPayload]
    | tuple elements =>
      cases elements with
      | nil => rw [checkPayload]
      | cons e es => cases ho
    | enum name vs tagging =>
      refine checkPayload_enum.2 fun hu => checkVariants_eq_ok.2 fun v hv => ⟨ho hu v hv, fun t ht => ?_⟩
      have hc : t ∈ (Shape.enum name vs tagging).children :=
        Shape.mem_children_enum hv (Body.mem_kept_of_mem_payloads ht)
      exact ih t hc (hl t (.variant hu hv ht)) _
    | reference id arguments =>
      obtain ⟨r, hr⟩ := ho
      refine checkPayload_reference.2 ?_
      by_cases hs : id.key ∈ seen
      · exact Or.inl hs
      · exact Or.inr ⟨r, hr, it id arguments r rfl hs hr (hl _ (.target hr)) path⟩

/-- A shape that passes is an object, unless it was met before. -/
theorem isObject_of_check {s : Shape} (h : scope.checkPayload seen path s = .ok ())
    (hs : ∀ id arguments, s = .reference id arguments → id.key ∉ seen) : scope.IsObject s := by
  cases s with
  | primitive | literal | list | nullable => simp [checkPayload] at h
  | map | struct | placeholder | foreign => trivial
  | tuple elements =>
    cases elements with
    | nil => trivial
    | cons e es => simp [checkPayload] at h
  | enum name vs tagging =>
    exact fun hu v hv => (checkVariants_eq_ok.1 (checkPayload_enum.1 h hu) v hv).1
  | reference id arguments =>
    rcases checkPayload_reference.1 h with hm | ⟨r, hr, -⟩
    · exact absurd hm (hs id arguments rfl)
    · exact ⟨r, hr⟩

/-! ## Substitution -/

theorem IsObject.substitute {b b' : Binding} {s : Shape} (hs : ∀ name, s ≠ .placeholder name)
    (h : scope.IsObject (s.substitute b)) : scope.IsObject (s.substitute b') := by
  cases s with
  | placeholder name => exact absurd rfl (hs name)
  | primitive | literal | list | nullable => simp [IsObject] at h
  | map | struct | foreign => simp [IsObject]
  | tuple elements =>
    cases elements with
    | nil => simp [IsObject]
    | cons e es => simp [IsObject] at h
  | enum name vs tagging =>
    rw [Shape.substitute_enum] at h ⊢
    intro hu
    have := h hu
    rw [Variant.kept_map, List.forall_mem_map] at this ⊢
    intro v hv
    have := this v hv
    rwa [Variant.body_map, Body.payloads_map, List.length_map] at this ⊢
  | reference id arguments =>
    rw [Shape.substitute_reference] at h ⊢
    exact h

/-- Take a set of shapes that are objects and lead into the set only. If a shape lies in it once
parameters are bound, then it is an object when they are bound to other shapes that are objects where
the former ones lay in the set. -/
theorem ObjectFor.substitute {P : Shape → Prop}
    (hP : ∀ s, P s → scope.IsObject s ∧ ∀ t, scope.Leads s t → P t) (n : Nat) {b b' : Binding}
    (hb : ∀ name, P ((Shape.placeholder name).substitute b) →
      scope.ObjectFor n ((Shape.placeholder name).substitute b'))
    {s : Shape} (h : P (s.substitute b)) : scope.ObjectFor n (s.substitute b') := by
  induction n generalizing b b' s with
  | zero => trivial
  | succ n ih =>
    -- A placeholder is what it is bound to; of all other shapes the binding keeps the kind.
    by_cases hs : ∃ name, s = .placeholder name
    · obtain ⟨name, rfl⟩ := hs
      exact hb name h
    obtain ⟨ho, hl⟩ := hP _ h
    refine ⟨ho.substitute fun name e => hs ⟨name, e⟩, fun t ht => ?_⟩
    cases s with
    | placeholder name => exact absurd ⟨name, rfl⟩ hs
    | primitive | literal | list | nullable | foreign | map | struct | tuple =>
      simp only [Shape.substitute_primitive, Shape.substitute_literal, Shape.substitute_list,
        Shape.substitute_nullable, Shape.substitute_foreign, Shape.substitute_map,
        Shape.substitute_struct, Shape.substitute_tuple] at ht
      cases ht
    | enum name vs tagging =>
      rw [Shape.substitute_enum] at ht hl
      cases ht with
      | variant hu hm ht =>
        rw [Variant.kept_map] at hm
        obtain ⟨v, hv, rfl⟩ := List.mem_map.1 hm
        rw [Variant.body_map, Body.payloads_map] at ht
        obtain ⟨y, hy, rfl⟩ := List.mem_map.1 ht
        refine ih (fun name hp => (hb name hp).mono (Nat.le_succ n)) (hl _ ?_)
        refine .variant (v := v.map (Shape.substitute b)) hu ?_ ?_
        · rw [Variant.kept_map]
          exact List.mem_map.2 ⟨v, hv, rfl⟩
        · rw [Variant.body_map, Body.payloads_map]
          exact List.mem_map.2 ⟨y, hy, rfl⟩
    | reference id arguments =>
      rw [Shape.substitute_reference] at ht hl
      cases ht with
      | @target id arguments r hr =>
        have hp := hl _ (.target hr)
        rw [Record.expand_map] at hp ⊢
        refine ih (fun name ha => ?_) hp
        rw [Shape.substitute_placeholder] at ha ⊢
        cases hx : Binding.ofLists r.parameters arguments name with
        | none => exact objectlike_placeholder name n
        | some a =>
          simp only [hx, Option.map_some, Option.getD_some] at ha ⊢
          exact ih (fun name hp => (hb name hp).mono (Nat.le_succ n)) ha

theorem Objectlike.substitute {b b' : Binding}
    (hb : ∀ name, scope.Objectlike ((Shape.placeholder name).substitute b) →
      scope.Objectlike ((Shape.placeholder name).substitute b'))
    {s : Shape} (h : scope.Objectlike (s.substitute b)) : scope.Objectlike (s.substitute b') :=
  fun n => ObjectFor.substitute (fun _ => objectlike_iff.1) n (fun name hp => hb name hp n) h

/-! ## Unfolding -/

/-- What passes for an object still does when a reference in it is unfolded. -/
theorem Objectlike.unfolds {s s' : Shape} (hu : scope.Unfolds s s') (h : scope.Objectlike s) :
    scope.Objectlike s' := by
  induction hu with
  | target hr => exact (objectlike_iff.1 h).2 _ (.target hr)
  | @inside c c' s s' hu hr ih =>
    obtain ⟨ho, hl⟩ := objectlike_iff.1 h
    refine objectlike_iff.2 ?_
    cases hr with
    | element | inner => cases ho
    | @item l r => cases l <;> cases ho
    | key | value | field => exact ⟨trivial, fun _ ht => nomatch ht⟩
    | @argument id l r =>
      refine ⟨ho, fun t ht => ?_⟩
      cases ht with
      | @target _ _ q hq =>
        exact (hl _ (.target hq)).substitute fun name =>
          Binding.placeholder_replace ih q.parameters l r
    | @variant name tagging l r v b hv hb =>
      constructor
      · intro hg w hm
        rcases Variant.mem_kept_replace hv hm with hw | ⟨rfl, hw⟩
        · exact ho hg w hw
        · show b.payloads.length ≤ 1
          have hl := ho hg v hw
          have he := hb.length_payloads
          omega
      · intro t ht
        cases ht with
        | variant hg hm ht =>
          rcases Variant.mem_kept_replace hv hm with hw | ⟨rfl, hw⟩
          · exact hl t (.variant hg hw ht)
          · rcases hb.mem_payloads ht with ht | ⟨rfl, ht⟩
            · exact hl t (.variant hg hw ht)
            · exact ih (hl c (.variant hg hw ht))

/-- A payload of a variant is unfolded inside the enum. -/
theorem Unfolds.lift_variant (name : String) (tagging : Option Tagging) {vs : List (Variant Shape)}
    {v : Variant Shape} {t t' : Shape} (hv : v ∈ Variant.kept vs) (ht : t ∈ v.body.payloads)
    (hu : ReflTransGen scope.Unfolds t t') :
    ∃ vs' v', ReflTransGen scope.Unfolds (.enum name vs tagging) (.enum name vs' tagging) ∧
      v' ∈ Variant.kept vs' ∧ t' ∈ v'.body.payloads := by
  induction hu with
  | refl => exact ⟨vs, v, .refl, hv, ht⟩
  | @tail t t' _ hu ih =>
    obtain ⟨ws, w, hws, hw, htw⟩ := ih
    obtain ⟨hm, hs⟩ := Variant.mem_kept.1 hw
    obtain ⟨l, r, rfl⟩ := List.append_of_mem hm
    obtain ⟨b, hb, ht'⟩ := Body.exists_replaces_payload htw t'
    refine ⟨l ++ w.withBody b :: r, w.withBody b, hws.tail (.inside hu (.variant hs hb)), ?_, ht'⟩
    rw [Variant.kept_append_cons (v := w.withBody b) hs]
    exact List.mem_append_right _ List.mem_cons_self

/-- A payload that does not stay an object is refused after some unfolding. -/
theorem ObjectFor.exists_unfolds {n : Nat} {s : Shape} (h : ¬ scope.ObjectFor n s) :
    ∃ s', ReflTransGen scope.Unfolds s s' ∧ ∀ path, scope.checkPayload [] path s' ≠ .ok () := by
  induction n generalizing s with
  | zero => exact absurd trivial h
  | succ n ih =>
    by_cases ho : scope.IsObject s
    · obtain ⟨t, ht, hn⟩ : ∃ t, scope.Leads s t ∧ ¬ scope.ObjectFor n t := by
        simpa [ObjectFor, ho] using h
      obtain ⟨t', hu, hc⟩ := ih hn
      cases ht with
      | target hr => exact ⟨t', .head (.target hr) hu, hc⟩
      | @variant name vs tagging v _ hg hv ht =>
        obtain ⟨vs', v', hu', hv', ht'⟩ := Unfolds.lift_variant name tagging hv ht hu
        refine ⟨_, hu', fun path h => ?_⟩
        have fits := checkVariants_eq_ok.1 (checkPayload_enum.1 h hg) v' hv'
        exact hc _ (fits.2 t' ht')
    · refine ⟨s, .refl, fun path h => ?_⟩
      exact ho (isObject_of_check h fun _ _ _ => List.not_mem_nil)

/-! ## Open payloads -/

/-- The check of the first shape, as a payload, comes to the second one with these records on the way. -/
inductive Meets (scope : Scope) (s : Shape) : List TypeKey → Shape → Prop
  | start : Meets scope s [] s
  | variant {trail : List TypeKey} {name : String} {vs : List (Variant Shape)}
      {tagging : Option Tagging} {v : Variant Shape} {t : Shape} :
      Meets scope s trail (.enum name vs tagging) → (scope.overrides.effective name tagging).isUntagged →
      v ∈ Variant.kept vs → t ∈ v.body.payloads → Meets scope s trail t
  | target {trail : List TypeKey} {id : TypeId} {arguments : List Shape} {r : Record} :
      Meets scope s trail (.reference id arguments) → id.key ∉ trail →
      scope.types.resolve id.key = some r → Meets scope s (id.key :: trail) (r.expand arguments)

/-- The check passes over a type parameter, or over a generic record that it was in before, where other
arguments may lead elsewhere. -/
def IsOpenPayload (scope : Scope) (s : Shape) : Prop :=
  ∃ trail t, scope.Meets s trail t ∧ ((∃ name, t = .placeholder name) ∨
    ∃ id arguments r, t = .reference id arguments ∧ id.key ∈ trail ∧
      scope.types.resolve id.key = some r ∧ r.parameters ≠ [])

theorem Meets.check {s t : Shape} {trail : List TypeKey} (h : scope.Meets s trail t)
    (hs : scope.checkPayload [] path s = .ok ()) : ∃ path', scope.checkPayload trail path' t = .ok () := by
  induction h with
  | start => exact ⟨path, hs⟩
  | variant _ hu hv ht ih =>
    obtain ⟨path', hc⟩ := ih
    exact ⟨_, (checkVariants_eq_ok.1 (checkPayload_enum.1 hc hu) _ hv).2 _ ht⟩
  | target _ hn hr ih =>
    obtain ⟨path', hc⟩ := ih
    rcases checkPayload_reference.1 hc with hm | ⟨r', hr', hc⟩
    · exact absurd hm hn
    · obtain rfl := Option.some.inj (hr.symm.trans hr')
      exact ⟨path', hc⟩

/-- A record on the way was followed. -/
theorem Meets.of_mem {s t : Shape} {trail : List TypeKey} {k : TypeKey} (h : scope.Meets s trail t)
    (hk : k ∈ trail) : ∃ trail' r arguments, scope.types.resolve k = some r ∧
      scope.Meets s trail' (r.expand arguments) := by
  induction h with
  | start => cases hk
  | variant _ _ _ _ ih => exact ih hk
  | @target trail id arguments r hm hn hr ih =>
    rcases List.mem_cons.1 hk with rfl | hk
    · exact ⟨_, r, arguments, hr, .target hm hn hr⟩
    · exact ih hk

/-- A payload that passes and is not open stays an object, whatever its parameters are bound to. -/
theorem Objectlike.of_check {s : Shape} (h : scope.checkPayload [] path s = .ok ())
    (ho : ¬ scope.IsOpenPayload s) (b : Binding) : scope.Objectlike (s.substitute b) := by
  intro n
  refine ObjectFor.substitute (P := fun t => ∃ trail, scope.Meets s trail t) ?_ n
    (b := fun _ => none) ?_ ⟨[], by rw [Shape.substitute_none]; exact .start⟩
  · rintro t ⟨trail, hm⟩
    have hclosed : ∀ id arguments r, t = .reference id arguments → id.key ∈ trail →
        scope.types.resolve id.key = some r → r.parameters = [] := by
      intro id arguments r ht hk hr
      by_contra hp
      exact ho ⟨trail, t, hm, Or.inr ⟨id, arguments, r, ht, hk, hr, hp⟩⟩
    obtain ⟨path', hc⟩ := hm.check h
    constructor
    · by_cases hi : ∃ id arguments, t = .reference id arguments ∧ id.key ∈ trail
      · obtain ⟨id, arguments, rfl, hk⟩ := hi
        obtain ⟨-, r, -, hr, -⟩ := hm.of_mem hk
        exact ⟨r, hr⟩
      · exact isObject_of_check hc fun id arguments e hk => hi ⟨id, arguments, e, hk⟩
    · intro u hu
      cases hu with
      | variant hg hv ht => exact ⟨trail, hm.variant hg hv ht⟩
      | @target id arguments r hr =>
        by_cases hk : id.key ∈ trail
        · obtain ⟨trail', r', arguments', hr', hm'⟩ := hm.of_mem hk
          obtain rfl := Option.some.inj (hr.symm.trans hr')
          have hp := hclosed id arguments r rfl hk hr
          rw [Record.expand_of_not_generic hp] at hm' ⊢
          exact ⟨trail', hm'⟩
        · exact ⟨_, hm.target hk hr⟩
  · rintro name ⟨trail, hm⟩
    rw [Shape.substitute_none] at hm
    exact absurd ⟨trail, _, hm, Or.inl ⟨name, rfl⟩⟩ ho

end Scope

end ShapeExport
