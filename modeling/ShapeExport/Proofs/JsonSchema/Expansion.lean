import Mathlib
import ShapeExport.Proofs.JsonSchema.Rendering

/-!
# Expansion of generic records

A schema has no type parameters, so references to generic records are expanded on the way. The renderer
gives up where a record is being expanded already, whether the reference is part of the record or came
with an argument.

* `Collection.Visits` : the walk of the renderer, with the records that are being expanded;
* `Collection.Nests` : the walk comes to a record that is being expanded;
* `Collection.Finishes` : the expansion is finite;
* `Context.never_endless_iff` : when the renderer does not refuse a shape as endless.
-/

namespace ShapeExport

/-! ## Walks and expansions -/

namespace Collection

variable {types : Collection}

/-- Where `stack` is being expanded, the walk through the first shape comes to the second one, where
the other stack is being expanded. -/
inductive Visits (types : Collection) : List TypeKey → Shape → List TypeKey → Shape → Prop
  | here (stack : List TypeKey) (s : Shape) : Visits types stack s stack s
  | part {stack stack' : List TypeKey} {s t u : Shape} : t ∈ s.parts →
      Visits types stack t stack' u → Visits types stack s stack' u
  | expand {stack stack' : List TypeKey} {id : TypeId} {arguments : List Shape} {r : Record} {u : Shape} :
      types.resolve id.key = some r → r.parameters ≠ [] → id.key ∉ stack →
      arguments.length = r.parameters.length →
      Visits types (id.key :: stack) (r.expand arguments) stack' u →
      Visits types stack (.reference id arguments) stack' u

/-- The walk comes to a reference to a generic record that is being expanded. -/
def Nests (types : Collection) (stack : List TypeKey) (s : Shape) : Prop :=
  ∃ stack' id arguments r, types.Visits stack s stack' (.reference id arguments) ∧ id.key ∈ stack' ∧
    types.resolve id.key = some r ∧ r.parameters ≠ []

/-- Expanding references to generic records, and leaving those to other records alone, gives a finite
tree. -/
inductive Finishes (types : Collection) : Shape → Prop
  | parts {s : Shape} : (∀ id arguments, s ≠ .reference id arguments) →
      (∀ t ∈ s.parts, Finishes types t) → Finishes types s
  | plain {id : TypeId} {arguments : List Shape} {r : Record} : types.resolve id.key = some r →
      r.parameters = [] → Finishes types (.reference id arguments)
  | generic {id : TypeId} {arguments : List Shape} {r : Record} : types.resolve id.key = some r →
      r.parameters ≠ [] → arguments.length = r.parameters.length →
      Finishes types (r.expand arguments) → Finishes types (.reference id arguments)

theorem Nests.of_part {stack : List TypeKey} {s t : Shape} (ht : t ∈ s.parts)
    (h : types.Nests stack t) : types.Nests stack s := by
  obtain ⟨stack', id, arguments, r, hv, h⟩ := h
  exact ⟨stack', id, arguments, r, .part ht hv, h⟩

theorem Nests.of_expand {stack : List TypeKey} {id : TypeId} {arguments : List Shape} {r : Record}
    (hr : types.resolve id.key = some r) (hp : r.parameters ≠ []) (hs : id.key ∉ stack)
    (hl : arguments.length = r.parameters.length)
    (h : types.Nests (id.key :: stack) (r.expand arguments)) :
    types.Nests stack (.reference id arguments) := by
  obtain ⟨stack', id', arguments', r', hv, h⟩ := h
  exact ⟨stack', id', arguments', r', .expand hr hp hs hl hv, h⟩

end Collection

/-! ## References -/

namespace JsonSchema.Context
open Schema

variable {c : Context} {stack : List TypeKey} {path : Path}

theorem schemaIn_reference_eq_ok {id : TypeId} {arguments : List Shape} {schema : Schema}
    (h : c.schemaIn stack path (.reference id arguments) = .ok schema) :
    ∃ r, c.types.resolve id.key = some r ∧
      ((r.parameters = [] ∧ ∃ uri, c.uri r = .ok uri ∧
          schema = .ofKeywords [.reference r.id.key uri]) ∨
        (r.parameters ≠ [] ∧ id.key ∉ stack ∧ arguments.length = r.parameters.length ∧
          ∃ body, c.schemaIn (id.key :: stack) (path ++ [r.name]) (r.expand arguments) = .ok body ∧
            schema = body.annotate (docLines r.docs) r.deprecation.isSome)) := by
  rw [schemaIn] at h
  split at h
  · cases h
  · next r hr =>
    refine ⟨r, hr, ?_⟩
    split at h
    · next hp =>
      refine Or.inl ⟨List.isEmpty_iff.1 hp, ?_⟩
      obtain ⟨uri, hu, h⟩ := bind_eq_ok.1 h
      cases h
      exact ⟨uri, hu, rfl⟩
    · next hp =>
      split at h
      · cases h
      · next hs =>
        split at h
        · cases h
        · next hl =>
          refine Or.inr ⟨fun e => hp (List.isEmpty_iff.2 e), hs, not_not.1 hl, ?_⟩
          obtain ⟨body, hb, h⟩ := bind_eq_ok.1 h
          cases h
          exact ⟨body, hb, rfl⟩

/-- A reference fails as the body of its record does, or as endless where the record is being expanded. Any other
failure is of neither kind. -/
theorem schemaIn_reference_eq_error {id : TypeId} {arguments : List Shape} {e : Error}
    (h : c.schemaIn stack path (.reference id arguments) = .error e) :
    (¬ e.IsEndless ∧ ¬ e.IsUnbound) ∨ ∃ r, c.types.resolve id.key = some r ∧ r.parameters ≠ [] ∧
      (id.key ∈ stack ∧ e = .unsupportedShape path (.endlessExpansion r.name) ∨
        id.key ∉ stack ∧ arguments.length = r.parameters.length ∧
          c.schemaIn (id.key :: stack) (path ++ [r.name]) (r.expand arguments) = .error e) := by
  rw [schemaIn] at h
  split at h
  · cases h
    exact Or.inl ⟨not_false, not_false⟩
  · next r hr =>
    split at h
    · have unlinked : FailsIn (fun e => ¬ e.IsEndless ∧ ¬ e.IsUnbound) (c.uri r) :=
        failsIn_uri (fun _ _ => ⟨not_false, not_false⟩) r
      rcases bind_eq_error.1 h with hu | ⟨_, -, h⟩
      · exact Or.inl (unlinked e hu)
      · cases h
    · next hp =>
      have generic : r.parameters ≠ [] := fun e => hp (List.isEmpty_iff.2 e)
      split at h
      · next hs =>
        cases h
        exact Or.inr ⟨r, hr, generic, Or.inl ⟨hs, rfl⟩⟩
      · next hs =>
        split at h
        · cases h
          exact Or.inl ⟨not_false, not_false⟩
        · next hl =>
          rcases bind_eq_error.1 h with hb | ⟨_, -, h⟩
          · exact Or.inr ⟨r, hr, generic, Or.inr ⟨hs, not_not.1 hl, hb⟩⟩
          · cases h

/-! ## Endless expansions -/

/-- A shape that renders has parts that render. -/
theorem schemaIn_parts_eq_ok {s t : Shape} {schema : Schema} (ht : t ∈ s.parts)
    (h : c.schemaIn stack path s = .ok schema) :
    ∃ path' schema', c.schemaIn stack path' t = .ok schema' := by
  have hs : ∀ id arguments, s ≠ .reference id arguments := by
    rintro id arguments rfl
    cases ht
  have parts : ∀ t ∈ s.parts, c.Yields stack (fun _ => True) (fun _ => True) t := by
    intro t _ path
    cases c.schemaIn stack path t with
    | error e => trivial
    | ok x => exact renders_pure fun _ _ => trivial
  have anything : ∀ e : Error, ¬ e.IsEndless → True := fun _ _ => trivial
  have admits : c.types.AdmitsLabels fun _ => True := (Collection.covers_of_not_isEndless anything).admits
  have hr := renders_schemaIn admits.toAdmits (Collection.finds_of_not_isEndless anything s)
    (admits.labelsIn c.scope.overrides s) (fun _ _ => trivial) (fun _ _ _ _ => trivial) hs parts path
  rw [h] at hr
  exact hr.2 t ht

/-- A refusal as endless comes from a reference to a record that is being expanded. -/
theorem nests_of_endless {s : Shape} {e : Error} (h : c.schemaIn stack path s = .error e)
    (he : e.IsEndless) : c.types.Nests stack s := by
  induction stack, s using Collection.renderInduction (c := c.types) generalizing path e with
  | reference stack id arguments ih =>
    rcases schemaIn_reference_eq_error h with ⟨hn, -⟩ | ⟨r, hr, hp, ⟨hm, -⟩ | ⟨hm, hl, hb⟩⟩
    · exact absurd he hn
    · exact ⟨stack, id, arguments, r, .here _ _, hm, hr, hp⟩
    · have nested := ih r hm hr hb he
      exact .of_expand hr hp hm hl nested
  | parts stack s hs ih =>
    have others : ∀ e : Error, ¬ e.IsEndless → e.IsEndless → c.types.Nests stack s :=
      fun e hn hi => absurd hi hn
    have wide : s.HasWide Shape.parts → WideIn fun e => e.IsEndless → c.types.Nests stack s :=
      fun _ _ => others _ not_false
    have admits := (Collection.covers_of_not_isEndless (c := c.types) others).admits
    refine failsIn_of_parts admits.toAdmits (Collection.finds_of_not_isEndless others s)
      (admits.labelsIn c.scope.overrides s) wide (fun _ _ e he => others e he.isLocal.not_isEndless) hs
      (fun t ht path e hx hi => ?_) path e h he
    have nested := ih t ht hx hi
    exact .of_part ht nested

/-- A shape that comes to a record which is being expanded does not render. -/
theorem not_ok_of_nests {s : Shape} {schema : Schema} (hn : c.types.Nests stack s) :
    c.schemaIn stack path s ≠ .ok schema := by
  obtain ⟨stack', id, arguments, r, hv, hm, hr, hp⟩ := hn
  generalize hu : Shape.reference id arguments = u at hv
  induction hv generalizing path schema with
  | here stack s =>
    subst hu
    intro h
    obtain ⟨r', hr', ⟨hp', -⟩ | ⟨-, hs, -⟩⟩ := schemaIn_reference_eq_ok h
    · obtain rfl := Option.some.inj (hr.symm.trans hr')
      exact hp hp'
    · exact hs hm
  | part ht _ ih =>
    intro h
    obtain ⟨path', schema', ht'⟩ := schemaIn_parts_eq_ok ht h
    exact ih hm hu ht'
  | expand hq hg _ _ _ ih =>
    intro h
    obtain ⟨q, hq', ⟨hg', -⟩ | ⟨-, -, -, body, hb, -⟩⟩ := schemaIn_reference_eq_ok h
    · obtain rfl := Option.some.inj (hq.symm.trans hq')
      exact hg hg'
    · obtain rfl := Option.some.inj (hq.symm.trans hq')
      exact ih hm hu hb

/-- A shape that renders has a finite expansion. -/
theorem finishes_of_ok {s : Shape} {schema : Schema} (h : c.schemaIn stack path s = .ok schema) :
    c.types.Finishes s := by
  induction stack, s using Collection.renderInduction (c := c.types) generalizing path schema with
  | reference stack id arguments ih =>
    obtain ⟨r, hr, ⟨hp, -⟩ | ⟨hp, hm, hl, body, hb, -⟩⟩ := schemaIn_reference_eq_ok h
    · exact .plain hr hp
    · exact .generic hr hp hl (ih r hm hr hb)
  | parts stack s hs ih =>
    refine .parts hs fun t ht => ?_
    obtain ⟨path', schema', ht'⟩ := schemaIn_parts_eq_ok ht h
    exact ih t ht ht'

/-- The renderer does not refuse a shape as endless exactly if no record comes up while it is being
expanded, or if the shape is refused for another reason first. What it does render is finite. -/
theorem never_endless_iff (c : Context) (path : Path) (s : Shape) :
    ((∀ e, c.schema path s = .error e → ¬ e.IsEndless) ↔
      (c.types.Nests [] s → ∃ e, c.schema path s = .error e ∧ ¬ e.IsEndless)) ∧
    ∀ schema, c.schema path s = .ok schema → c.types.Finishes s := by
  refine ⟨⟨fun h hn => ?_, fun h e he hi => ?_⟩, fun schema => finishes_of_ok⟩
  · cases hx : c.schema path s with
    | error e => exact ⟨e, rfl, h e hx⟩
    | ok schema => exact absurd hx (not_ok_of_nests hn)
  · obtain ⟨e', he', hi'⟩ := h (nests_of_endless he hi)
    rw [he] at he'
    cases he'
    exact hi' hi

/-! ## A box in a box

The argument of a box is expanded inside the box, where `Box` is being expanded. -/

namespace Boxes

def box : Record where
  id := ⟨⟨.static, 1⟩, "Box"⟩
  name := "Box"
  shape := .struct "Box" (.named none [{ name := "v", ty := .placeholder "T" }])
  parameters := ["T"]

def boxes : Context := { config := { language := .jsonschema }, types := .ofRecords [box] }

def boxOfBox : Shape := .reference box.id [.reference box.id [.primitive .i32]]

theorem finishes_box {a : Shape} (h : boxes.types.Finishes a) :
    boxes.types.Finishes (.reference box.id [a]) := by
  have e : box.expand [a] = .struct "Box" (.named none [{ name := "v", ty := a }]) := by
    simp [Record.expand, box, Body.map, Field.map, Field.withType, Shape.substitute_placeholder,
      Binding.ofLists]
  refine .generic (r := box) rfl (by decide) rfl ?_
  rw [e]
  refine .parts (fun _ _ hr => ?_) (List.forall_mem_singleton.2 h)
  cases hr

/-- The expansion of a box in a box is finite, and yet it is refused as endless. -/
theorem boxOfBox_refused : boxes.types.Finishes boxOfBox ∧
    ∃ e, boxes.schema [] boxOfBox = .error e ∧ e.IsEndless := by
  have leaf : boxes.types.Finishes (.primitive .i32) := by
    refine .parts (fun _ _ hr => ?_) (List.forall_mem_nil _)
    cases hr
  refine ⟨finishes_box (finishes_box leaf), .unsupportedShape ["Box", "v"] (.endlessExpansion "Box"), ?_,
    trivial⟩
  cbv

end Boxes

end JsonSchema.Context

end ShapeExport
