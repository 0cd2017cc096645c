import Mathlib
import ShapeExport.Proofs.Export.Specifiers
import ShapeExport.Proofs.JsonSchema.Agreement
import ShapeExport.Proofs.Validation.Located

/-!
# Expansions end

The checks of keys and of payloads, the constraint on keys and the renderer of schemas follow references, each along a
walk of its own and with a list of the records that it has entered. Their walks are bounded, whatever cycles there are
among the records and however arguments grow on the way, so they are done after finitely many turns. They fail with
errors of the library; the renderer also where a label cannot be the key of an object.

* `Walk.Settles` : what a recursion along a walk comes to;
* `Context.Escapes` : the failures of the renderer that are no errors of the library;
* `Context.failsIn_schemaIn_escapes` : it has no others;
* `Context.expansions_end` : all four settle, wherever they begin;
* `Context.Tags.list_tag_escapes` : a tag that is a list passes all checks, and is no key.
-/

namespace ShapeExport
open Relation

/-! ## Errors of the library -/

theorem Scope.failsIn_isMapKey_refusal (scope : Scope) (free : Bool) (seen : List TypeKey) (s : Shape) :
    FailsIn Error.IsRefusal (scope.isMapKey free seen s) := by
  intro e h
  obtain ⟨id, rfl, -⟩ := error_of_isMapKey h
  trivial

theorem Scope.failsIn_checkPayload_refusal (scope : Scope) (seen : List TypeKey) (path : Path) (s : Shape) :
    FailsIn Error.IsRefusal (scope.checkPayload seen path s) := by
  intro e h
  cases error_of_checkPayload h <;> trivial

theorem Scope.failsIn_checkTagged_refusal (scope : Scope) (path : Path) (enum : String) (vs : List (Variant Shape)) :
    FailsIn Error.IsRefusal (scope.checkTagged path enum vs) :=
  Collection.Admits.checkVariants (fun _ he => he.isRefusal)
    (fun _ _ t _ path => scope.failsIn_checkPayload_refusal [] path t) _

namespace JsonSchema.Context

variable (c : Context)

theorem failsIn_propertyNames?_refusal (path : Path) (seen : List TypeKey) (s : Shape) :
    FailsIn Error.IsRefusal (c.propertyNames? path seen s) := by
  have found : ∀ s, c.types.Finds Error.IsRefusal s := Collection.finds_of_refusals fun _ => id
  have admits : c.types.Admits Error.IsRefusal :=
    { own := fun _ he => he.isRefusal, records := fun r _ => found r.shape }
  exact (@renders_propertyNames c seen _ (fun _ => True) admits path seen s (found s)).failsIn

/-! ## Labels and names of files -/

/-- What else the renderer fails with: the walk comes to an enum with a label that is no scalar, so no key is made of
it; or another file is named before the names of records were checked. -/
inductive Escapes (c : Context) (x : Walk.Spot) : Error → Prop
  | label {stack : List TypeKey} {name : String} {vs : List (Variant Shape)} {tagging : Option Tagging} {label : Json} :
      Walk.schemas.Leads c.types x ⟨stack, .enum name vs tagging⟩ →
      label ∈ (c.scope.overrides.effective name tagging).labels → ¬ label.isScalar → Escapes c x (.unusableLabel label)
  | fileName {name : String} : c.linking ≠ .document → c.toExport.checkNames ≠ .ok () →
      Escapes c x (.invalidFileName name)

variable {c}

theorem Escapes.of_step {x y : Walk.Spot} {e : Error} (step : Walk.schemas.Step c.types x y) (h : c.Escapes y e) :
    c.Escapes x e := by
  cases h with
  | label leads mem composite => exact .label (leads.head step) mem composite
  | fileName linked unchecked => exact .fileName linked unchecked

/-- Names that were checked are names of files. -/
theorem failsIn_uri_escapes {r : Record} (hr : r ∈ c.types.members) (x : Walk.Spot) :
    FailsIn (c.Escapes x) (c.uri r) := by
  unfold uri
  split
  · exact failsIn_ok _
  · next source linking =>
    have linked : c.linking ≠ .document := by
      rw [linking]
      intro h
      cases h
    by_cases checked : c.toExport.checkNames = .ok ()
    · have name := Export.isTypeName_of_checkNames checked (Collection.mem_records.2 hr)
      obtain ⟨text, ht⟩ := Export.exists_specifier source name
      rw [ht]
      exact failsIn_ok _
    · exact failsIn_map (failsIn_specifier (fun _ => .fileName linked checked) c.toExport source r) _

variable (c) in
theorem failsIn_schemaIn_escapes (stack : List TypeKey) (path : Path) (s : Shape) :
    FailsIn (fun e => e.IsRefusal ∨ c.Escapes ⟨stack, s⟩ e) (c.schemaIn stack path s) := by
  have onward : ∀ {stack stack' : List TypeKey} {s t : Shape}, Walk.schemas.Step c.types ⟨stack, s⟩ ⟨stack', t⟩ →
      ∀ {path}, FailsIn (fun e => e.IsRefusal ∨ c.Escapes ⟨stack', t⟩ e) (c.schemaIn stack' path t) →
      FailsIn (fun e => e.IsRefusal ∨ c.Escapes ⟨stack, s⟩ e) (c.schemaIn stack' path t) :=
    fun step _ h e he => (h e he).imp_right (Escapes.of_step step)
  induction stack, s using Collection.renderInduction (c := c.types) generalizing path with
  | reference stack id arguments ih =>
    rw [schemaIn]
    split
    · exact failsIn_error (Or.inl trivial)
    · next r hr =>
      split
      · apply FailsIn.map
        intro e he
        exact Or.inr (failsIn_uri_escapes (Collection.mem_members_of_resolve hr) _ e he)
      · next hp =>
        split
        · exact failsIn_error (Or.inl trivial)
        · next hn =>
          split
          · exact failsIn_error (Or.inl trivial)
          · next hl =>
            have generic : r.parameters ≠ [] := fun e => hp (List.isEmpty_iff.2 e)
            exact (onward (.enter hr ⟨generic, not_not.1 hl⟩ hn) (ih r hn hr _)).map _
  | parts stack s hs ih =>
    have refusals : ∀ e : Error, e.IsRefusal → e.IsRefusal ∨ c.Escapes ⟨stack, s⟩ e := fun _ => Or.inl
    have found : ∀ t, c.types.Finds (fun e => e.IsRefusal ∨ c.Escapes ⟨stack, s⟩ e) t :=
      Collection.finds_of_refusals refusals
    refine failsIn_of_parts ⟨fun e he => refusals e he.isRefusal, fun r _ => found r.shape⟩ (found s) ?labels
      (fun _ _ => refusals _ trivial) (fun _ _ e he => refusals e he.isRefusal) hs ?inner path
    case labels =>
      rintro name vs tagging rfl label mem composite
      exact Or.inr (.label .refl mem composite)
    case inner =>
      intro t ht path
      exact onward (.part ht) (ih t ht path)

end JsonSchema.Context

/-! ## Expansions end -/

/-- A recursion along a walk settles. It does nothing but its turns, and its calls go one step on; on each way a record
is entered at most once, and no way is longer than a bound; finitely many turns give what it returns, whatever further
calls would return; and it fails with errors in `E` only. -/
structure Walk.Settles {ρ α : Type} (w : Walk) (types : Collection)
    (turn : (Walk.Spot → ρ → Except Error α) → Walk.Spot → ρ → Except Error α) (f : Walk.Spot → ρ → Except Error α)
    (E : Walk.Spot → Error → Prop) : Prop where
  runs : w.Runs types turn f
  bounded : ∀ x, w.Bounded types x
  done : ∀ x, ∃ n, ∀ answer, turn^[n] answer x = f x
  fails : ∀ x place, FailsIn (E x) (f x place)

theorem Walk.Runs.settles {ρ α : Type} {w : Walk} {types : Collection}
    {turn : (Walk.Spot → ρ → Except Error α) → Walk.Spot → ρ → Except Error α} {f : Walk.Spot → ρ → Except Error α}
    {E : Walk.Spot → Error → Prop} (h : w.Runs types turn f) (fails : ∀ x place, FailsIn (E x) (f x place)) :
    w.Settles types turn f E where
  runs := h
  bounded := Walk.bounded w types
  done x := by
    obtain ⟨n, done⟩ := h.exists_turns x
    exact ⟨n, fun answer => (done answer).1⟩
  fails := fails

/-- What is checked of the variants of an enum is found after finitely many turns. -/
theorem Scope.exists_turns_checkTagged (scope : Scope) (path : Path) (enum : String) (vs : List (Variant Shape)) :
    ∃ n, ∀ answer, variantsTurn (fun path t => scope.payloadTurn^[n] answer ⟨[], t⟩ path)
      (if path.isEmpty then [enum] else path) vs = scope.checkTagged path enum vs := by
  obtain ⟨n, done⟩ := scope.runs_checkPayload.exists_turns ⟨[], .enum enum vs none⟩
  refine ⟨n, fun answer => ?_⟩
  rw [checkTagged_eq_turn]
  apply variantsTurn_congr
  intro v hv t ht path
  have step : Walk.payloads.Step scope.types ⟨[], .enum enum vs none⟩ ⟨[], t⟩ :=
    .part (List.mem_flatMap.2 ⟨v, hv, ht⟩)
  exact congrFun ((done answer).2 _ step) path

namespace JsonSchema.Context

/-- **Expansions end.** The check of a map key, the check of an internally tagged enum, the constraint on the keys of a
map and the renderer of schemas return a value or fail, whatever records refer to each other and to ever larger
applications of themselves. On each way a record is entered at most once, so at most as many as there are records. The
errors are those of the library, unless the renderer comes to a label that is no scalar, or it was given names of files
that were not checked. -/
theorem expansions_end (c : Context) :
    Walk.keys.Settles c.types c.scope.keyTurn (fun x free => c.scope.isMapKey free x.entered x.shape)
      (fun _ => Error.IsRefusal) ∧
    Walk.payloads.Settles c.types c.scope.payloadTurn (fun x path => c.scope.checkPayload x.entered path x.shape)
      (fun _ => Error.IsRefusal) ∧
    (∀ path enum vs, FailsIn Error.IsRefusal (c.scope.checkTagged path enum vs) ∧
      ∃ n, ∀ answer, Scope.variantsTurn (fun path t => c.scope.payloadTurn^[n] answer ⟨[], t⟩ path)
        (if path.isEmpty then [enum] else path) vs = c.scope.checkTagged path enum vs) ∧
    Walk.names.Settles c.types c.nameTurn (fun x path => c.propertyNames? path x.entered x.shape)
      (fun _ => Error.IsRefusal) ∧
    Walk.schemas.Settles c.types c.schemaTurn (fun x path => c.schemaIn x.entered path x.shape)
      (fun x e => e.IsRefusal ∨ c.Escapes x e) := by
  refine ⟨?keys, ?payloads, ?tagged, ?names, ?schemas⟩
  case keys =>
    exact c.scope.runs_isMapKey.settles fun x free => c.scope.failsIn_isMapKey_refusal free x.entered x.shape
  case payloads =>
    exact c.scope.runs_checkPayload.settles fun x path => c.scope.failsIn_checkPayload_refusal x.entered path x.shape
  case tagged =>
    intro path enum vs
    exact ⟨c.scope.failsIn_checkTagged_refusal path enum vs, c.scope.exists_turns_checkTagged path enum vs⟩
  case names =>
    exact c.runs_propertyNames?.settles fun x path => c.failsIn_propertyNames?_refusal path x.entered x.shape
  case schemas =>
    exact c.runs_schemaIn.settles fun x path => c.failsIn_schemaIn_escapes x.entered path x.shape

/-! ## A tag that is a list -/

namespace Tags

def event : Record where
  id := ⟨⟨.static, 1⟩, "Event"⟩
  name := "Event"
  shape := .enum "Event" [{ name := "Stopped" }] none

/-- The representation of `Event` is given by its name. -/
def events : Context where
  config := { language := .jsonschema, overrides := [("Event", .internal (.array []))] }
  types := .ofRecords [event]

/-- No check refuses the tag, and the renderer cannot make a key of it. -/
theorem list_tag_escapes : events.scope.validate = .ok () ∧
    events.schemaIn [] ["Event"] event.shape = .error (.unusableLabel (.array [])) ∧
    ¬ Error.IsRefusal (.unusableLabel (.array [])) := by
  refine ⟨by cbv, by cbv, id⟩

end Tags

end JsonSchema.Context

end ShapeExport
