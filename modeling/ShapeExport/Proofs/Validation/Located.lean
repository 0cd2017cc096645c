import Mathlib
import ShapeExport.Proofs.Validation.Local
import ShapeExport.Proofs.Validation.Reduction

/-!
# Where validation errors are

An error of validation has a path. It starts with the name of a record and goes on to what is refused in the body
of that very record, also when the record was entered through a reference. The one error without a path is that of
a record which is missing where a map key is followed.

* `Shape.At` : the way to a kept position, in the words of error paths;
* `Scope.error_of_isMapKey`, `Scope.error_of_checkPayload` : what the checks of keys and of payloads fail with;
* `Scope.Offends` : what is refused at a shape, and with which error when the shape is at the given path;
  `Scope.Offends.located` : the path of that error;
* `Scope.exists_offends` : a walk through a body fails at a kept position only;
* `Scope.validate_located` : each error of validation is that of a position in a record's own body.
-/

namespace ShapeExport
open Relation

/-! ## Ways to kept positions -/

namespace Shape

/-- The first shape holds the second one at a kept position, to which the labels lead. -/
inductive At : Shape → Path → Shape → Prop
  | here (s : Shape) : At s [] s
  | step {s t u : Shape} {front back : Path} : s.Labels front t → At t back u → At s (front ++ back) u

theorem At.holds {s t : Shape} {place : Path} (h : s.At place t) : s.Holds t := by
  induction h with
  | here s => exact .here s
  | step hl _ ih => exact .child hl.mem_kept ih

end Shape

namespace Scope

variable {scope : Scope} {seen : List TypeKey} {path : Path}

/-! ## Missing records -/

/-- The steps lead from the shape to a reference whose record is missing. -/
def Misses (scope : Scope) (step : Shape → Shape → Prop) (s : Shape) (id : TypeId) : Prop :=
  scope.types.resolve id.key = none ∧ ∃ arguments, ReflTransGen step s (.reference id arguments)

theorem Misses.head {step : Shape → Shape → Prop} {s t : Shape} {id : TypeId} (h : step s t)
    (ht : scope.Misses step t id) : scope.Misses step s id := by
  obtain ⟨hn, arguments, hr⟩ := ht
  exact ⟨hn, arguments, .head h hr⟩

/-- The shape itself holds a reference from which the record is missed. -/
theorem Misses.exists_reference {step : Shape → Shape → Prop}
    (inside : ∀ s t, step s t → t ∈ s.kept ∨ ∃ id arguments, s = .reference id arguments) {s : Shape} {id : TypeId}
    (h : scope.Misses step s id) :
    ∃ first arguments, s.Holds (.reference first arguments) ∧ scope.Misses step (.reference first arguments) id := by
  obtain ⟨hn, arguments, hr⟩ := h
  induction hr using ReflTransGen.head_induction_on with
  | refl => exact ⟨id, arguments, .here _, hn, arguments, .refl⟩
  | @head s t hs ht ih =>
    rcases inside s t hs with hc | ⟨first, arguments', rfl⟩
    · obtain ⟨first, arguments', hh, hm⟩ := ih
      exact ⟨first, arguments', .child hc hh, hm⟩
    · exact ⟨first, arguments', .here _, hn, arguments, .head hs ht⟩

/-! ## Failures of the checks -/

theorem error_of_areMapKeys {free untagged : Bool} {vs : List (Variant Shape)} {e : Error}
    (h : scope.areMapKeys free seen untagged vs = .error e) :
    ∃ v ∈ Variant.kept vs, ∃ t ∈ v.body.kept, scope.isMapKey free seen t = .error e :=
  failsIn_areMapKeys (E := fun e => ∃ v ∈ Variant.kept vs, ∃ t ∈ v.body.kept, scope.isMapKey free seen t = .error e)
    (fun v hv t ht _ he => ⟨v, hv, t, ht, he⟩) untagged e h

/-- The check of a key fails without a path, and only if a record is missing on the way. -/
theorem error_of_isMapKey {free : Bool} {s : Shape} {e : Error} (h : scope.isMapKey free seen s = .error e) :
    ∃ id, e = .invalidReference [] id ∧ scope.Misses scope.KeyStep s id := by
  induction seen, s using Collection.followInduction (c := scope.types) with
  | step seen s ih it =>
    cases s with
    | enum name vs tagging =>
      rw [isMapKey] at h
      obtain ⟨v, hv, t, ht, he⟩ := error_of_areMapKeys h
      obtain ⟨id, rfl, hm⟩ := ih t (Shape.mem_children_enum hv ht) he
      exact ⟨id, rfl, hm.head (.payload hv ht)⟩
    | nullable inner =>
      rw [isMapKey] at h
      obtain ⟨id, rfl, hm⟩ := ih inner List.mem_cons_self h
      exact ⟨id, rfl, hm.head .nullable⟩
    | reference id arguments =>
      rw [isMapKey] at h
      split at h
      · cases h
      · next hs =>
        split at h
        · next hn =>
          cases h
          exact ⟨id, rfl, hn, arguments, .refl⟩
        · next r hr =>
          obtain ⟨missing, rfl, hm⟩ := it id arguments r rfl hs hr h
          exact ⟨missing, rfl, hm.head (.target hr)⟩
    | _ =>
      rw [isMapKey] at h
      cases h

theorem error_of_checkPayloads {b : Body Shape} {e : Error}
    (h : b.checkPayloads (scope.checkPayload seen) path = .error e) :
    (¬ b.payloads.length ≤ 1 ∧ e = .invalidTagged path .severalFields) ∨
      ∃ t ∈ b.payloads, scope.checkPayload seen path t = .error e := by
  unfold Body.checkPayloads at h
  split at h
  · cases h
  · next t ht => exact Or.inr ⟨t, ht ▸ List.mem_cons_self, h⟩
  · next h0 h1 =>
    cases h
    exact Or.inl ⟨not_length_le_one h0 h1, rfl⟩

theorem error_of_checkVariants {vs : List (Variant Shape)} {e : Error}
    (h : scope.checkVariants seen path vs = .error e) : ∃ v ∈ Variant.kept vs,
      (¬ v.body.payloads.length ≤ 1 ∧ e = .invalidTagged (path ++ [v.name]) .severalFields) ∨
      ∃ t ∈ v.body.payloads, scope.checkPayload seen (path ++ [v.name]) t = .error e := by
  rw [checkVariants_eq_forM] at h
  obtain ⟨v, hv, h⟩ := exists_of_forM_error h
  exact ⟨v, hv, error_of_checkPayloads h⟩

/-- The payload at the path leads to a shape that is no object, or to a record that is missing. The path of the
error goes on from there. -/
inductive Refused (scope : Scope) (path : Path) (s : Shape) : Error → Prop
  | tagged {p : Path} {t : Shape} {fault : TagFault} : path <+: p → ReflTransGen scope.Leads s t →
      ¬ scope.IsObject t → Refused scope path s (.invalidTagged p fault)
  | missing {p : Path} {id : TypeId} : path <+: p → scope.Misses scope.Leads s id →
      Refused scope path s (.invalidReference p id)

theorem Refused.of_leads {path' : Path} {s t : Shape} {e : Error} (hl : scope.Leads s t) (hp : path <+: path')
    (h : scope.Refused path' t e) : scope.Refused path s e := by
  cases h with
  | tagged hq hr ho => exact .tagged (hp.trans hq) (.head hl hr) ho
  | missing hq hm => exact .missing (hp.trans hq) (hm.head hl)

theorem error_of_checkPayload {s : Shape} {e : Error} (h : scope.checkPayload seen path s = .error e) :
    scope.Refused path s e := by
  induction seen, s using Collection.followInduction (c := scope.types) generalizing path with
  | step seen s ih it =>
    cases s with
    | primitive | literal | list | nullable =>
      rw [checkPayload] at h
      cases h
      exact .tagged List.prefix_rfl .refl not_false
    | map | struct | placeholder | foreign =>
      rw [checkPayload] at h
      cases h
    | tuple elements =>
      cases elements with
      | nil =>
        rw [checkPayload] at h
        cases h
      | cons t ts =>
        rw [checkPayload] at h
        · cases h
          exact .tagged List.prefix_rfl .refl not_false
        · intro ht
          cases ht
    | enum name vs tagging =>
      rw [checkPayload] at h
      split at h
      · next hu =>
        obtain ⟨v, hv, ⟨hl, rfl⟩ | ⟨t, ht, h⟩⟩ := error_of_checkVariants h
        · have several : ¬ scope.IsObject (.enum name vs tagging) := fun ho => hl (ho hu v hv)
          exact .tagged (List.prefix_append _ _) .refl several
        · have child : t ∈ (Shape.enum name vs tagging).children :=
            Shape.mem_children_enum hv (Body.mem_kept_of_mem_payloads ht)
          exact .of_leads (.variant hu hv ht) (List.prefix_append _ _) (ih t child h)
      · cases h
    | reference id arguments =>
      rw [checkPayload] at h
      split at h
      · cases h
      · next hs =>
        split at h
        · next hn =>
          cases h
          exact .missing List.prefix_rfl ⟨hn, arguments, .refl⟩
        · next r hr => exact .of_leads (.target hr) List.prefix_rfl (it id arguments r rfl hs hr h)

/-! ## What is refused -/

/-- The shape needs the other one to be a key: it is a map, or it binds a parameter that its record uses as a key. -/
inductive NeedsKey (scope : Scope) : Shape → Option (String × String) → Shape → Prop
  | map {key value : Shape} : NeedsKey scope (.map key value) none key
  | argument {id : TypeId} {arguments : List Shape} {r : Record} {name : String} {a : Shape} :
      scope.types.resolve id.key = some r → (name, a) ∈ r.parameters.zip arguments →
      name ∈ r.shape.mapKeyParameters → NeedsKey scope (.reference id arguments) (some (name, r.name)) a

/-- The shape at the path is refused with the error. -/
inductive Offends (scope : Scope) (path : Path) : Shape → Error → Prop
  | key {s key : Shape} {argument : Option (String × String)} : scope.NeedsKey s argument key →
      scope.isMapKey true [] key = .ok false → Offends scope path s (.invalidMapKey path argument)
  | missingKey {s key : Shape} {argument : Option (String × String)} {id : TypeId} :
      scope.NeedsKey s argument key → scope.Misses scope.KeyStep key id →
      Offends scope path s (.invalidReference [] id)
  | onlyField {name : String} {body : Body Shape} : body.losesOnlyField →
      Offends scope path (.struct name body) (.invalidSkip (path ++ ["0"]) .onlyPositionalField)
  | onlyVariantField {name : String} {vs : List (Variant Shape)} {tagging : Option Tagging} {v : Variant Shape} :
      v ∈ Variant.kept vs → v.body.losesOnlyField →
      Offends scope path (.enum name vs tagging) (.invalidSkip (path ++ [v.name, "0"]) .onlyPositionalField)
  | everyVariant {name : String} {vs : List (Variant Shape)} {tagging : Option Tagging} : vs ≠ [] →
      Variant.kept vs = [] → Offends scope path (.enum name vs tagging) (.invalidSkip path .everyVariant)
  | severalFields {name : String} {tag : Json} {vs : List (Variant Shape)} {tagging : Option Tagging}
      {v : Variant Shape} : scope.overrides.effective name tagging = .internal tag → v ∈ Variant.kept vs →
      ¬ v.body.payloads.length ≤ 1 →
      Offends scope path (.enum name vs tagging) (.invalidTagged (path ++ [v.name]) .severalFields)
  | payload {name : String} {tag : Json} {vs : List (Variant Shape)} {tagging : Option Tagging}
      {v : Variant Shape} {t : Shape} {e : Error} : scope.overrides.effective name tagging = .internal tag →
      v ∈ Variant.kept vs → t ∈ v.body.payloads → scope.Refused (path ++ [v.name]) t e →
      Offends scope path (.enum name vs tagging) e
  | missing {id : TypeId} {arguments : List Shape} : scope.types.resolve id.key = none →
      Offends scope path (.reference id arguments) (.invalidReference path id)

theorem Offends.of_requireKey {s key : Shape} {argument : Option (String × String)} {e : Error}
    (hk : scope.NeedsKey s argument key) (h : scope.requireKey path argument key = .error e) :
    scope.Offends path s e := by
  unfold requireKey at h
  split at h
  · cases h
  · next answer =>
    cases h
    exact .key hk answer
  · next failure =>
    cases h
    obtain ⟨id, rfl, hm⟩ := error_of_isMapKey failure
    exact .missingKey hk hm

/-- The error is that of a record which is missing where a key is followed that the shape needs. -/
def MissesKey (scope : Scope) (s : Shape) (e : Error) : Prop :=
  ∃ argument key id, scope.NeedsKey s argument key ∧ scope.Misses scope.KeyStep key id ∧ e = .invalidReference [] id

/-- The path of an error goes on from the place of the shape, unless a record is missing where a key is followed. -/
theorem Offends.located {s : Shape} {e : Error} (h : scope.Offends path s e) :
    (∃ p, e.path? = some p ∧ path <+: p) ∨ scope.MissesKey s e := by
  cases h with
  | key => exact Or.inl ⟨_, rfl, List.prefix_rfl⟩
  | missingKey hk hm => exact Or.inr ⟨_, _, _, hk, hm, rfl⟩
  | onlyField | onlyVariantField | severalFields => exact Or.inl ⟨_, rfl, List.prefix_append _ _⟩
  | everyVariant => exact Or.inl ⟨_, rfl, List.prefix_rfl⟩
  | payload _ _ _ hr =>
    cases hr with
    | tagged hp => exact Or.inl ⟨_, rfl, (List.prefix_append _ _).trans hp⟩
    | missing hp => exact Or.inl ⟨_, rfl, (List.prefix_append _ _).trans hp⟩
  | missing => exact Or.inl ⟨_, rfl, List.prefix_rfl⟩

theorem NeedsKey.mem_kept {s key : Shape} {argument : Option (String × String)} (h : scope.NeedsKey s argument key) :
    key ∈ s.kept := by
  cases h with
  | map => exact List.mem_cons_self
  | argument _ hz _ => exact (List.of_mem_zip hz).2

theorem KeyStep.inside {s t : Shape} (h : scope.KeyStep s t) :
    t ∈ s.kept ∨ ∃ id arguments, s = .reference id arguments := by
  cases h with
  | nullable => exact Or.inl List.mem_cons_self
  | payload hv ht => exact Or.inl (List.mem_flatMap.2 ⟨_, hv, ht⟩)
  | target => exact Or.inr ⟨_, _, rfl⟩

theorem Leads.inside {s t : Shape} (h : scope.Leads s t) :
    t ∈ s.kept ∨ ∃ id arguments, s = .reference id arguments := by
  cases h with
  | variant _ hv ht => exact Or.inl (List.mem_flatMap.2 ⟨_, hv, Body.mem_kept_of_mem_payloads ht⟩)
  | target => exact Or.inr ⟨_, _, rfl⟩

/-- The shape itself holds a reference from which a missing record is missed. -/
theorem Offends.exists_reference {s : Shape} {p : Path} {id : TypeId}
    (h : scope.Offends path s (.invalidReference p id)) : ∃ first arguments, s.Holds (.reference first arguments) ∧
      (scope.Misses scope.KeyStep (.reference first arguments) id ∨
        scope.Misses scope.Leads (.reference first arguments) id) := by
  cases h with
  | missingKey hk hm =>
    obtain ⟨first, arguments, hh, hm⟩ := hm.exists_reference fun _ _ => KeyStep.inside
    exact ⟨first, arguments, .child hk.mem_kept hh, Or.inl hm⟩
  | @payload name _ vs tagging v t _ _ hv ht hr =>
    cases hr with
    | missing _ hm =>
      obtain ⟨first, arguments, hh, hm⟩ := hm.exists_reference fun _ _ => Leads.inside
      have child : t ∈ (Shape.enum name vs tagging).kept :=
        List.mem_flatMap.2 ⟨v, hv, Body.mem_kept_of_mem_payloads ht⟩
      exact ⟨first, arguments, .child child hh, Or.inr hm⟩
  | missing hn => exact ⟨id, _, .here _, Or.inl ⟨hn, _, .refl⟩⟩

/-! ## Walks through a body -/

section Walk

variable {types : Collection} {e : Error}

theorem mem_failure {result : Except Error Unit} :
    (.fail e : Obligation types) ∈ failure result ↔ result = .error e := by
  cases result <;> simp [failure, eq_comm]

theorem fail_mem_keyArguments {id : TypeId} {arguments : List Shape} {r : Record}
    (hr : scope.types.resolve id.key = some r) (h : .fail e ∈ scope.keyArguments path r arguments) :
    scope.Offends path (.reference id arguments) e := by
  obtain ⟨⟨name, a⟩, hz, h⟩ := List.mem_flatMap.1 h
  dsimp only at h
  split at h
  · next hm => exact .of_requireKey (.argument hr hz (List.contains_iff_mem.1 hm)) (mem_failure.1 h)
  · cases h

theorem fail_mem_enumChecks {name : String} {vs : List (Variant Shape)} {tagging : Option Tagging} (hp : path ≠ [])
    (h : .fail e ∈ scope.enumChecks path name vs tagging) : scope.Offends path (.enum name vs tagging) e := by
  rcases List.mem_append.1 h with h | h
  · split at h
    · next hv =>
      rw [Bool.and_eq_true, Bool.not_eq_true', List.isEmpty_eq_false_iff, List.isEmpty_iff] at hv
      cases List.mem_singleton.1 h
      exact .everyVariant hv.1 hv.2
    · cases h
  · split at h
    · next tag ht =>
      have failed := mem_failure.1 h
      rw [checkTagged, if_neg (by simpa using hp)] at failed
      obtain ⟨v, hv, ⟨hl, rfl⟩ | ⟨t, hm, hc⟩⟩ := error_of_checkVariants failed
      · exact .severalFields ht hv hl
      · exact .payload ht hv hm (error_of_checkPayload hc)
    · cases h

theorem Owes.offends {s : Shape} (hp : path ≠ []) (h : scope.Owes path s (.fail e)) : scope.Offends path s e := by
  cases h with
  | key h => exact .of_requireKey .map (mem_failure.1 h)
  | onlyField hl => exact .onlyField hl
  | checks h => exact fail_mem_enumChecks hp h
  | onlyVariantField hv hl => exact .onlyVariantField hv hl
  | missing hn => exact .missing hn
  | arguments hr h => exact fail_mem_keyArguments hr h

/-- A walk through a body fails at a kept position of that body. -/
theorem exists_offends {s : Shape} (hp : path ≠ []) (h : .fail e ∈ scope.obligations path s) :
    ∃ place t, s.At place t ∧ scope.Offends (path ++ place) t e := by
  induction s using Shape.childInduction generalizing path with
  | step s ih =>
    rcases mem_obligations.1 h with own | ⟨-, front, t, hl, h⟩
    · refine ⟨[], s, .here s, ?_⟩
      rw [List.append_nil]
      exact own.offends hp
    · have child := Shape.mem_children_of_mem_kept hl.mem_kept
      obtain ⟨back, u, ha, ho⟩ := ih t child (List.append_ne_nil_of_left_ne_nil hp front) h
      exact ⟨front ++ back, u, .step hl ha, by rwa [← List.append_assoc]⟩

end Walk

/-! ## The walk through the collection -/

/-- The walk through the collection fails where the walk through one of its records does. -/
theorem exists_of_discharge {checked : List TypeKey} {todo : List (Obligation scope.types)} {e : Error}
    (h : scope.discharge checked todo = .error e) :
    .fail e ∈ todo ∨ ∃ r ∈ scope.types.records, .fail e ∈ scope.recordObligations r := by
  fun_induction discharge scope checked todo with
  | case1 => cases h
  | case2 checked e' =>
    cases h
    exact Or.inl List.mem_cons_self
  | case3 checked r mem rest hc ih => exact (ih h).imp_left (List.mem_cons_of_mem _)
  | case4 checked r mem rest hc ih =>
    rcases ih h with h | h
    · rcases List.mem_append.1 h with h | h
      · exact Or.inr ⟨r, Collection.mem_records.2 mem, h⟩
      · exact Or.inl (List.mem_cons_of_mem _ h)
    · exact Or.inr h

/-- An error of validation is that of a kept position in a record's own body. Its path starts with the record's
name and goes on to the position, unless it is that of a record which is missing where a key is followed: that one
has no path. Of a missing record, the body holds a reference from which it is missed. -/
theorem validate_located {e : Error} (h : scope.validate = .error e) :
    ∃ r ∈ scope.types.records, ∃ place t, r.shape.At place t ∧ scope.Offends (r.name :: place) t e ∧
      (∃ path, e.path? = some path ∧ (path = [] ↔ scope.MissesKey t e) ∧ (path ≠ [] → r.name :: place <+: path)) ∧
      ∀ path id, e = .invalidReference path id → ∃ first arguments, r.shape.Holds (.reference first arguments) ∧
        (scope.Misses scope.KeyStep (.reference first arguments) id ∨
          scope.Misses scope.Leads (.reference first arguments) id) := by
  have failed : scope.discharge [] scope.visits = .error e := by
    rw [validate] at h
    cases hd : scope.discharge [] scope.visits with
    | ok => simp [hd, Except.map] at h
    | error => simpa [hd, Except.map] using h
  obtain ⟨r, hr, hf⟩ : ∃ r ∈ scope.types.records, .fail e ∈ scope.recordObligations r := by
    rcases exists_of_discharge failed with hv | hr
    · obtain ⟨_, -, hv⟩ := List.mem_map.1 hv
      cases hv
    · exact hr
  obtain ⟨place, t, ha, ho⟩ := exists_offends (List.cons_ne_nil _ _) hf
  refine ⟨r, hr, place, t, ha, ho, ?_, ?_⟩
  · rcases ho.located with ⟨path, hp, hs⟩ | hm
    · have ne : path ≠ [] := by
        rintro rfl
        cases List.prefix_nil.1 hs
      refine ⟨path, hp, ⟨fun empty => absurd empty ne, ?_⟩, fun _ => hs⟩
      rintro ⟨_, _, _, -, -, rfl⟩
      exact (Option.some.inj hp).symm
    · obtain ⟨_, _, _, -, -, rfl⟩ := id hm
      exact ⟨[], rfl, iff_of_true rfl hm, fun ne => absurd rfl ne⟩
  · rintro path id rfl
    obtain ⟨first, arguments, hh, hm⟩ := ho.exists_reference
    exact ⟨first, arguments, ha.holds.trans hh, hm⟩

namespace Shelves

def keyed : Record where
  id := ⟨⟨.static, 1⟩, "Keyed"⟩
  name := "Keyed"
  shape := .map (.placeholder "K") (.primitive .i32)
  parameters := ["K"]

/-- Lists are no keys. -/
def shelf : Record where
  id := ⟨⟨.static, 2⟩, "Shelf"⟩
  name := "Shelf"
  shape := .struct "Shelf" (.named none [{ name := "rows", ty := .tuple [.primitive .string,
    .reference keyed.id [.list (.primitive .string) none false]] }])

def shelves : Scope := { types := .ofRecords [shelf, keyed] }

/-- The list is bound to the parameter within the shelf, and not where the map is. -/
theorem validate_located_shelf :
    shelves.validate = .error (.invalidMapKey ["Shelf", "rows", "1"] (some ("K", "Keyed"))) ∧
      ∃ r ∈ shelves.types.records, ∃ place t, r.shape.At place t ∧ r.name :: place <+: ["Shelf", "rows", "1"] := by
  have refused : shelves.validate = .error (.invalidMapKey ["Shelf", "rows", "1"] (some ("K", "Keyed"))) := by cbv
  obtain ⟨r, hr, place, t, ha, -, ⟨path, hp, -, hs⟩, -⟩ := validate_located refused
  cases hp
  exact ⟨refused, r, hr, place, t, ha, hs (List.cons_ne_nil _ _)⟩

/-- Its keys are names, and there is no record of names. -/
def index : Record where
  id := ⟨⟨.static, 3⟩, "Index"⟩
  name := "Index"
  shape := .map (.reference ⟨⟨.static, 4⟩, "Name"⟩ []) (.primitive .i32)

def indexed : Scope := { types := .ofRecords [index] }

theorem missing_key_unlocated : ∃ e, indexed.validate = .error e ∧ e.path? = some [] :=
  ⟨.invalidReference [] ⟨⟨.static, 4⟩, "Name"⟩, by cbv, rfl⟩

end Shelves

end Scope

end ShapeExport
