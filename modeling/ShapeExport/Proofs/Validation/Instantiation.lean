import Mathlib
import ShapeExport.Proofs.Validation.Acceptance

/-!
# Acceptance and instantiation

The validator reads each record once, with its parameters left open, and at a reference it looks at the
arguments of those parameters that are map keys themselves. Whether an accepted record stays sound when
its references are unfolded depends on what was left open.

* `Scope.Sound` : all map keys are keys and all internal tags fit, with no parameter taken for a key;
* `Scope.Settles` : arguments settle all that the check of a record left open;
* `Scope.Applies` : the arguments that a record is applied to on the way;
* `Scope.Firm` : the invariant of unfolding, which no longer depends on parameters;
* `Scope.sound_unfolding_iff` : unfolding an accepted record stays sound exactly if all arguments on the
  way settle what was left open.
-/

namespace ShapeExport
open Relation

/-! ## Parameters that are map keys -/

namespace Shape

/-- A parameter is the key of a map at a kept position, under nullables at most. -/
def KeyedBy (s : Shape) (name : String) : Prop :=
  ∃ key value, s.Holds (.map key value) ∧ key.stripNullable = .placeholder name

theorem mem_mapKeyParameters {s : Shape} {name : String} (h : s.KeyedBy name) :
    name ∈ s.mapKeyParameters := by
  obtain ⟨key, value, hs, hk⟩ := h
  generalize hm : Shape.map key value = m at hs
  induction hs with
  | here s =>
    subst hm
    rw [mapKeyParameters_eq, ownKeyParameter, hk]
    exact List.mem_append_left _ List.mem_cons_self
  | @child s c _ hc _ ih =>
    rw [mapKeyParameters_eq]
    exact List.mem_append_right _ (List.mem_flatMap.2 ⟨c, mem_children_of_mem_kept hc, ih hm⟩)

end Shape

namespace Scope

variable {scope : Scope}

theorem isKey_substitute_parameter {free : Bool} {seen : List TypeKey} {b : Binding} {name : String}
    {s : Shape} (h : s.stripNullable = .placeholder name) :
    scope.IsKey free seen (s.substitute b) ↔
      scope.IsKey free seen ((Shape.placeholder name).substitute b) := by
  induction s using Shape.stripNullable.induct with
  | case1 inner ih =>
    rw [Shape.stripNullable] at h
    rw [Shape.substitute_nullable, isKey_nullable, ih h]
  | case2 s hs =>
    rw [Shape.stripNullable.eq_2 s hs] at h
    rw [h]

/-! ## Soundness, and what is left open -/

/-- All map keys at kept positions are keys, and the internal tags of all enums there fit. -/
structure Sound (scope : Scope) (s : Shape) : Prop where
  key {k v : Shape} : s.Holds (.map k v) → scope.isMapKey false [] k = .ok true
  tagged {name : String} {vs : List (Variant Shape)} {tagging : Option Tagging} {tag : Json} :
    s.Holds (.enum name vs tagging) → scope.overrides.effective name tagging = .internal tag →
    ∀ path, scope.checkTagged path name vs = .ok ()

/-- A shape is taken for a key only because type parameters are. -/
def IsOpenKey (scope : Scope) (s : Shape) : Prop :=
  scope.isMapKey true [] s = .ok true ∧ scope.isMapKey false [] s ≠ .ok true

/-- The arguments settle all that the check of the record left open. -/
structure Settles (scope : Scope) (r : Record) (arguments : List Shape) : Prop where
  /-- Each parameter that is a map key has an argument. -/
  bound {name : String} : r.shape.KeyedBy name →
    ∃ a, Binding.ofLists r.parameters arguments name = some a
  /-- An open key that is no mere parameter becomes a key. -/
  key {k v : Shape} : r.shape.Holds (.map k v) → (∀ name, k.stripNullable ≠ .placeholder name) →
    scope.IsOpenKey k →
    scope.isMapKey false [] (k.substitute (Binding.ofLists r.parameters arguments)) = .ok true
  /-- An open argument for a parameter that is a map key becomes a key. -/
  argument {id : TypeId} {as : List Shape} {q : Record} {name : String} {a : Shape} :
    r.shape.Holds (.reference id as) → scope.types.resolve id.key = some q → q.shape.KeyedBy name →
    Binding.ofLists q.parameters as name = some a → scope.IsOpenKey a →
    scope.isMapKey false [] (a.substitute (Binding.ofLists r.parameters arguments)) = .ok true
  /-- An open payload of an internal tag becomes an object, and stays one. -/
  payload {name : String} {vs : List (Variant Shape)} {tagging : Option Tagging} {tag : Json}
    {v : Variant Shape} {t : Shape} : r.shape.Holds (.enum name vs tagging) →
    scope.overrides.effective name tagging = .internal tag → v ∈ Variant.kept vs →
    t ∈ v.body.payloads → scope.IsOpenPayload t →
    scope.Objectlike (t.substitute (Binding.ofLists r.parameters arguments))

/-- Unfolding the first shape brings up the second one at a kept position. -/
def Reaches (scope : Scope) (s x : Shape) : Prop := ∃ u, ReflTransGen scope.Unfolds s u ∧ u.Holds x

/-- When the first record is unfolded, the second one is applied to the arguments. -/
def Applies (scope : Scope) (r t : Record) (arguments : List Shape) : Prop :=
  t = r ∧ arguments = [] ∨ ∃ id, scope.Reaches r.shape (.reference id arguments) ∧
    scope.types.resolve id.key = some t

/-! ## The invariant of unfolding -/

/-- All map keys are keys, all arguments for map keys are keys, and all payloads of internal tags are
objects and stay so. -/
structure Firm (scope : Scope) (s : Shape) : Prop where
  key {k v : Shape} : s.Holds (.map k v) → scope.IsKey false [] k
  argument {id : TypeId} {as : List Shape} {q : Record} {name : String} {a : Shape} :
    s.Holds (.reference id as) → scope.types.resolve id.key = some q → q.shape.KeyedBy name →
    Binding.ofLists q.parameters as name = some a → scope.IsKey false [] a
  payload {name : String} {vs : List (Variant Shape)} {tagging : Option Tagging} {tag : Json}
    {v : Variant Shape} : s.Holds (.enum name vs tagging) →
    scope.overrides.effective name tagging = .internal tag → v ∈ Variant.kept vs →
    v.body.payloads.length ≤ 1 ∧ ∀ t ∈ v.body.payloads, scope.Objectlike t

theorem Firm.of_holds {s t : Shape} (h : s.Holds t) (hf : scope.Firm s) : scope.Firm t where
  key ht := hf.key (h.trans ht)
  argument ht := hf.argument (h.trans ht)
  payload ht := hf.payload (h.trans ht)

theorem Firm.sound {s : Shape} (hf : scope.Firm s) : scope.Sound s where
  key h := hf.key h
  tagged h he _ := checkVariants_eq_ok.2 fun _ hv =>
    ⟨(hf.payload h he hv).1, fun t ht => ((hf.payload h he hv).2 t ht).check [] _⟩

/-- A key that the check accepts is a key under arguments that make it one if it is open. -/
theorem isKey_substitute_of_settled {s : Shape} {b : Binding} (h : scope.IsKey true [] s)
    (ho : scope.IsOpenKey s → scope.IsKey false [] (s.substitute b)) :
    scope.IsKey false [] (s.substitute b) := by
  by_cases hs : scope.IsKey false [] s
  · exact hs.settled b
  · exact ho ⟨h, hs⟩

theorem Settles.isKey {r : Record} {arguments : List Shape} (hs : scope.Settles r arguments)
    (ha : scope.Accepts r.shape) (hk : ∀ name a, r.shape.KeyedBy name →
      Binding.ofLists r.parameters arguments name = some a → scope.IsKey false [] a)
    {k v : Shape} (h : r.shape.Holds (.map k v)) :
    scope.IsKey false [] (k.substitute (Binding.ofLists r.parameters arguments)) := by
  by_cases hp : ∃ name, k.stripNullable = .placeholder name
  · obtain ⟨name, hp⟩ := hp
    obtain ⟨a, hb⟩ := hs.bound ⟨k, v, h, hp⟩
    rw [isKey_substitute_parameter hp, Shape.substitute_placeholder, hb]
    exact hk name a ⟨k, v, h, hp⟩ hb
  · exact isKey_substitute_of_settled (ha.key h) (hs.key h fun name e => hp ⟨name, e⟩)

theorem Settles.objectlike {r : Record} {arguments : List Shape} (hs : scope.Settles r arguments)
    (ha : scope.Accepts r.shape) {name : String} {vs : List (Variant Shape)}
    {tagging : Option Tagging} {tag : Json} {v : Variant Shape} (h : r.shape.Holds (.enum name vs tagging))
    (he : scope.overrides.effective name tagging = .internal tag) (hv : v ∈ Variant.kept vs) :
    v.body.payloads.length ≤ 1 ∧ ∀ t ∈ v.body.payloads,
      scope.Objectlike (t.substitute (Binding.ofLists r.parameters arguments)) := by
  obtain ⟨path, hc⟩ := ha.tagged h he
  obtain ⟨hl, ht⟩ := checkVariants_eq_ok.1 hc v hv
  refine ⟨hl, fun t hm => ?_⟩
  by_cases ho : scope.IsOpenPayload t
  · exact hs.payload h he hv hm ho
  · exact .of_check (ht t hm) ho _

/-- The body of an accepted record is firm under firm arguments that settle it. -/
theorem Settles.firm {r : Record} {arguments : List Shape} (hs : scope.Settles r arguments)
    (ha : scope.Accepts r.shape) (hk : ∀ name a, r.shape.KeyedBy name →
      Binding.ofLists r.parameters arguments name = some a → scope.IsKey false [] a)
    (hf : ∀ a ∈ arguments, scope.Firm a) : scope.Firm (r.expand arguments) where
  key h := by
    rcases h.of_substitute with ⟨y, hy, e⟩ | ⟨name, a, -, hb, hx⟩
    · cases y <;> cases e
      exact hs.isKey ha hk hy
    · exact (hf a (Binding.mem_of_ofLists hb)).key hx
  argument h hq hn hb := by
    rcases h.of_substitute with ⟨y, hy, e⟩ | ⟨_, a, -, hb', hx⟩
    · cases y <;> cases e
      rw [Binding.ofLists_map] at hb
      obtain ⟨a, hm, rfl⟩ := Option.map_eq_some_iff.1 hb
      refine isKey_substitute_of_settled ?_ (hs.argument hy hq hn hm)
      exact ha.argument hy hq (Binding.mem_zip_of_ofLists hm) (Shape.mem_mapKeyParameters hn)
    · exact (hf a (Binding.mem_of_ofLists hb')).argument hx hq hn hb
  payload h he hv := by
    rcases h.of_substitute with ⟨y, hy, e⟩ | ⟨_, a, -, hb', hx⟩
    · cases y <;> cases e
      rw [Variant.kept_map] at hv
      obtain ⟨w, hw, rfl⟩ := List.mem_map.1 hv
      rw [Variant.body_map, Body.payloads_map, List.length_map, List.forall_mem_map]
      exact hs.objectlike ha hy he hw
    · exact (hf a (Binding.mem_of_ofLists hb')).payload hx he hv

/-- Unfolding one reference of a firm shape leaves it firm if the arguments settle the record. -/
theorem Firm.unfolds {s s' : Shape} (hf : scope.Firm s) (hu : scope.Unfolds s s')
    (hs : ∀ id arguments r, s.Holds (.reference id arguments) → scope.types.resolve id.key = some r →
      scope.Accepts r.shape ∧ scope.Settles r arguments) : scope.Firm s' := by
  -- A body that is unfolded is firm: its record is accepted, and the arguments settle it.
  have target : ∀ {id arguments r}, s.Holds (.reference id arguments) →
      scope.types.resolve id.key = some r → scope.Firm (r.expand arguments) := by
    intro id arguments r h hr
    obtain ⟨ha, hset⟩ := hs id arguments r h hr
    have firm : ∀ a ∈ arguments, scope.Firm a := by
      intro a hm
      exact hf.of_holds (h.trans (.of_mem hm))
    exact hset.firm ha (fun _ _ hn => hf.argument h hr hn) firm
  constructor
  · intro k v h
    rcases hu.holds h with h | ⟨y, c, c', hy, hc, hr⟩ | ⟨id, arguments, r, hy, hr, hx⟩
    · exact hf.key h
    · cases hr with
      | key => exact (hf.key hy).unfolds hc
      | value => exact hf.key hy
    · exact (target hy hr).key hx
  · intro id as q name a h hq hn hb
    rcases hu.holds h with h | ⟨y, c, c', hy, hc, hr⟩ | ⟨_, arguments, r, hy, hr, hx⟩
    · exact hf.argument h hq hn hb
    · cases hr with
      | @argument _ l r =>
        have hx := Binding.ofLists_replace q.parameters l r c c' name
        rw [hb] at hx
        generalize hb' : Binding.ofLists q.parameters (l ++ c :: r) name = o at hx
        cases hx with
        | some hx =>
          rcases hx with rfl | ⟨rfl, rfl⟩
          · exact hf.argument hy hq hn hb'
          · exact (hf.argument hy hq hn hb').unfolds hc
    · exact (target hy hr).argument hx hq hn hb
  · intro name vs tagging tag v h he hv
    rcases hu.holds h with h | ⟨y, c, c', hy, hc, hr⟩ | ⟨_, arguments, r, hy, hr, hx⟩
    · exact hf.payload h he hv
    · cases hr with
      | @variant _ _ l r w b hw hb =>
        rcases Variant.mem_kept_replace hw hv with hm | ⟨rfl, hm⟩
        · exact hf.payload hy he hm
        · obtain ⟨hl, ho⟩ := hf.payload hy he hm
          have hlen : b.payloads.length ≤ 1 := hb.length_payloads ▸ hl
          refine ⟨hlen, fun t ht => ?_⟩
          rcases hb.mem_payloads ht with ht | ⟨rfl, ht⟩
          · exact ho t ht
          · exact (ho c ht).unfolds hc
    · exact (target hy hr).payload hx he hv

/-! ## Shapes on the way -/

theorem Reaches.unfolds {s x x' : Shape} (h : scope.Reaches s x) (hu : ReflTransGen scope.Unfolds x x') :
    scope.Reaches s x' := by
  obtain ⟨u, hsu, hx⟩ := h
  obtain ⟨u', huu, hx'⟩ := Unfolds.lift_all hx hu
  exact ⟨u', hsu.trans huu, hx'⟩

theorem Reaches.holds {s x y : Shape} (h : scope.Reaches s x) (hy : x.Holds y) : scope.Reaches s y := by
  obtain ⟨u, hsu, hx⟩ := h
  exact ⟨u, hsu, hx.trans hy⟩

theorem Applies.reaches {r t : Record} {arguments : List Shape} (hp : r.parameters = [])
    (h : scope.Applies r t arguments) : scope.Reaches r.shape (t.expand arguments) := by
  rcases h with ⟨rfl, rfl⟩ | ⟨id, hs, hr⟩
  · rw [Record.expand_of_not_generic hp]
    exact ⟨_, .refl, .here _⟩
  · exact hs.unfolds (.single (.target hr))

/-- If all that comes up is sound, then the arguments settle each body that comes up. -/
theorem Settles.of_sound {r : Record} {arguments : List Shape} {s : Shape}
    (hs : ∀ u, ReflTransGen scope.Unfolds s u → scope.Sound u)
    (hr : scope.Reaches s (r.expand arguments)) : scope.Settles r arguments := by
  have key : ∀ {k v}, scope.Reaches s (.map k v) → scope.IsKey false [] k :=
    fun ⟨u, hu, hm⟩ => (hs u hu).key hm
  have holds : ∀ {x}, r.shape.Holds x →
      scope.Reaches s (x.substitute (Binding.ofLists r.parameters arguments)) :=
    fun hx => hr.holds (hx.substitute _)
  constructor
  · rintro name ⟨k, v, hm, hk⟩
    have hx := holds hm
    rw [Shape.substitute_map] at hx
    have hkey := (isKey_substitute_parameter hk).1 (key hx)
    cases hb : Binding.ofLists r.parameters arguments name with
    | some a => exact ⟨a, rfl⟩
    | none => simp [Shape.substitute_placeholder, hb, isKey_placeholder] at hkey
  · intro k v hm _ _
    have hx := holds hm
    rw [Shape.substitute_map] at hx
    exact key hx
  · rintro id as q name a hm hq ⟨k, v, hk, hp⟩ hb _
    have hx := holds hm
    rw [Shape.substitute_reference] at hx
    have hv := (hx.unfolds (.single (.target hq))).holds (hk.substitute _)
    rw [Shape.substitute_map] at hv
    have hkey := (isKey_substitute_parameter hp).1 (key hv)
    rwa [Shape.substitute_placeholder, Binding.ofLists_map, hb] at hkey
  · intro name vs tagging tag v t hm he hv ht _ n
    by_contra hn
    obtain ⟨s', hu, hc⟩ := ObjectFor.exists_unfolds hn
    have hx := holds hm
    rw [Shape.substitute_enum] at hx
    generalize Binding.ofLists r.parameters arguments = b at hx hu
    have hvb : v.map (Shape.substitute b) ∈ Variant.kept (vs.map (·.map (Shape.substitute b))) := by
      rw [Variant.kept_map]
      exact List.mem_map.2 ⟨v, hv, rfl⟩
    have htb : t.substitute b ∈ (v.map (Shape.substitute b)).body.payloads := by
      rw [Variant.body_map, Body.payloads_map]
      exact List.mem_map.2 ⟨t, ht, rfl⟩
    obtain ⟨vs', v', hus, hv', ht'⟩ := Unfolds.lift_variant name tagging hvb htb hu
    obtain ⟨u, hu, hm'⟩ := hx.unfolds hus
    have fits := checkVariants_eq_ok.1 ((hs u hu).tagged hm' he [name]) v' hv'
    exact hc _ (fits.2 s' ht')

/-- An accepted record stays sound under all unfolding of references exactly if, whenever a record is
applied on the way, the arguments settle what the check of that record left open. -/
theorem sound_unfolding_iff (own : scope.types.OwnIds) (accepted : scope.validate = .ok ()) {r : Record}
    (mem : r ∈ scope.types.records) (plain : r.parameters = []) :
    (∀ u, ReflTransGen scope.Unfolds r.shape u → scope.Sound u) ↔
      ∀ t arguments, scope.Applies r t arguments → scope.Settles t arguments := by
  constructor
  · intro hs t arguments ha
    exact .of_sound hs (ha.reaches plain)
  · intro hs u hu
    suffices hf : scope.Firm u from hf.sound
    induction hu with
    | refl =>
      have hr := (hs r [] (Or.inl ⟨rfl, rfl⟩)).firm
        (accepts_of_validate own accepted (Collection.mem_records.1 mem)) ?_ nofun
      · rwa [Record.expand_of_not_generic plain] at hr
      · intro name a _ hb
        rw [plain] at hb
        cases hb
    | @tail u u' hu hstep ih =>
      refine ih.unfolds hstep fun id arguments t hm ht => ⟨?_, ?_⟩
      · exact accepts_of_validate own accepted (Collection.mem_members_of_resolve ht)
      · exact hs t arguments (Or.inr ⟨id, ⟨u, hu, hm⟩, ht⟩)

/-! ## A parameter that is passed on

`Carrier` passes its parameter on to `Keyed`, which uses it as a map key. At `Carrier` the argument is a
mere parameter, and where `Listed` gives a list to `Carrier` no key parameter of `Carrier` is found. -/

namespace Chain

def keyed : Record where
  id := ⟨⟨.static, 1⟩, "Keyed"⟩
  name := "Keyed"
  shape := .map (.placeholder "K") (.primitive .i32)
  parameters := ["K"]

def carrier : Record where
  id := ⟨⟨.static, 2⟩, "Carrier"⟩
  name := "Carrier"
  shape := .reference keyed.id [.placeholder "T"]
  parameters := ["T"]

def listed : Record where
  id := ⟨⟨.static, 3⟩, "Listed"⟩
  name := "Listed"
  shape := .reference carrier.id [.list (.primitive .i32) none false]

def chain : Scope := { types := .ofRecords [keyed, carrier, listed] }

theorem mem_records_chain : listed ∈ chain.types.records :=
  Collection.mem_records.2 (Collection.mem_members_of_resolve (k := listed.id.key) rfl)

theorem validate_chain : chain.validate = .ok () := by
  have own : chain.types.OwnIds := Collection.ownIds_ofRecords _
  rw [validate_eq_ok own]
  intro r hr e he
  have members : chain.types.members = [keyed, carrier, listed] := rfl
  rw [members, List.mem_cons, List.mem_cons, List.mem_singleton] at hr
  rcases hr with rfl | rfl | rfl
  · cbv at he
    cases he
  · cbv at he
    rcases he with _ | ⟨_, ⟨⟩⟩
  · cbv at he
    rcases he with _ | ⟨_, ⟨⟩⟩

theorem listed_unfolds : ReflTransGen chain.Unfolds listed.shape
    (.map (.list (.primitive .i32) none false) (.primitive .i32)) := by
  have outer : chain.Unfolds listed.shape (carrier.expand [.list (.primitive .i32) none false]) :=
    .target rfl
  have e : carrier.expand [.list (.primitive .i32) none false] =
      .reference keyed.id [.list (.primitive .i32) none false] := by
    simp [Record.expand, carrier, Shape.substitute_placeholder, Binding.ofLists]
  have inner : chain.Unfolds (.reference keyed.id [.list (.primitive .i32) none false])
      (keyed.expand [.list (.primitive .i32) none false]) := .target rfl
  have e' : keyed.expand [.list (.primitive .i32) none false] =
      .map (.list (.primitive .i32) none false) (.primitive .i32) := by
    simp [Record.expand, keyed, Shape.substitute_placeholder, Binding.ofLists]
  rw [e] at outer
  rw [e'] at inner
  exact .head outer (.single inner)

theorem not_sound_map {k v : Shape} (h : ¬ chain.IsKey false [] k) : ¬ chain.Sound (.map k v) :=
  fun hs => h (hs.key (.here _))

/-- The chain is accepted, and yet a list comes up as a map key. -/
theorem chain_accepted_not_sound : chain.types.OwnIds ∧ chain.types.checkComplete = .ok () ∧
    chain.validate = .ok () ∧ listed ∈ chain.types.records ∧ listed.parameters = [] ∧
      ∃ u, ReflTransGen chain.Unfolds listed.shape u ∧ ¬ chain.Sound u :=
  ⟨Collection.ownIds_ofRecords _, by cbv, validate_chain, mem_records_chain, rfl, _, listed_unfolds,
    not_sound_map not_isKey_list⟩

/-- So some arguments do not settle what was left open. -/
theorem chain_not_settled : chain.types.OwnIds ∧ chain.validate = .ok () ∧
    listed ∈ chain.types.records ∧ listed.parameters = [] ∧
      ∃ t arguments, chain.Applies listed t arguments ∧ ¬ chain.Settles t arguments := by
  have own : chain.types.OwnIds := Collection.ownIds_ofRecords _
  refine ⟨own, validate_chain, mem_records_chain, rfl, ?_⟩
  by_contra h
  have settled : ∀ t arguments, chain.Applies listed t arguments → chain.Settles t arguments := by
    intro t arguments ha
    by_contra hs
    exact h ⟨t, arguments, ha, hs⟩
  have sound := (sound_unfolding_iff own validate_chain mem_records_chain rfl).2 settled _ listed_unfolds
  exact not_sound_map not_isKey_list sound

end Chain

end Scope

end ShapeExport
