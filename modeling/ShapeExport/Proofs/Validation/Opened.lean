import Mathlib
import ShapeExport.Proofs.Validation.Payload

/-!
# Payloads of internal tags, opened

A newtype struct is written as its field alone, and a reference as the body of its record. The check of
an internal tag follows references, and takes every struct for an object.

* `Scope.Opens` : one such layer of a shape is taken away;
* `Scope.EndsInObject`, `Scope.HoldsTag` : whatever is left in the end is an object, so that there is a
  place for the tag;
* `Scope.Follows` : the walk of the check along references;
* `Scope.PassedOver` : the shapes at which this walk ends without a look at what they are written as;
* `Scope.accepted_holdsTag_iff` : what is accepted has a place for the tag as far as such shapes have.
-/

namespace ShapeExport
open Relation

namespace Shape

/-- Shapes that are written as an object or as null, and enums, whose variants decide that. -/
def isObjectForm : Shape → Bool
  | map .. | enum .. | struct _ (.named ..) | struct _ .unit | tuple [] => true
  | _ => false

end Shape

namespace Scope

variable {scope : Scope} {path : Path} {s t u : Shape} {trail : List TypeKey}

/-! ## Opening -/

/-- A reference is opened to the body of its record, and a newtype struct to the type of its field. -/
inductive Opens (scope : Scope) : Shape → Shape → Prop
  | target {id : TypeId} {arguments : List Shape} {r : Record} :
      scope.types.resolve id.key = some r → Opens scope (.reference id arguments) (r.expand arguments)
  | newtype {name : String} {f : Field (Option String) Shape} :
      Opens scope (.struct name (.positional [f])) f.ty

/-- However far a shape is opened, what is left is an object or can be opened. -/
def EndsInObject (scope : Scope) (s : Shape) : Prop :=
  ∀ t, ReflTransGen scope.Opens s t → t.isObjectForm ∨ ∃ u, scope.Opens t u

theorem EndsInObject.opened (h : scope.EndsInObject s) (ho : ReflTransGen scope.Opens s t) :
    scope.EndsInObject t :=
  fun u hu => h u (ho.trans hu)

/-- A body with a payload was declared with this one field, and it ends in an object. -/
def HoldsTag (scope : Scope) (b : Body Shape) : Prop :=
  b.payloads ≠ [] → ∃ f, b = .positional [f] ∧ scope.EndsInObject f.ty

/-! ## The walk of the check -/

/-- The check of the first shape follows references to the second one, with these records on the way. -/
inductive Follows (scope : Scope) (s : Shape) : List TypeKey → Shape → Prop
  | start : Follows scope s [] s
  | target {trail : List TypeKey} {id : TypeId} {arguments : List Shape} {r : Record} :
      Follows scope s trail (.reference id arguments) → id.key ∉ trail →
      scope.types.resolve id.key = some r → Follows scope s (id.key :: trail) (r.expand arguments)

theorem Follows.meets (h : scope.Follows s trail t) : scope.Meets s trail t := by
  induction h with
  | start => exact .start
  | target _ hn hr ih => exact .target ih hn hr

theorem Follows.opens (h : scope.Follows s trail t) : ReflTransGen scope.Opens s t := by
  induction h with
  | start => exact .refl
  | target _ _ hr ih => exact ih.tail (.target hr)

/-- A record on the way was followed. -/
theorem Follows.of_mem {k : TypeKey} (h : scope.Follows s trail t) (hk : k ∈ trail) :
    ∃ trail' r arguments, scope.types.resolve k = some r ∧ scope.Follows s trail' (r.expand arguments) := by
  induction h with
  | start => cases hk
  | @target trail id arguments r hm hn hr ih =>
    rcases List.mem_cons.1 hk with rfl | hk
    · exact ⟨_, r, arguments, hr, .target hm hn hr⟩
    · exact ih hk

/-- The walk ends at a positional struct, at a type parameter, at a foreign shape, or at a generic record
that it was in before, where other arguments may lead elsewhere. -/
inductive PassedOver (scope : Scope) (s : Shape) : Shape → Prop
  | positional {trail : List TypeKey} {name : String} {fields : List (Field (Option String) Shape)} :
      scope.Follows s trail (.struct name (.positional fields)) →
      PassedOver scope s (.struct name (.positional fields))
  | placeholder {trail : List TypeKey} {name : String} :
      scope.Follows s trail (.placeholder name) → PassedOver scope s (.placeholder name)
  | foreign {trail : List TypeKey} {value : Foreign} :
      scope.Follows s trail (.foreign value) → PassedOver scope s (.foreign value)
  | again {trail : List TypeKey} {id : TypeId} {arguments : List Shape} {r : Record} :
      scope.Follows s trail (.reference id arguments) → id.key ∈ trail →
      scope.types.resolve id.key = some r → r.parameters ≠ [] →
      PassedOver scope s (.reference id arguments)

theorem PassedOver.opens (h : scope.PassedOver s t) : ReflTransGen scope.Opens s t := by
  cases h with
  | positional hf | placeholder hf | foreign hf | again hf => exact hf.opens

/-- Where the walk of an accepted payload ends there is an object, or the check passed over the shape. -/
theorem Follows.settled (h : scope.checkPayload [] path s = .ok ()) (hf : scope.Follows s trail t) :
    scope.PassedOver s t ∨ t.isObjectForm ∨ ∃ u, scope.Opens t u := by
  obtain ⟨path', hc⟩ := hf.meets.check h
  cases t with
  | map | enum => exact Or.inr (Or.inl rfl)
  | placeholder => exact Or.inl (.placeholder hf)
  | foreign => exact Or.inl (.foreign hf)
  | primitive | literal | list | nullable => simp [checkPayload] at hc
  | tuple elements =>
    cases elements with
    | nil => exact Or.inr (Or.inl rfl)
    | cons e es => simp [checkPayload] at hc
  | struct name body =>
    cases body with
    | unit | named => exact Or.inr (Or.inl rfl)
    | positional fields => exact Or.inl (.positional hf)
  | reference id arguments =>
    rcases checkPayload_reference.1 hc with hm | ⟨r, hr, -⟩
    · obtain ⟨-, r, -, hr, -⟩ := hf.of_mem hm
      exact Or.inr (Or.inr ⟨_, .target hr⟩)
    · exact Or.inr (Or.inr ⟨_, .target hr⟩)

/-- What a payload is opened to lies on the walk of the check, or behind a shape that it passed over. -/
theorem follows_or_passedOver (ho : ReflTransGen scope.Opens s t) :
    (∃ trail, scope.Follows s trail t) ∨ ∃ u, scope.PassedOver s u ∧ ReflTransGen scope.Opens u t := by
  induction ho with
  | refl => exact Or.inl ⟨[], .start⟩
  | @tail t t' _ hs ih =>
    rcases ih with ⟨trail, hf⟩ | ⟨u, hp, hu⟩
    · cases hs with
      | newtype => exact Or.inr ⟨_, .positional hf, .single .newtype⟩
      | @target id arguments r hr =>
        by_cases hk : id.key ∈ trail
        · by_cases hg : r.parameters = []
          · obtain ⟨trail', r', arguments', hr', hf'⟩ := hf.of_mem hk
            obtain rfl := Option.some.inj (hr.symm.trans hr')
            rw [Record.expand_of_not_generic hg] at hf' ⊢
            exact Or.inl ⟨trail', hf'⟩
          · exact Or.inr ⟨_, .again hf hk hr hg, .single (.target hr)⟩
        · exact Or.inl ⟨_, .target hf hk hr⟩
    · exact Or.inr ⟨u, hp, hu.tail hs⟩

/-- An accepted payload ends in an object exactly if all that the check passed over does. -/
theorem endsInObject_iff (h : scope.checkPayload [] path s = .ok ()) :
    scope.EndsInObject s ↔ ∀ u, scope.PassedOver s u → scope.EndsInObject u := by
  constructor
  · exact fun he u hp => he.opened hp.opens
  · intro hp t ho
    rcases follows_or_passedOver ho with ⟨trail, hf⟩ | ⟨u, hu, ht⟩
    · rcases hf.settled h with hu | ht
      · exact hp t hu t .refl
      · exact ht
    · exact hp u hu t ht

/-! ## Accepted enums -/

/-- In an accepted enum there is a place for the tag exactly if each variant with a payload was declared
with one field, and all that the check passed over ends in an object. -/
theorem accepted_holdsTag_iff {enum : String} {vs : List (Variant Shape)}
    (h : scope.checkTagged path enum vs = .ok ()) :
    (∀ v ∈ Variant.kept vs, scope.HoldsTag v.body) ↔
      ∀ v ∈ Variant.kept vs, v.body.payloads ≠ [] → ∃ f, v.body = .positional [f] ∧
        ∀ u, scope.PassedOver f.ty u → scope.EndsInObject u := by
  have checked := checkVariants_eq_ok.1 h
  refine forall₂_congr fun v hv => forall_congr' fun hp => exists_congr fun f => ?_
  refine and_congr_right fun hb => endsInObject_iff ((checked v hv).2 f.ty ?_)
  rw [hb] at hp ⊢
  cases hs : f.skip with
  | true => exact absurd (by simp [Body.payloads, Field.kept, hs]) hp
  | false => simp [Body.payloads, Field.kept, hs]

/-! ## Synonyms -/

namespace Synonym

def synonym : Record where
  id := ⟨⟨.static, 1⟩, "Synonym"⟩
  name := "Synonym"
  shape := .placeholder "T"
  parameters := ["T"]

def circle : Record where
  id := ⟨⟨.static, 2⟩, "Circle"⟩
  name := "Circle"
  shape := .struct "Circle" (.named none [{ name := "radius", ty := .primitive .f64 }])

def synonyms : Scope := { types := .ofRecords [synonym, circle] }

/-- A reference that stands for its argument. -/
def synonymOf (s : Shape) : Shape := .reference synonym.id [s]

def round : Shape := .reference circle.id []

/-- A variant that was declared with fields of these types, the first of which is kept. -/
def variant (name : String) (kept : Shape) (skipped : List Shape) : Variant Shape where
  name := name
  body := .positional ({ name := none, ty := kept } ::
    skipped.map fun t => { name := none, ty := t, skip := true })

theorem expand_synonym (s : Shape) : synonym.expand [s] = s := by
  simp [Record.expand, synonym, Shape.substitute_placeholder, Binding.ofLists]

theorem expand_circle : circle.expand [] = circle.shape :=
  Record.expand_of_not_generic rfl _

theorem follows_synonymOf_round (h : synonyms.Follows (synonymOf round) trail t) :
    trail = [] ∧ t = synonymOf round ∨ trail = [synonym.id.key] ∧ t = round ∨ t = circle.shape := by
  induction h with
  | start => exact Or.inl ⟨rfl, rfl⟩
  | @target trail id arguments r _ hn hr ih =>
    rcases ih with ⟨rfl, e⟩ | ⟨rfl, e⟩ | e
    · cases e
      obtain rfl : synonym = r := Option.some.inj hr
      exact Or.inr (Or.inl ⟨rfl, expand_synonym _⟩)
    · cases e
      obtain rfl : circle = r := Option.some.inj hr
      exact Or.inr (Or.inr expand_circle)
    · cases e

theorem accepted_holdsTag_circle :
    synonyms.checkTagged [] "Shape" [variant "Circle" (synonymOf round) []] = .ok () ∧
      ∀ v ∈ Variant.kept [variant "Circle" (synonymOf round) []], synonyms.HoldsTag v.body := by
  have accepted : synonyms.checkTagged [] "Shape" [variant "Circle" (synonymOf round) []] = .ok () := by
    cbv
  refine ⟨accepted, (accepted_holdsTag_iff accepted).2 fun v hv _ => ?_⟩
  obtain rfl := List.mem_singleton.1 hv
  refine ⟨_, rfl, fun u hu => ?_⟩
  -- The walk ends at a named struct, and comes to no record again.
  cases hu with
  | positional hf | placeholder hf | foreign hf =>
    rcases follows_synonymOf_round hf with ⟨-, e⟩ | ⟨-, e⟩ | e <;> cases e
  | again hf hk =>
    rcases follows_synonymOf_round hf with ⟨rfl, -⟩ | ⟨rfl, e⟩ | e
    · cases hk
    · cases e
      exact absurd hk (by decide)
    · cases e

theorem not_endsInObject_scalar {kind : Primitive}
    (h : ReflTransGen synonyms.Opens s (.primitive kind)) : ¬ synonyms.EndsInObject s := by
  intro he
  rcases he _ h with hf | ⟨u, hu⟩
  · cases hf
  · cases hu

/-- A newtype struct over a number, a synonym of a synonym of a number, and an object beside a skipped
field are accepted, and there is no place for the tag. -/
theorem accepted_without_object :
    (synonyms.checkTagged [] "Shape"
        [variant "Size" (.struct "Size" (.positional [{ name := none, ty := .primitive .f64 }])) []] = .ok () ∧
      ¬ synonyms.HoldsTag (variant "Size"
        (.struct "Size" (.positional [{ name := none, ty := .primitive .f64 }])) []).body) ∧
    (synonyms.checkTagged [] "Shape" [variant "Size" (synonymOf (synonymOf (.primitive .f64))) []] = .ok () ∧
      ¬ synonyms.HoldsTag (variant "Size" (synonymOf (synonymOf (.primitive .f64))) []).body) ∧
    (synonyms.checkTagged [] "Shape" [variant "Circle" round [.primitive .f64]] = .ok () ∧
      ¬ synonyms.HoldsTag (variant "Circle" round [.primitive .f64]).body) := by
  refine ⟨⟨by cbv, fun h => ?_⟩, ⟨by cbv, fun h => ?_⟩, ⟨by cbv, fun h => ?_⟩⟩
  · obtain ⟨f, e, he⟩ := h (List.cons_ne_nil _ _)
    cases e
    exact not_endsInObject_scalar (.single .newtype) he
  · obtain ⟨f, e, he⟩ := h (List.cons_ne_nil _ _)
    cases e
    have outer : synonyms.Opens (synonymOf (synonymOf (.primitive .f64)))
        (synonym.expand [synonymOf (.primitive .f64)]) := .target rfl
    have inner : synonyms.Opens (synonymOf (.primitive .f64)) (synonym.expand [.primitive .f64]) :=
      .target rfl
    rw [expand_synonym] at outer inner
    exact not_endsInObject_scalar (.head outer (.single inner)) he
  · obtain ⟨f, e, -⟩ := h (List.cons_ne_nil _ _)
    cases e

end Synonym

end Scope

end ShapeExport
