import Mathlib.Data.List.Perm.Subperm
import Mathlib.Data.Set.Finite.Lattice
import Mathlib.Data.Set.Finite.Lemmas
import ShapeExport.Proofs.Scope.Unfolding

/-!
# Recursions that follow references

The checks of keys and of payloads and the renderer of schemas follow references into records, and keep the keys of
the records that they have entered. Arguments grow on the way, so the size of a shape bounds nothing: what bounds a
recursion is, first, the records that it has not entered and then the size of the shape.

* `Walk` : how a recursion goes on from a shape;
* `Walk.Step`, `Walk.Leads` : one step of a walk, and any number of them;
* `Walk.Bounded`, `Walk.bounded` : every walk ends, and on each of its ways it enters a record at most once;
* `Walk.Runs` : a recursion runs along a walk, which is said of one turn of it, with the calls in it left open;
* `Walk.Runs.exists_turns` : so it is done after finitely many turns;
* `Walk.Runs.congr` : two recursions whose turns are the same return the same.
-/

namespace ShapeExport
open Relation

/-- Where each member is followed by finitely many, and no way from a member is endless, the ways from there are of
bounded length. -/
theorem exists_length_chain_le {α : Type} {r : α → α → Prop} (finite : ∀ x, {y | r x y}.Finite) {x : α}
    (acc : Acc (fun y x => r x y) x) : ∃ n, ∀ way, (x :: way).IsChain r → way.length ≤ n := by
  induction acc with
  | intro x _ ih =>
    have : Nonempty α := ⟨x⟩
    choose! longest bounds using ih
    obtain ⟨z, hz⟩ := Set.exists_upper_bound_image {y | r x y} longest (finite x)
    refine ⟨longest z + 1, fun way h => ?_⟩
    cases way with
    | nil => exact Nat.zero_le _
    | cons y way =>
      obtain ⟨hy, h⟩ := List.isChain_cons_cons.1 h
      exact Nat.succ_le_succ ((bounds y hy way h).trans (hz y hy))

theorem Collection.exists_entry_of_resolve {types : Collection} {k : TypeKey} {r : Record}
    (h : types.resolve k = some r) : ∃ e ∈ types.entries, e.key = k ∧ e.record = some r := by
  have found := Option.join_eq_some_iff.1 h
  obtain ⟨e, he, hr⟩ := Option.map_eq_some_iff.1 found
  have key : e.key = k := by simpa using List.find?_some he
  exact ⟨e, List.mem_of_find?_eq_some he, key, hr⟩

/-- How a recursion goes on: from a shape to some of its children, and from a reference to the body of its record, if
it enters that record with these arguments. -/
structure Walk where
  parts : Shape → List Shape
  enters : Record → List Shape → Prop
  mem_children : ∀ {s t : Shape}, t ∈ parts s → t ∈ s.children

namespace Walk

/-- A shape that a walk has come to, and the records entered before. -/
structure Spot where
  entered : List TypeKey
  shape : Shape

/-- A record is not entered again on the way. -/
inductive Step (w : Walk) (types : Collection) : Spot → Spot → Prop
  | part {entered : List TypeKey} {s t : Shape} : t ∈ w.parts s → Step w types ⟨entered, s⟩ ⟨entered, t⟩
  | enter {entered : List TypeKey} {id : TypeId} {arguments : List Shape} {r : Record} :
      types.resolve id.key = some r → w.enters r arguments → id.key ∉ entered →
      Step w types ⟨entered, .reference id arguments⟩ ⟨id.key :: entered, r.expand arguments⟩

abbrev Leads (w : Walk) (types : Collection) : Spot → Spot → Prop := ReflTransGen (w.Step types)

/-- The rank of a spot: the number of records that are left to enter, then the size of the shape. -/
noncomputable def rank (types : Collection) (x : Spot) : Nat × Nat := (types.unseen x.entered, sizeOf x.shape)

variable {w : Walk} {types : Collection} {x y : Spot}

/-! ## Steps -/

/-- A step enters a record that was not entered, or goes on to a smaller shape. -/
theorem Step.rank_lt (h : w.Step types x y) : Prod.Lex (· < ·) (· < ·) (rank types y) (rank types x) := by
  cases h with
  | part ht => exact .right _ (Shape.sizeOf_child_lt (w.mem_children ht))
  | enter hr _ hn => exact .left _ _ (Collection.unseen_cons_lt hr hn)

theorem acc_step (x : Spot) : Acc (fun y x => w.Step types x y) x := by
  have ranked : WellFounded (InvImage (Prod.Lex (· < ·) (· < ·)) (rank types)) :=
    InvImage.wf _ (Prod.lex Nat.lt_wfRel Nat.lt_wfRel).wf
  exact (Subrelation.wf Step.rank_lt ranked).apply x

/-- There are finitely many steps from a spot: one for each part, and one into a record. -/
theorem finite_step (x : Spot) : {y | w.Step types x y}.Finite := by
  have part : {y : Spot | ∃ t ∈ w.parts x.shape, y = ⟨x.entered, t⟩}.Finite := by
    refine ((w.parts x.shape).finite_toSet.image (Spot.mk x.entered)).subset ?_
    rintro y ⟨t, ht, rfl⟩
    exact ⟨t, ht, rfl⟩
  have enter : {y : Spot | ∃ id arguments r, x.shape = .reference id arguments ∧ types.resolve id.key = some r ∧
      y = ⟨id.key :: x.entered, r.expand arguments⟩}.Finite := by
    refine Set.Subsingleton.finite ?_
    rintro y ⟨id, arguments, r, hs, hr, rfl⟩ y' ⟨id', arguments', r', hs', hr', rfl⟩
    obtain ⟨rfl, rfl⟩ := Shape.reference.inj (hs.symm.trans hs')
    obtain rfl := Option.some.inj (hr.symm.trans hr')
    rfl
  refine (part.union enter).subset ?_
  rintro y h
  cases h with
  | part ht => exact Or.inl ⟨_, ht, rfl⟩
  | enter hr _ _ => exact Or.inr ⟨_, _, _, rfl, hr, rfl⟩

/-! ## Ways -/

/-- What is bounded of a walk: the number of spots, the length of the ways, and the records entered on each of them. -/
structure Bounded (w : Walk) (types : Collection) (x : Spot) : Prop where
  spots : {y | w.Leads types x y}.Finite
  ways : ∃ n, ∀ way, (x :: way).IsChain (w.Step types) → way.length ≤ n
  once : ∀ y, w.Leads types x y → ∃ keys, y.entered = keys ++ x.entered ∧ keys.Nodup ∧ keys.Disjoint x.entered ∧
    keys.length ≤ types.size

theorem finite_leads (x : Spot) : {y | w.Leads types x y}.Finite := by
  have acc : Acc (fun y x => w.Step types x y) x := acc_step x
  induction acc with
  | intro x _ ih =>
    refine (((finite_step x).biUnion ih).insert x).subset fun y h => ?_
    rcases h.cases_head with rfl | ⟨z, hz, h⟩
    · exact Set.mem_insert x _
    · exact Set.mem_insert_of_mem _ (Set.mem_biUnion hz h)

/-- The records entered on a way are in the collection. -/
theorem Leads.entered (h : w.Leads types x y) : ∃ keys, y.entered = keys ++ x.entered ∧ keys.Nodup ∧
    keys.Disjoint x.entered ∧ ∀ k ∈ keys, ∃ r, types.resolve k = some r := by
  induction h with
  | refl => exact ⟨[], rfl, List.nodup_nil, List.disjoint_nil_left _, List.forall_mem_nil _⟩
  | tail _ step ih =>
    obtain ⟨keys, he, nodup, disjoint, resolved⟩ := ih
    cases step with
    | part => exact ⟨keys, he, nodup, disjoint, resolved⟩
    | @enter _ id _ r hr _ hn =>
      subst he
      rw [List.mem_append, not_or] at hn
      exact ⟨id.key :: keys, rfl, List.nodup_cons.2 ⟨hn.1, nodup⟩, List.disjoint_cons_left.2 ⟨hn.2, disjoint⟩,
        List.forall_mem_cons.2 ⟨⟨r, hr⟩, resolved⟩⟩

/-- Different keys of records are at most as many as there are records. -/
theorem length_le_size {keys : List TypeKey} (nodup : keys.Nodup)
    (resolved : ∀ k ∈ keys, ∃ r, types.resolve k = some r) : keys.length ≤ types.size := by
  have sub : keys ⊆ (types.entries.filter (·.record.isSome)).map Entry.key := by
    intro k hk
    obtain ⟨r, hr⟩ := resolved k hk
    obtain ⟨e, he, rfl, record⟩ := Collection.exists_entry_of_resolve hr
    exact List.mem_map.2 ⟨e, List.mem_filter.2 ⟨he, Option.isSome_iff_exists.2 ⟨r, record⟩⟩, rfl⟩
  rw [Collection.size, ← List.length_map Entry.key]
  exact (nodup.subperm sub).length_le

/-- **Walks are bounded.** -/
theorem bounded (w : Walk) (types : Collection) (x : Spot) : w.Bounded types x where
  spots := finite_leads x
  ways := exists_length_chain_le finite_step (acc_step x)
  once y h := by
    obtain ⟨keys, he, nodup, disjoint, resolved⟩ := h.entered
    exact ⟨keys, he, nodup, disjoint, length_le_size nodup resolved⟩

/-! ## Recursions along a walk -/

/-- A recursion runs along a walk. Here `turn answer x` is what it does at one spot, where `answer` returns what the
calls in it return: the recursion is such a turn whose calls are its own, and these go one step on. -/
structure Runs {β : Type} (w : Walk) (types : Collection) (turn : (Spot → β) → Spot → β) (f : Spot → β) : Prop where
  equation : ∀ x, f x = turn f x
  calls : ∀ {x g h}, (∀ y, w.Step types x y → g y = h y) → turn g x = turn h x

namespace Runs

variable {β : Type} {turn : (Spot → β) → Spot → β} {f : Spot → β}

/-- With more turns than the longest way from a spot has steps, no call is left to answer. -/
theorem turns (h : w.Runs types turn f) {n : Nat} (short : ∀ way, (x :: way).IsChain (w.Step types) → way.length < n)
    (answer : Spot → β) : turn^[n] answer x = f x := by
  induction n generalizing x with
  | zero => exact absurd (short [] (List.isChain_singleton x)) (Nat.not_lt_zero _)
  | succ n ih =>
    rw [Function.iterate_succ_apply', h.equation x]
    apply h.calls
    intro y step
    apply ih
    intro way chain
    exact Nat.lt_of_succ_lt_succ (short (y :: way) (chain.cons_cons step))

/-- A spot, and all that it calls, is done after finitely many turns. -/
theorem exists_turns (h : w.Runs types turn f) (x : Spot) : ∃ n, ∀ answer, turn^[n] answer x = f x ∧
    ∀ y, w.Step types x y → turn^[n] answer y = f y := by
  obtain ⟨n, longest⟩ := exists_length_chain_le (r := w.Step types) finite_step (acc_step x)
  refine ⟨n + 1, fun answer => ⟨?_, fun y step => ?_⟩⟩
  · exact h.turns (fun way chain => Nat.lt_succ_of_le (longest way chain)) answer
  · apply h.turns
    intro way chain
    have longer := longest (y :: way) (chain.cons_cons step)
    rw [List.length_cons] at longer
    omega

/-- Recursions whose turns are the same return the same. -/
theorem congr (h : w.Runs types turn f) {turn' : (Spot → β) → Spot → β} {f' : Spot → β}
    (equation : ∀ x, f' x = turn' f' x) (same : ∀ g x, turn g x = turn' g x) : f = f' := by
  funext x
  have acc : Acc (fun y x => w.Step types x y) x := acc_step x
  induction acc with
  | intro x _ ih =>
    calc f x = turn f x := h.equation x
      _ = turn f' x := h.calls ih
      _ = turn' f' x := same f' x
      _ = f' x := (equation x).symm

end Runs

end Walk

end ShapeExport
