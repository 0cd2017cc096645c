import Mathlib.Algebra.Order.BigOperators.Group.List
import Mathlib.Algebra.Order.Ring.Nat
import ShapeExport.Proofs.Scope.Walk
import ShapeExport.Reachability

/-!
# Records that reach themselves

Whether references lead from a record back to it is decided by a search, which takes one of the ids that are left to
look at in each round.

* `Collection.LeadsTo` : references lead from a record to an id, by way of records that are found;
* `Collection.Round` : a round of the search, whichever id it takes;
* `Collection.Round.left_lt`, `Collection.length_le_left` : a round uses up one of finitely many references, so every
  search ends;
* `Collection.Round.open_iff`, `Collection.Round.closed` : a round neither loses a way to the goal nor makes one up;
* `Collection.reachesItself_exact` : the answer is right, and a search in any other order comes to it as well.
-/

namespace ShapeExport

/-- How many references the record of an entry has. -/
def Entry.referenceCount (e : Entry) : Nat := (e.record.map (·.referenced.length)).getD 0

namespace Collection
open Relation

/-! ## Ways along references -/

/-- References lead from a record to `goal`. Each id on the way, apart from the last, is that of a record which refers
to the next one. -/
inductive LeadsTo (c : Collection) (goal : TypeKey) : Record → Prop
  | direct {r : Record} : goal ∈ r.referenced → LeadsTo c goal r
  | through {r s : Record} {k : TypeKey} : k ∈ r.referenced → c.resolve k = some s → LeadsTo c goal s →
      LeadsTo c goal r

/-- An id is the goal, or its record leads there. -/
def ComesTo (c : Collection) (goal k : TypeKey) : Prop := k = goal ∨ ∃ s, c.resolve k = some s ∧ c.LeadsTo goal s

variable {c : Collection} {goal : TypeKey}

theorem leadsTo_iff {r : Record} : c.LeadsTo goal r ↔ ∃ k ∈ r.referenced, c.ComesTo goal k := by
  constructor
  · intro h
    cases h with
    | direct hg => exact ⟨goal, hg, Or.inl rfl⟩
    | through hk hs h => exact ⟨_, hk, Or.inr ⟨_, hs, h⟩⟩
  · rintro ⟨k, hk, rfl | ⟨s, hs, h⟩⟩
    · exact .direct hk
    · exact .through hk hs h

theorem not_comesTo_of_missing {k : TypeKey} (hk : k ≠ goal) (missing : c.resolve k = none) :
    ¬ c.ComesTo goal k := by
  rintro (rfl | ⟨s, hs, -⟩)
  · exact hk rfl
  · rw [missing] at hs
    cases hs

/-! ## Rounds of the search -/

/-- Where a search stands: the ids to look at, and those whose records were looked into. -/
structure Search where
  todo : List TypeKey
  expanded : List TypeKey

namespace Search

/-- The search for a way from a record. -/
def start (r : Record) : Search := ⟨r.referenced, []⟩

/-- How many references a search may still look at: the ids at hand, and those in records that it has not looked
into. -/
def left (c : Collection) (σ : Search) : Nat :=
  σ.todo.length + ((c.entries.filter (·.key ∉ σ.expanded)).map Entry.referenceCount).sum

/-- The goal can be come to from an id that is at hand or was looked into. -/
def Open (c : Collection) (goal : TypeKey) (σ : Search) : Prop :=
  ∃ k, (k ∈ σ.todo ∨ k ∈ σ.expanded) ∧ c.ComesTo goal k

/-- What the records that were looked into refer to is at hand, was looked into as well, or leads nowhere. -/
structure Closed (c : Collection) (goal : TypeKey) (σ : Search) : Prop where
  goal_not_mem : goal ∉ σ.expanded
  referenced : ∀ k ∈ σ.expanded, ∀ s, c.resolve k = some s → ∀ l ∈ s.referenced,
    l ∈ σ.todo ∨ l ∈ σ.expanded ∨ l ≠ goal ∧ c.resolve l = none

end Search

/-- A round takes an id that is not the goal, in whatever order. An id that was looked into before and one without a
record are passed over. -/
inductive Round (c : Collection) (goal : TypeKey) : Search → Search → Prop
  | pass {todo rest expanded : List TypeKey} {k : TypeKey} : todo.Perm (k :: rest) → k ≠ goal →
      k ∈ expanded ∨ c.resolve k = none → Round c goal ⟨todo, expanded⟩ ⟨rest, expanded⟩
  | expand {todo todo' rest expanded : List TypeKey} {k : TypeKey} {s : Record} : todo.Perm (k :: rest) → k ≠ goal →
      k ∉ expanded → c.resolve k = some s → todo'.Perm (s.referenced ++ rest) →
      Round c goal ⟨todo, expanded⟩ ⟨todo', k :: expanded⟩

abbrev Rounds (c : Collection) (goal : TypeKey) : Search → Search → Prop := ReflTransGen (c.Round goal)

variable {σ τ : Search}

/-! ## Every search ends -/

theorem sum_filter_add_le {α : Type} (f : α → Nat) {p : α → Bool} {l : List α} {a : α} (ha : a ∈ l) (hp : ¬ p a) :
    ((l.filter p).map f).sum + f a ≤ (l.map f).sum := by
  induction l with
  | nil => cases ha
  | cons b l ih =>
    rcases List.mem_cons.1 ha with rfl | ha
    · have rest := (List.filter_sublist.map f : ((l.filter p).map f).Sublist (l.map f)).sum_le_sum (by simp)
      rw [List.filter_cons_of_neg hp, List.map_cons, List.sum_cons]
      omega
    · have rest := ih ha
      by_cases hb : p b
      · rw [List.filter_cons_of_pos hb, List.map_cons, List.sum_cons, List.map_cons, List.sum_cons]
        omega
      · rw [List.filter_cons_of_neg hb, List.map_cons, List.sum_cons]
        omega

/-- A round uses up a reference. -/
theorem Round.left_lt (h : c.Round goal σ τ) : τ.left c < σ.left c := by
  cases h with
  | pass perm =>
    have length := perm.length_eq
    rw [List.length_cons] at length
    simp only [Search.left]
    omega
  | @expand todo todo' rest expanded k s perm _ new hs perm' =>
    have length := perm.length_eq
    have length' := perm'.length_eq
    rw [List.length_cons] at length
    rw [List.length_append] at length'
    obtain ⟨e, he, rfl, hr⟩ := exists_entry_of_resolve hs
    have count : e.referenceCount = s.referenced.length := by
      rw [Entry.referenceCount, hr]
      rfl
    have split : c.entries.filter (fun d => decide (d.key ∉ e.key :: expanded)) =
        (c.entries.filter fun d => decide (d.key ∉ expanded)).filter fun d => decide (d.key ≠ e.key) := by
      rw [List.filter_filter]
      refine List.filter_congr fun d _ => ?_
      simp
    have unopened : e ∈ c.entries.filter fun d => decide (d.key ∉ expanded) := List.mem_filter.2 ⟨he, by simpa using new⟩
    have fewer := sum_filter_add_le Entry.referenceCount (p := fun d => decide (d.key ≠ e.key)) unopened (by simp)
    simp only [Search.left, split]
    omega

/-- A search takes no more rounds than there are references left to look at. -/
theorem length_le_left {run : List Search} (h : (σ :: run).IsChain (c.Round goal)) : run.length ≤ σ.left c := by
  induction run generalizing σ with
  | nil => exact Nat.zero_le _
  | cons τ run ih =>
    obtain ⟨round, h⟩ := List.isChain_cons_cons.1 h
    exact (Nat.succ_le_succ (ih h)).trans round.left_lt

/-! ## Nothing is lost -/

/-- The goal can be come to after a round exactly if it could be before. -/
theorem Round.open_iff (h : c.Round goal σ τ) : τ.Open c goal ↔ σ.Open c goal := by
  cases h with
  | @pass todo rest expanded k perm hk known =>
    constructor
    · rintro ⟨l, hl, comes⟩
      exact ⟨l, hl.imp_left fun hl => perm.mem_iff.2 (List.mem_cons_of_mem k hl), comes⟩
    · rintro ⟨l, hl | hl, comes⟩
      · rcases List.mem_cons.1 (perm.mem_iff.1 hl) with rfl | hl
        · rcases known with hl | missing
          · exact ⟨l, Or.inr hl, comes⟩
          · exact absurd comes (not_comesTo_of_missing hk missing)
        · exact ⟨l, Or.inl hl, comes⟩
      · exact ⟨l, Or.inr hl, comes⟩
  | @expand todo todo' rest expanded k s perm hk new hs perm' =>
    constructor
    · rintro ⟨l, hl | hl, comes⟩
      · rcases List.mem_append.1 (perm'.mem_iff.1 hl) with hl | hl
        · exact ⟨k, Or.inl (perm.mem_iff.2 List.mem_cons_self), Or.inr ⟨s, hs, leadsTo_iff.2 ⟨l, hl, comes⟩⟩⟩
        · exact ⟨l, Or.inl (perm.mem_iff.2 (List.mem_cons_of_mem k hl)), comes⟩
      · rcases List.mem_cons.1 hl with rfl | hl
        · exact ⟨l, Or.inl (perm.mem_iff.2 List.mem_cons_self), comes⟩
        · exact ⟨l, Or.inr hl, comes⟩
    · rintro ⟨l, hl | hl, comes⟩
      · rcases List.mem_cons.1 (perm.mem_iff.1 hl) with rfl | hl
        · exact ⟨l, Or.inr List.mem_cons_self, comes⟩
        · exact ⟨l, Or.inl (perm'.mem_iff.2 (List.mem_append_right _ hl)), comes⟩
      · exact ⟨l, Or.inr (List.mem_cons_of_mem k hl), comes⟩

theorem Round.closed (h : c.Round goal σ τ) (closed : σ.Closed c goal) : τ.Closed c goal := by
  cases h with
  | @pass todo rest expanded k perm hk known =>
    refine ⟨closed.goal_not_mem, fun l hl s hs m hm => ?_⟩
    rcases closed.referenced l hl s hs m hm with hm | hm | hm
    · rcases List.mem_cons.1 (perm.mem_iff.1 hm) with rfl | hm
      · exact Or.inr (known.imp_right fun missing => ⟨hk, missing⟩)
      · exact Or.inl hm
    · exact Or.inr (Or.inl hm)
    · exact Or.inr (Or.inr hm)
  | @expand todo todo' rest expanded k s perm hk new hs perm' =>
    refine ⟨fun hg => ?_, fun l hl t ht m hm => ?_⟩
    · rcases List.mem_cons.1 hg with rfl | hg
      · exact hk rfl
      · exact closed.goal_not_mem hg
    · rcases List.mem_cons.1 hl with rfl | hl
      · obtain rfl := Option.some.inj (hs.symm.trans ht)
        exact Or.inl (perm'.mem_iff.2 (List.mem_append_left _ hm))
      · rcases closed.referenced l hl t ht m hm with hm | hm | hm
        · rcases List.mem_cons.1 (perm.mem_iff.1 hm) with rfl | hm
          · exact Or.inr (Or.inl List.mem_cons_self)
          · exact Or.inl (perm'.mem_iff.2 (List.mem_append_right _ hm))
        · exact Or.inr (Or.inl (List.mem_cons_of_mem k hm))
        · exact Or.inr (Or.inr hm)

namespace Search

theorem closed_start (r : Record) : (start r).Closed c goal :=
  ⟨List.not_mem_nil, List.forall_mem_nil _⟩

theorem open_start {r : Record} : (start r).Open c goal ↔ c.LeadsTo goal r := by
  rw [leadsTo_iff]
  exact exists_congr fun k => and_congr_left' (or_iff_left List.not_mem_nil)

theorem open_of_mem (h : goal ∈ σ.todo) : σ.Open c goal := ⟨goal, Or.inl h, Or.inl rfl⟩

/-- When nothing is left to look at, the records that were looked into refer to each other only. -/
theorem Closed.not_open (closed : σ.Closed c goal) (done : σ.todo = []) : ¬ σ.Open c goal := by
  have none : ∀ s, c.LeadsTo goal s → ∀ k ∈ σ.expanded, c.resolve k ≠ some s := by
    intro s h
    induction h with
    | direct hg =>
      intro k hk hs
      rcases closed.referenced k hk _ hs goal hg with hg | hg | hg
      · rw [done] at hg
        cases hg
      · exact closed.goal_not_mem hg
      · exact hg.1 rfl
    | @through _ t l hl ht _ ih =>
      intro k hk hs
      rcases closed.referenced k hk _ hs l hl with hl | hl | hl
      · rw [done] at hl
        cases hl
      · exact ih l hl ht
      · rw [hl.2] at ht
        cases ht
  rintro ⟨k, hk | hk, rfl | ⟨s, hs, h⟩⟩
  · rw [done] at hk
    cases hk
  · rw [done] at hk
    cases hk
  · exact closed.goal_not_mem hk
  · exact none s h k hk hs

end Search

/-! ## Runs -/

theorem Rounds.open_iff (h : c.Rounds goal σ τ) : τ.Open c goal ↔ σ.Open c goal := by
  induction h with
  | refl => exact Iff.rfl
  | tail _ round ih => exact round.open_iff.trans ih

theorem Rounds.closed (h : c.Rounds goal σ τ) (closed : σ.Closed c goal) : τ.Closed c goal := by
  induction h with
  | refl => exact closed
  | tail _ round ih => exact round.closed ih

/-- The search goes through rounds until it comes to the goal or has nothing left to look at. -/
theorem exists_rounds (expanded todo : List TypeKey) : ∃ τ, c.Rounds goal ⟨todo, expanded⟩ τ ∧
    (c.reaches goal expanded todo = true ∧ goal ∈ τ.todo ∨ c.reaches goal expanded todo = false ∧ τ.todo = []) := by
  fun_induction Collection.reaches c goal expanded todo with
  | case1 expanded => exact ⟨_, .refl, Or.inr ⟨rfl, rfl⟩⟩
  | case2 expanded rest => exact ⟨_, .refl, Or.inl ⟨rfl, List.mem_cons_self⟩⟩
  | case3 expanded k rest hk known ih =>
    obtain ⟨τ, h, found⟩ := ih
    exact ⟨τ, h.head (.pass (.refl _) hk (Or.inl known)), found⟩
  | case4 expanded k rest hk new missing ih =>
    obtain ⟨τ, h, found⟩ := ih
    exact ⟨τ, h.head (.pass (.refl _) hk (Or.inr missing)), found⟩
  | case5 expanded k rest hk new s hs ih =>
    obtain ⟨τ, h, found⟩ := ih
    exact ⟨τ, h.head (.expand (.refl _) hk new hs (.refl _)), found⟩

theorem reachesItself_iff {r : Record} : c.reachesItself r = true ↔ c.LeadsTo r.id.key r := by
  obtain ⟨τ, h, ⟨found, hg⟩ | ⟨missed, done⟩⟩ := @exists_rounds c r.id.key [] r.referenced
  · have opened := h.open_iff.1 (Search.open_of_mem hg)
    exact iff_of_true found (Search.open_start.1 opened)
  · have closed := h.closed (Search.closed_start r)
    refine iff_of_false (Bool.eq_false_iff.1 missed) fun leads => ?_
    exact closed.not_open done (h.open_iff.2 (Search.open_start.2 leads))

/-- **Recursion is detected exactly.** A record reaches itself if and only if references lead from its body back to its
id. A search takes at most as many rounds as there are references in the record and in the collection; and whatever the
order in which it takes the ids, it meets the goal only if the answer is yes, and runs out of ids only if it is no. -/
theorem reachesItself_exact (c : Collection) (r : Record) :
    (c.reachesItself r = true ↔ c.LeadsTo r.id.key r) ∧
    (∀ run, (Search.start r :: run).IsChain (c.Round r.id.key) →
      run.length ≤ r.referenced.length + (c.entries.map Entry.referenceCount).sum) ∧
    ∀ τ, c.Rounds r.id.key (Search.start r) τ →
      (r.id.key ∈ τ.todo → c.reachesItself r = true) ∧ (τ.todo = [] → c.reachesItself r = false) := by
  refine ⟨reachesItself_iff, fun run h => ?_, fun τ h => ⟨fun hg => ?_, fun done => ?_⟩⟩
  · have rounds := length_le_left h
    rw [Search.left, Search.start, List.filter_eq_self.2 (by simp)] at rounds
    exact rounds
  · exact reachesItself_iff.2 (Search.open_start.1 (h.open_iff.1 (Search.open_of_mem hg)))
  · rw [Bool.eq_false_iff]
    intro reaches
    have opened := h.open_iff.2 (Search.open_start.2 (reachesItself_iff.1 reaches))
    exact (h.closed (Search.closed_start r)).not_open done opened

end Collection

end ShapeExport
