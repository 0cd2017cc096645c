import Mathlib.Data.List.Nodup
import ShapeExport.OrderedMap

/-!
# Maps with distinct keys

* `OrderedMap.insertAll_of_nodup` : values of distinct keys are set one behind another;
* `mem_of_lookup`, `OrderedMap.lookup_of_mem`, `OrderedMap.lookup_of_perm` : each value is found under its key, wherever
  it stands;
* `OrderedMap.lookup_map` : looking up after all values were mapped;
* `OrderedMap.nodup_insertAll`, `OrderedMap.lookup_insert`, `OrderedMap.lookup_insertAll`,
  `OrderedMap.exists_lookup_insertAll` : setting values keeps keys distinct, and what is found afterwards;
* `OrderedMap.forall_mem_insertAll` : what holds of all entries.
-/

namespace ShapeExport

/-- Among distinct keys each value is found under its key. -/
theorem lookup_of_mem_nodup {κ α : Type} [BEq κ] [LawfulBEq κ] {l : List (κ × α)} {key : κ} {value : α}
    (h : (l.map (·.1)).Nodup) (hm : (key, value) ∈ l) : l.lookup key = some value := by
  induction l with
  | nil => cases hm
  | cons p l ih =>
    rw [List.map_cons, List.nodup_cons] at h
    rw [List.lookup_cons]
    rcases List.mem_cons.1 hm with rfl | hm
    · rw [beq_self_eq_true]
    · have hk : key ≠ p.1 := by
        rintro rfl
        exact h.1 (List.mem_map.2 ⟨_, hm, rfl⟩)
      rw [beq_false_of_ne hk]
      exact ih h.2 hm

theorem mem_of_lookup {κ α : Type} [BEq κ] [LawfulBEq κ] {l : List (κ × α)} {key : κ} {value : α}
    (h : l.lookup key = some value) : (key, value) ∈ l := by
  obtain ⟨front, back, rfl, -⟩ := List.lookup_eq_some_iff.1 h
  exact List.mem_append_right _ List.mem_cons_self

namespace OrderedMap

variable {α κ : Type} [DecidableEq κ]

theorem insert_of_not_mem {m : OrderedMap α κ} {key : κ} (h : key ∉ m.keys) (value : α) :
    m.insert key value = m ++ [(key, value)] := by
  have hn : ¬ m.any (·.1 == key) = true := by
    intro ha
    obtain ⟨p, hp, hk⟩ := List.any_eq_true.1 ha
    exact h (List.mem_map.2 ⟨p, hp, by simpa using hk⟩)
  rw [insert, if_neg hn]

theorem insertAll_of_nodup {m more : OrderedMap α κ} (h : (m ++ more : OrderedMap α κ).keys.Nodup) :
    m.insertAll more = m ++ more := by
  unfold insertAll
  induction more generalizing m with
  | nil => rw [List.append_nil, List.foldl_nil]
  | cons p more ih =>
    have hp : p.1 ∉ m.keys := by
      unfold keys at h ⊢
      rw [List.map_append, List.map_cons, List.nodup_append] at h
      intro hm
      exact h.2.2 p.1 hm p.1 List.mem_cons_self rfl
    rw [List.foldl_cons, insert_of_not_mem hp, ih]
    · rw [List.append_assoc, List.singleton_append]
    · rw [List.append_assoc, List.singleton_append]
      exact h

theorem lookup_of_mem {m : OrderedMap α κ} {key : κ} {value : α} (h : m.keys.Nodup)
    (hm : (key, value) ∈ m) : m.lookup key = some value :=
  lookup_of_mem_nodup h hm

/-- What is found does not depend on the order. -/
theorem lookup_of_perm {m m' : OrderedMap α κ} (perm : m.Perm m') (h : m.keys.Nodup) (key : κ) :
    m.lookup key = m'.lookup key := by
  have h' : m'.keys.Nodup := (perm.map _).nodup_iff.1 h
  ext value
  constructor
  · exact fun hv => lookup_of_mem h' (perm.mem_iff.1 (mem_of_lookup hv))
  · exact fun hv => lookup_of_mem h (perm.mem_iff.2 (mem_of_lookup hv))

/-- A value that was mapped is found where the value was. -/
theorem lookup_map {β : Type} (m : OrderedMap α κ) (g : α → β) (key : κ) :
    (m.map fun p => (p.1, g p.2)).lookup key = (m.lookup key).map g := by
  induction m with
  | nil => rfl
  | cons p m ih =>
    rw [List.map_cons, List.lookup_cons, List.lookup_cons, ih]
    cases key == p.1 <;> rfl

/-! ## Setting values -/

theorem keys_set (m : OrderedMap α κ) (key : κ) (value : α) :
    keys (m.map fun p => if p.1 == key then (p.1, value) else p) = m.keys := by
  unfold keys
  rw [List.map_map]
  congr 1
  funext p
  simp only [Function.comp]
  split <;> rfl

theorem set_of_not_mem {m : OrderedMap α κ} {key : κ} (h : key ∉ m.keys) (value : α) :
    (m.map fun p => if p.1 == key then (p.1, value) else p) = m := by
  refine (List.map_congr_left fun p hp => if_neg fun e => h ?_).trans m.map_id
  exact List.mem_map.2 ⟨p, hp, eq_of_beq e⟩

theorem insert_of_mem {m : OrderedMap α κ} {key : κ} (h : key ∈ m.keys) (value : α) :
    m.insert key value = m.map fun p => if p.1 == key then (p.1, value) else p := by
  obtain ⟨p, hp, rfl⟩ := List.mem_map.1 h
  exact if_pos (List.any_eq_true.2 ⟨p, hp, beq_self_eq_true p.1⟩)

theorem nodup_insert {m : OrderedMap α κ} (h : m.keys.Nodup) (key : κ) (value : α) :
    (m.insert key value).keys.Nodup := by
  by_cases hk : key ∈ m.keys
  · rw [insert_of_mem hk, keys_set]
    exact h
  · rw [insert_of_not_mem hk]
    unfold keys at h hk ⊢
    rw [List.map_append, List.map_singleton]
    exact List.nodup_append'.2 ⟨h, List.nodup_singleton _, List.disjoint_singleton.2 hk⟩

theorem nodup_insertAll {m : OrderedMap α κ} (h : m.keys.Nodup) (more : OrderedMap α κ) :
    (m.insertAll more).keys.Nodup := by
  unfold insertAll
  induction more generalizing m with
  | nil => exact h
  | cons p more ih => exact ih (nodup_insert h p.1 p.2)

/-- What holds of the entries and of one that is set holds of the entries afterwards. -/
theorem forall_mem_insert {P : κ × α → Prop} {m : OrderedMap α κ} {key : κ} {value : α} (h : ∀ p ∈ m, P p)
    (hv : P (key, value)) : ∀ p ∈ m.insert key value, P p := by
  unfold insert
  split
  · refine List.forall_mem_map.2 fun p hp => ?_
    split
    · next e =>
      rw [eq_of_beq e]
      exact hv
    · exact h p hp
  · exact List.forall_mem_append.2 ⟨h, List.forall_mem_singleton.2 hv⟩

theorem forall_mem_insertAll {P : κ × α → Prop} {m more : OrderedMap α κ} (h : ∀ p ∈ m, P p)
    (hm : ∀ p ∈ more, P p) : ∀ p ∈ m.insertAll more, P p := by
  unfold insertAll
  induction more generalizing m with
  | nil => exact h
  | cons q more ih =>
    rw [List.forall_mem_cons] at hm
    exact ih (forall_mem_insert h hm.1) hm.2

theorem mem_keys_insertAll {m more : OrderedMap α κ} {key : κ} :
    key ∈ (m.insertAll more).keys ↔ key ∈ m.keys ∨ key ∈ more.keys := by
  unfold insertAll
  induction more generalizing m with
  | nil => simp [keys]
  | cons p more ih =>
    rw [List.foldl_cons, ih, mem_keys_insert, or_assoc]
    simp [keys]

theorem lookup_eq_none {m : OrderedMap α κ} {key : κ} : m.lookup key = none ↔ key ∉ m.keys := by
  rw [List.lookup_eq_none_iff, keys, List.mem_map]
  constructor
  · rintro h ⟨p, hp, rfl⟩
    simpa using h p hp
  · exact fun h p hp => bne_iff_ne.2 fun e => h ⟨p, hp, e.symm⟩

theorem lookup_set (m : OrderedMap α κ) {key k : κ} (value : α) :
    List.lookup k (m.map fun p => if p.1 == key then (p.1, value) else p) =
      if k = key then (m.lookup key).map fun _ => value else m.lookup k := by
  induction m with
  | nil =>
    show none = if k = key then none else none
    rw [ite_self]
  | cons p m ih =>
    rw [List.map_cons]
    by_cases hp : p.1 = key
    · rw [if_pos (by simp [hp]), List.lookup_cons, ih]
      by_cases hk : k = p.1
      · rw [hk, if_pos hp, ← hp, List.lookup_cons_self, beq_self_eq_true, if_pos rfl]
        rfl
      · rw [← hp, if_neg hk, if_neg hk, List.lookup_cons, beq_false_of_ne hk]
    · rw [if_neg (by simp [hp]), List.lookup_cons, ih]
      by_cases hk : k = key
      · rw [if_pos hk, if_pos hk, hk, List.lookup_cons, beq_false_of_ne (Ne.symm hp)]
      · rw [if_neg hk, if_neg hk, List.lookup_cons]

theorem lookup_insert (m : OrderedMap α κ) (key k : κ) (value : α) :
    (m.insert key value).lookup k = if k = key then some value else m.lookup k := by
  by_cases hm : key ∈ m.keys
  · obtain ⟨v, hv⟩ := Option.ne_none_iff_exists'.1 fun hn => lookup_eq_none.1 hn hm
    rw [insert_of_mem hm, lookup_set, hv, Option.map_some]
  · rw [insert_of_not_mem hm, List.lookup_append]
    by_cases hk : k = key
    · subst hk
      simp [lookup_eq_none.2 hm]
    · simp [hk, List.lookup_cons, beq_false_of_ne hk]

theorem lookup_insertAll_of_not_mem {m more : OrderedMap α κ} {key : κ} (h : key ∉ more.keys) :
    (m.insertAll more).lookup key = m.lookup key := by
  unfold insertAll
  induction more generalizing m with
  | nil => rfl
  | cons p more ih =>
    obtain ⟨hp, h⟩ : key ≠ p.1 ∧ key ∉ more.map (·.1) := by simpa [keys] using h
    rw [List.foldl_cons, ih h, lookup_insert, if_neg hp]

/-- Of several values with one key, the last one is found. -/
theorem exists_lookup_insertAll {m more : OrderedMap α κ} {key : κ} (h : key ∈ more.keys) :
    ∃ value, (key, value) ∈ more ∧ (m.insertAll more).lookup key = some value := by
  induction more generalizing m with
  | nil => cases h
  | cons p more ih =>
    by_cases hk : key ∈ more.map (·.1)
    · obtain ⟨value, hv, found⟩ := ih hk (m := m.insert p.1 p.2)
      exact ⟨value, List.mem_cons_of_mem _ hv, found⟩
    · obtain rfl : key = p.1 := (List.mem_cons.1 h).resolve_right hk
      refine ⟨p.2, List.mem_cons_self, ?_⟩
      have found : ((m.insert p.1 p.2).insertAll more).lookup p.1 = some p.2 := by
        rw [lookup_insertAll_of_not_mem hk, lookup_insert, if_pos rfl]
      exact found

theorem lookup_insertAll {m more : OrderedMap α κ} (h : more.keys.Nodup) (k : κ) :
    (m.insertAll more).lookup k = (more.lookup k).or (m.lookup k) := by
  unfold insertAll
  induction more generalizing m with
  | nil => rfl
  | cons p more ih =>
    obtain ⟨hp, h⟩ := List.nodup_cons.1 h
    rw [List.foldl_cons, ih h, lookup_insert, List.lookup_cons]
    by_cases hk : k = p.1
    · subst hk
      have none : more.lookup p.1 = none := lookup_eq_none.2 hp
      simp [none]
    · simp [hk, beq_false_of_ne hk]

end OrderedMap

end ShapeExport
