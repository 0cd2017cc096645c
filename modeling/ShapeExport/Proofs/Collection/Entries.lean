import ShapeExport.Collection.Basic

/-!
# Entries after an operation

What an insertion, a mark and a removal do to the view of a collection, to the ids in it and to its
finished records.
-/

namespace ShapeExport.Collection

theorem contains_eq_isSome (c : Collection) (k : TypeKey) : c.contains k = (c.find? k).isSome := rfl

theorem contains_of_find? {c : Collection} {k : TypeKey} {o : Option Record}
    (h : c.find? k = some o) : c.contains k := by
  rw [contains_eq_isSome, h]
  rfl

theorem find?_of_not_contains {c : Collection} {k : TypeKey} (h : ¬ c.contains k) :
    c.find? k = none := by
  rw [contains_eq_isSome] at h
  simpa using h

theorem resolve_eq_some_iff {c : Collection} {k : TypeKey} {r : Record} :
    c.resolve k = some r ↔ c.find? k = some (some r) := by
  unfold resolve
  cases c.find? k with
  | none => simp
  | some o => simp

theorem isInProgress_iff {c : Collection} {k : TypeKey} : c.isInProgress k ↔ c.find? k = some none := by
  unfold isInProgress
  cases c.find? k with
  | none => simp
  | some o => cases o <;> simp

theorem find?_insert (c : Collection) (id : TypeId) (r : Record) (k : TypeKey) :
    (c.insert id r).find? k = if k = id.key then some (some r) else c.find? k := find?_set c id _ k

theorem find?_mark (c : Collection) (id : TypeId) (k : TypeKey) :
    (c.mark id).find? k = if k = id.key then some none else c.find? k := find?_set c id _ k

theorem contains_insert {c : Collection} {id : TypeId} {r : Record} {k : TypeKey} :
    (c.insert id r).contains k ↔ k = id.key ∨ c.contains k := by
  rw [contains_eq_isSome, contains_eq_isSome, find?_insert]
  split
  · next h => simp [h]
  · next h => simp [h]

theorem contains_mark {c : Collection} {id : TypeId} {k : TypeKey} :
    (c.mark id).contains k ↔ k = id.key ∨ c.contains k := by
  rw [contains_eq_isSome, contains_eq_isSome, find?_mark]
  split
  · next h => simp [h]
  · next h => simp [h]

theorem contains_erase {c : Collection} {k k' : TypeKey} :
    (c.erase k).contains k' ↔ k' ≠ k ∧ c.contains k' := by
  rw [contains_eq_isSome, contains_eq_isSome, find?_erase]
  split
  · next h => simp [h]
  · next h => simp [h]

theorem resolve_insert (c : Collection) (id : TypeId) (r : Record) (k : TypeKey) :
    (c.insert id r).resolve k = if k = id.key then some r else c.resolve k := by
  rw [resolve, find?_insert]
  split <;> rfl

theorem resolve_mark (c : Collection) (id : TypeId) (k : TypeKey) :
    (c.mark id).resolve k = if k = id.key then none else c.resolve k := by
  rw [resolve, find?_mark]
  split <;> rfl

theorem resolve_erase (c : Collection) (k k' : TypeKey) :
    (c.erase k).resolve k' = if k' = k then none else c.resolve k' := by
  rw [resolve, find?_erase]
  split <;> rfl

end ShapeExport.Collection
