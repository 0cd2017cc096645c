import Mathlib.Data.String.Basic
import ShapeExport.Proofs.Collection.Records

/-!
# The order in which records were entered

* `Record.le_trans`, `Record.le_total`, `Record.le_antisymm` : records are ordered by name and id, and
  only records with the same name and id are not told apart;
* `Collection.entries_ofRecords` : records with different ids keep the order in which they were entered;
* `Collection.OwnIds.resolve_congr`, `Collection.records_of_perm` : collections with the same records
  find the same ones, and list them in the same order, however they were entered.
-/

namespace ShapeExport

/-! ## The order of records -/

namespace Record

theorem le_iff {a b : Record} : a.le b ↔ a.name < b.name ∨ a.name = b.name ∧ a.id.key.le b.id.key := by
  unfold Record.le
  split
  · next h => simp [h]
  · next h => simp [h]

theorem le_trans {a b c : Record} (hab : a.le b) (hbc : b.le c) : a.le c := by
  rw [le_iff] at hab hbc ⊢
  rcases hab with hab | ⟨nab, hab⟩
  · rcases hbc with hbc | ⟨nbc, -⟩
    · exact Or.inl (lt_trans hab hbc)
    · exact Or.inl (nbc ▸ hab)
  · rcases hbc with hbc | ⟨nbc, hbc⟩
    · exact Or.inl (nab ▸ hbc)
    · exact Or.inr ⟨nab.trans nbc, TypeKey.le_trans hab hbc⟩

theorem le_total (a b : Record) : a.le b || b.le a := by
  rw [Bool.or_eq_true, le_iff, le_iff]
  rcases lt_trichotomy a.name b.name with h | h | h
  · exact Or.inl (Or.inl h)
  · rcases Bool.or_eq_true _ _ ▸ TypeKey.le_total a.id.key b.id.key with hk | hk
    · exact Or.inl (Or.inr ⟨h, hk⟩)
    · exact Or.inr (Or.inr ⟨h.symm, hk⟩)
  · exact Or.inr (Or.inl h)

theorem le_antisymm {a b : Record} (hab : a.le b) (hba : b.le a) : a.id.key = b.id.key := by
  rw [le_iff] at hab hba
  rcases hab with hab | ⟨nab, hab⟩
  · rcases hba with hba | ⟨nba, -⟩
    · exact absurd hba (lt_asymm hab)
    · exact absurd nba hab.ne'
  · rcases hba with hba | ⟨-, hba⟩
    · exact absurd nab hba.ne'
    · exact TypeKey.le_antisymm hab hba

end Record

namespace Collection

variable {c d : Collection}

/-! ## Collections of given records -/

theorem entries_insert {id : TypeId} (h : ¬ c.contains id.key) (r : Record) :
    (c.insert id r).entries = c.entries ++ [⟨id, some r⟩] := by
  unfold insert set
  rw [dif_neg h]

theorem entries_ofRecords {rs : List Record} (h : (rs.map (·.id.key)).Nodup) :
    (ofRecords rs).entries = rs.map fun r => ⟨r.id, some r⟩ := by
  have insertAll : ∀ c : Collection, (c.entries.map Entry.key ++ rs.map (·.id.key)).Nodup →
      (rs.foldl (fun c r => c.insert r.id r) c).entries = c.entries ++ rs.map fun r => ⟨r.id, some r⟩ := by
    clear h
    induction rs with
    | nil => exact fun c _ => (List.append_nil _).symm
    | cons r rs ih =>
      intro c h
      rw [List.map_cons, List.append_cons] at h
      have new : ¬ c.contains r.id.key := by
        intro hc
        rw [contains_iff] at hc
        exact List.disjoint_of_nodup_append (List.nodup_append.1 h).1 hc (List.mem_singleton_self _)
      rw [List.foldl_cons, ih, entries_insert new, List.append_assoc, List.map_cons, List.singleton_append]
      rw [entries_insert new, List.map_append]
      exact h
  exact insertAll empty h

theorem members_ofRecords {rs : List Record} (h : (rs.map (·.id.key)).Nodup) :
    (ofRecords rs).members = rs := by
  rw [members, entries_ofRecords h, List.filterMap_map]
  exact List.filterMap_some

theorem pending_ofRecords {rs : List Record} (h : (rs.map (·.id.key)).Nodup) :
    (ofRecords rs).pending = [] := by
  have finished : (ofRecords rs).entries.filter (·.record.isNone) = [] := by
    rw [entries_ofRecords h]
    simp
  rw [pending, finished, List.map_nil, List.mergeSort_nil]

/-! ## The same records in another order -/

theorem OwnIds.resolve_congr (own : c.OwnIds) (own' : d.OwnIds) (h : ∀ r, r ∈ c.members ↔ r ∈ d.members)
    (k : TypeKey) : c.resolve k = d.resolve k := by
  ext r
  constructor
  · intro hr
    have found := own'.resolve ((h r).1 (mem_members_of_resolve hr))
    rwa [own k r hr] at found
  · intro hr
    have found := own.resolve ((h r).2 (mem_members_of_resolve hr))
    rwa [own' k r hr] at found

theorem pairwise_records (c : Collection) : c.records.Pairwise fun a b => a.le b :=
  @List.pairwise_mergeSort Record Record.le (fun _ _ _ => Record.le_trans) Record.le_total c.members

theorem records_of_perm (perm : c.members.Perm d.members) (h : (c.members.map (·.id.key)).Nodup) :
    c.records = d.records := by
  have sorted : c.records.Perm d.records :=
    (List.mergeSort_perm _ _).trans (perm.trans (List.mergeSort_perm _ _).symm)
  refine sorted.eq_of_pairwise ?_ c.pairwise_records d.pairwise_records
  intro a b ha hb hab hba
  have hb := sorted.mem_iff.2 hb
  exact List.inj_on_of_nodup_map h (mem_records.1 ha) (mem_records.1 hb) (Record.le_antisymm hab hba)

end Collection

end ShapeExport
