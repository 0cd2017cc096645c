import Mathlib.Data.List.Nodup
import ShapeExport.Proofs.Collection.Entries

/-!
# Records under their own ids

Whoever inserts a record into a collection is to insert it under its own id.

* `Collection.mem_members` : the members are the records that ids resolve to;
* `Collection.OwnIds` : each record has the id that it is stored under;
* `Collection.OwnIds.eq_of_key`, `Collection.OwnIds.nodup` : then the id tells a record.
-/

namespace ShapeExport

namespace Collection

variable {c : Collection}

theorem resolve_of_mem_entries {e : Entry} {r : Record} (he : e ∈ c.entries) (hr : e.record = some r) :
    c.resolve e.key = some r := by
  have hf : c.entries.find? (·.key = e.key) = some e := by
    obtain ⟨d, hd⟩ := Option.isSome_iff_exists.1
      (List.find?_isSome.2 ⟨e, he, by simp⟩ : (c.entries.find? (·.key = e.key)).isSome)
    have hk : d.key = e.key := by simpa using List.find?_some hd
    rw [hd, List.inj_on_of_nodup_map c.distinct (List.mem_of_find?_eq_some hd) he hk]
  rw [Collection.resolve, find?, hf, Option.map_some, hr, Option.join_some]

theorem mem_members {r : Record} : r ∈ c.members ↔ ∃ k, c.resolve k = some r := by
  constructor
  · intro h
    obtain ⟨e, he, hr⟩ := List.mem_filterMap.1 h
    exact ⟨e.key, resolve_of_mem_entries he hr⟩
  · rintro ⟨k, hk⟩
    exact mem_members_of_resolve hk

/-- Each record has the id that it is stored under. -/
def OwnIds (c : Collection) : Prop := ∀ k r, c.resolve k = some r → r.id.key = k

theorem OwnIds.resolve (own : c.OwnIds) {r : Record} (h : r ∈ c.members) :
    c.resolve r.id.key = some r := by
  obtain ⟨k, hk⟩ := mem_members.1 h
  rw [own k r hk]
  exact hk

theorem OwnIds.eq_of_key (own : c.OwnIds) {r r' : Record} (h : r ∈ c.members) (h' : r' ∈ c.members)
    (e : r.id.key = r'.id.key) : r = r' := by
  have hr := own.resolve h
  rw [e, own.resolve h'] at hr
  exact (Option.some.inj hr).symm

/-- No two records have one id. -/
theorem OwnIds.nodup (own : c.OwnIds) : (c.records.map (·.id.key)).Nodup := by
  have members : ∀ es : List Entry, es ⊆ c.entries →
      ((es.filterMap (·.record)).map (·.id.key)).Sublist (es.map Entry.key) := by
    intro es hs
    induction es with
    | nil => exact .slnil
    | cons e es ih =>
      have ih := ih (List.Subset.trans (List.subset_cons_self _ _) hs)
      cases hr : e.record with
      | none =>
        rw [List.filterMap_cons_none hr]
        exact ih.cons e.key
      | some r =>
        rw [List.filterMap_cons_some hr, List.map_cons, List.map_cons,
          own _ r (resolve_of_mem_entries (hs List.mem_cons_self) hr)]
        exact ih.cons_cons e.key
  have sorted : (c.records.map (·.id.key)).Perm (c.members.map (·.id.key)) :=
    (List.mergeSort_perm _ _).map _
  have sub := members c.entries (List.Subset.refl _)
  rw [sorted.nodup_iff]
  exact c.distinct.sublist sub

theorem OwnIds.insert (own : c.OwnIds) {id : TypeId} {r : Record} (h : r.id.key = id.key) :
    (c.insert id r).OwnIds := by
  intro k s hs
  rw [resolve_insert] at hs
  split at hs
  · next hk => rw [← Option.some.inj hs, h, hk]
  · exact own k s hs

theorem OwnIds.mark (own : c.OwnIds) (id : TypeId) : (c.mark id).OwnIds := by
  intro k s hs
  rw [resolve_mark] at hs
  split at hs
  · cases hs
  · exact own k s hs

theorem OwnIds.erase (own : c.OwnIds) (k : TypeKey) : (c.erase k).OwnIds := by
  intro k' s hs
  rw [resolve_erase] at hs
  split at hs
  · cases hs
  · exact own k' s hs

theorem ownIds_ofRecords (rs : List Record) : (ofRecords rs).OwnIds := by
  unfold ofRecords
  have insertAll : ∀ c : Collection, c.OwnIds → (rs.foldl (fun c r => c.insert r.id r) c).OwnIds := by
    induction rs with
    | nil => exact fun c own => own
    | cons r rs ih => exact fun c own => ih _ (own.insert rfl)
  exact insertAll empty nofun

end Collection

end ShapeExport
