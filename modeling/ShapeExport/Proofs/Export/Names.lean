import ShapeExport.Layout
import ShapeExport.Proofs.Collection.Records
import ShapeExport.Proofs.Outcome

/-!
# Names that were checked

* `isWordChar_of_isTypeName` : the characters of a type name;
* `Export.checkNames_of_nodup` : names that pass the check;
* `Export.checkTypeName_of_checkNames` : the name of each record was checked, so that it may be declared;
* `Export.place_of_checkNames` : no two records have one place;
* `Export.nodup_displayName` : in one document no two records have one name.
-/

namespace ShapeExport

theorem isWordChar_of_isTypeName {s : String} (h : isTypeName s) {c : Char} (hc : c ∈ s.toList) :
    Text.isWordChar c ∨ c = '_' := by
  unfold isTypeName at h
  cases hs : s.toList with
  | nil =>
    rw [hs] at hc
    cases hc
  | cons d ds =>
    rw [hs] at h hc
    unfold isTypeNameChars at h
    rw [Bool.and_eq_true, List.all_eq_true] at h
    simpa using h.2 c hc

namespace Export

variable {x : Export}

theorem checkTypeName_eq_ok {c : Config} {path : Path} {name : String} :
    c.checkTypeName path name = .ok () ↔ name ∉ c.language.reservedTypeNames ∧ isTypeName name := by
  unfold Config.checkTypeName
  split
  · next reserved => simp [List.contains_iff_mem.1 reserved]
  · next free =>
    split
    · next named => simpa [named] using free
    · next unnamed => simp [unnamed]

theorem places_cons {q : Record} {rs : List Record}
    (known : ∀ s ∈ rs, x.place q = x.place s → q.id.key = s.id.key)
    (hp : ∀ r ∈ rs, ∀ s ∈ rs, x.place r = x.place s → r.id.key = s.id.key) :
    ∀ r ∈ q :: rs, ∀ s ∈ q :: rs, x.place r = x.place s → r.id.key = s.id.key := by
  intro r hr s hs e
  rcases List.mem_cons.1 hr with hq | hr
  · rcases List.mem_cons.1 hs with hq' | hs
    · rw [hq, hq']
    · rw [hq] at e ⊢
      exact known s hs e
  · rcases List.mem_cons.1 hs with hq | hs
    · rw [hq] at e ⊢
      exact (known r hr e.symm).symm
    · exact hp r hr s hs e

/-- After the check, each place among the records belongs to one id, which is that of the record that was
taken there before, if there was one. -/
theorem checkNamesFrom_eq_ok {taken : List (String × Record)} {rs : List Record}
    (h : x.checkNamesFrom taken rs = .ok ()) :
    (∀ r ∈ rs, x.config.checkTypeName [r.name] (x.displayName r) = .ok ()) ∧
      (∀ r ∈ rs, ∀ first, taken.lookup (x.place r) = some first → first.id.key = r.id.key) ∧
      ∀ r ∈ rs, ∀ s ∈ rs, x.place r = x.place s → r.id.key = s.id.key := by
  induction rs generalizing taken with
  | nil => exact ⟨List.forall_mem_nil _, List.forall_mem_nil _, List.forall_mem_nil _⟩
  | cons q rs ih =>
    rw [checkNamesFrom] at h
    obtain ⟨_, hq, h⟩ := bind_eq_ok.1 h
    split at h
    · next hl =>
      obtain ⟨hn, ht, hp⟩ := ih h
      -- The place is recorded for the rest, so what comes there later has the same id.
      have known : ∀ s ∈ rs, x.place q = x.place s → q.id.key = s.id.key := by
        intro s hs e
        exact ht s hs q (by rw [List.lookup_cons, e, beq_self_eq_true])
      have free : ∀ first, taken.lookup (x.place q) = some first → first.id.key = q.id.key := by
        intro first hf
        rw [hl] at hf
        cases hf
      have kept : ∀ r ∈ rs, ∀ first, taken.lookup (x.place r) = some first → first.id.key = r.id.key := by
        intro r hr first hf
        by_cases e : x.place q = x.place r
        · rw [← e, hl] at hf
          cases hf
        · apply ht r hr first
          rw [List.lookup_cons, beq_false_of_ne (Ne.symm e)]
          exact hf
      exact ⟨List.forall_mem_cons.2 ⟨hq, hn⟩, List.forall_mem_cons.2 ⟨free, kept⟩, places_cons known hp⟩
    · next first hl =>
      split at h
      · next hi =>
        obtain ⟨hn, ht, hp⟩ := ih h
        have known : ∀ s ∈ rs, x.place q = x.place s → q.id.key = s.id.key := by
          intro s hs e
          rw [← hi]
          exact ht s hs first (by rw [← e, hl])
        have own : ∀ first, taken.lookup (x.place q) = some first → first.id.key = q.id.key := by
          intro first' hf
          rw [hl] at hf
          cases hf
          exact hi
        exact ⟨List.forall_mem_cons.2 ⟨hq, hn⟩, List.forall_mem_cons.2 ⟨own, ht⟩, places_cons known hp⟩
      · cases h

theorem checkNamesFrom_of_nodup {taken : List (String × Record)} {rs : List Record}
    (names : ∀ r ∈ rs, x.displayName r ∉ x.config.language.reservedTypeNames ∧ isTypeName (x.displayName r))
    (free : ∀ r ∈ rs, taken.lookup (x.place r) = none) (places : (rs.map x.place).Nodup) :
    x.checkNamesFrom taken rs = .ok () := by
  induction rs generalizing taken with
  | nil => rfl
  | cons q rs ih =>
    obtain ⟨new, places⟩ := List.nodup_cons.1 places
    rw [checkNamesFrom, free q List.mem_cons_self]
    refine bind_eq_ok.2 ⟨(), checkTypeName_eq_ok.2 (names q List.mem_cons_self), ?_⟩
    refine ih (fun r hr => names r (List.mem_cons_of_mem q hr)) (fun r hr => ?_) places
    have other : x.place r ≠ x.place q := fun e => new (e ▸ List.mem_map_of_mem hr)
    rw [List.lookup_cons, beq_false_of_ne other]
    exact free r (List.mem_cons_of_mem q hr)

/-- Records at different places pass, under names that may be declared. -/
theorem checkNames_of_nodup
    (names : ∀ r ∈ x.types.records,
      x.displayName r ∉ x.config.language.reservedTypeNames ∧ isTypeName (x.displayName r))
    (places : (x.types.records.map x.place).Nodup) : x.checkNames = .ok () :=
  checkNamesFrom_of_nodup names (fun _ _ => rfl) places

theorem checkTypeName_of_checkNames (h : x.checkNames = .ok ()) {r : Record} (hr : r ∈ x.types.records) :
    x.displayName r ∉ x.config.language.reservedTypeNames ∧ isTypeName (x.displayName r) :=
  checkTypeName_eq_ok.1 ((checkNamesFrom_eq_ok h).1 r hr)

theorem isTypeName_of_checkNames (h : x.checkNames = .ok ()) {r : Record} (hr : r ∈ x.types.records) :
    isTypeName (x.displayName r) :=
  (checkTypeName_of_checkNames h hr).2

/-- No two records have one place. -/
theorem place_of_checkNames (h : x.checkNames = .ok ()) {r s : Record} (hr : r ∈ x.types.records)
    (hs : s ∈ x.types.records) (e : x.place r = x.place s) : r.id.key = s.id.key :=
  (checkNamesFrom_eq_ok h).2.2 r hr s hs e

/-- The names of records differ once they were checked, if the records share a document. -/
theorem nodup_displayName (own : x.types.OwnIds) (layout : x.config.layout ≠ .perTypeFile)
    (names : x.checkNames = .ok ()) : (x.types.records.map x.displayName).Nodup := by
  refine own.nodup.of_map.map_on fun r hr s hs e => ?_
  have place : x.place r = x.place s := by
    unfold place
    rw [if_neg layout, if_neg layout, e]
  exact own.eq_of_key (Collection.mem_records.1 hr) (Collection.mem_records.1 hs)
    (place_of_checkNames names hr hs place)

end Export

end ShapeExport
