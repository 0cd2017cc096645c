import Mathlib
import ShapeExport.Proofs.Export.Imports
import ShapeExport.Proofs.JsonSchema.Rendering
import ShapeExport.Proofs.Validation.Acceptance
import ShapeExport.Proofs.Validation.Failures
import ShapeExport.Proofs.Zod.Failures

/-!
# Missing records after validation

Validation and rendering pass over skipped fields and variants. What the file of a script imports is collected
from all fields and variants.

* `Scope.finds_of_validate` : once validation succeeds, each reference at a kept position leads to a record;
* `Export.failsIn_document` : so no rendering fails for want of a record;
* `Export.missing?` : the first reference of a record that leads to no record, skipped or not;
* `Export.missing_after_validate` : when an export that was validated is refused for a missing record.
-/

namespace ShapeExport

/-! ## References at kept positions -/

namespace Scope

variable {scope : Scope}

variable (scope) in
theorem resolves_of_validate (own : scope.types.OwnIds) (validated : scope.validate = .ok ()) {r : Record}
    (hr : r ∈ scope.types.members) {id : TypeId} {arguments : List Shape}
    (hold : r.shape.Holds (.reference id arguments)) : ∃ q, scope.types.resolve id.key = some q := by
  obtain ⟨path, passed⟩ := obligations_of_holds hold ((validate_eq_ok own).1 validated r hr)
  rw [obligations] at passed
  split at passed
  · exact absurd List.mem_cons_self (passed _)
  · next q hq => exact ⟨q, hq⟩

theorem finds_of_validate (own : scope.types.OwnIds) (validated : scope.validate = .ok ()) {r : Record}
    (hr : r ∈ scope.types.members) (E : Error → Prop) : scope.types.Finds E r.shape := by
  intro id arguments hold missing
  obtain ⟨q, hq⟩ := resolves_of_validate scope own validated hr hold
  rw [hq] at missing
  cases missing

variable (scope) in
theorem covers_of_validate (own : scope.types.OwnIds) (validated : scope.validate = .ok ()) :
    scope.types.Covers (¬ ·.IsMissing) where
  other _ := Error.IsLocal.not_isMissing
  records _ hr := finds_of_validate own validated hr _

end Scope

theorem Error.IsEndless.not_isMissing {e : Error} (h : e.IsEndless) : ¬ e.IsMissing := by
  intro hm
  cases e <;> first | exact h | exact hm

namespace Export

variable {x : Export} {E : Error → Prop} {r : Record}

/-! ## Documents -/

section Documents

variable (covers : x.types.Covers E) (wide : WideIn E) (endless : ∀ e, e.IsEndless → E e)
include covers

theorem failsIn_writable (j : Json) : FailsIn E (writable j) := by
  unfold writable
  split
  · exact failsIn_error (covers.other _ trivial)
  · split
    · exact failsIn_ok _
    · exact failsIn_error (covers.other _ trivial)

include wide

theorem failsIn_statements (hr : r ∈ x.types.members) : FailsIn E (x.statements r) := by
  have found := covers.records r hr
  have type : FailsIn E (x.typeExpr [r.name] r.shape) :=
    (refuses_typeExpr covers.admits found (fun _ => wide) _).failsIn
  have schema : FailsIn E (x.schema [r.name] r.shape) :=
    (refuses_schemaExpr covers (fun _ _ _ _ => wide) _ found (fun _ => wide) _).failsIn
  unfold statements
  dsimp only
  split
  · refine schema.bind fun _ _ => ?_
    split
    · exact failsIn_ok _
    · split
      · exact type.map _
      · exact failsIn_ok _
  · exact type.map _

theorem failsIn_scriptDocument {rs : List Record} (hrs : ∀ r ∈ rs, r ∈ x.types.members)
    (imports : List String) : FailsIn E (x.scriptDocument rs imports) := by
  rw [scriptDocument_eq]
  exact failsIn_map (failsIn_mapM fun r hr => failsIn_statements covers wide (hrs r hr)) _

include endless

theorem failsIn_schemaDocument {rs : List Record} (hrs : ∀ r ∈ rs, r ∈ x.types.members) :
    FailsIn E (x.schemaDocument rs) := by
  have definitions : FailsIn E (x.definitions rs) := by
    refine FailsIn.map (failsIn_mapM fun r hr => FailsIn.map ?_ _) _
    have member := hrs r (List.mem_filter.1 hr).1
    exact JsonSchema.Context.failsIn_definition covers endless (fun _ _ _ _ => wide) member fun _ => wide
  exact (definitions.map _).bind fun root _ => (failsIn_writable covers root).map _

theorem failsIn_schemaFile (hr : r ∈ x.types.members) : FailsIn E (x.schemaFile r) := by
  refine FailsIn.bind ?_ fun schema _ => (failsIn_writable covers _).map _
  exact JsonSchema.Context.failsIn_definition covers endless (fun _ _ _ _ => wide) hr fun _ => wide

theorem failsIn_document {rs : List Record} (hrs : ∀ r ∈ rs, r ∈ x.types.members) :
    FailsIn E (x.document rs) := by
  unfold document
  split
  · exact failsIn_schemaDocument covers wide endless hrs
  · exact failsIn_scriptDocument covers wide hrs []

end Documents

theorem failsIn_checkNames (other : ∀ e, e.IsLocal → E e) : FailsIn E x.checkNames := by
  have checked : ∀ rs taken, FailsIn E (x.checkNamesFrom taken rs) := by
    intro rs
    induction rs with
    | nil => exact fun taken => failsIn_ok _
    | cons r rs ih =>
      intro taken
      rw [checkNamesFrom]
      refine FailsIn.bind ?_ fun _ _ => ?_
      · unfold Config.checkTypeName
        split
        · exact failsIn_error (other _ trivial)
        · split
          · exact failsIn_ok _
          · exact failsIn_error (other _ trivial)
      · split
        · exact ih _
        · split
          · exact ih _
          · exact failsIn_error (other _ trivial)
  exact checked _ _

theorem failsIn_prepare (covers : x.types.Covers E) : FailsIn E x.prepare := by
  have complete : FailsIn E x.types.checkComplete := by
    unfold Collection.checkComplete
    split
    · exact failsIn_ok _
    · exact failsIn_error (covers.other _ trivial)
  have valid : FailsIn E x.scope.validate := Scope.failsIn_validate covers
  unfold prepare
  refine complete.bind fun _ _ => ?_
  split
  · exact valid.bind fun _ _ => failsIn_checkNames covers.other
  · exact failsIn_checkNames covers.other

/-! ## Imports -/

/-- The first reference of a record that leads to no record. Those in skipped fields and variants count. -/
def missing? (x : Export) (r : Record) : Option TypeId :=
  (r.shape.references.map (·.id)).find? fun id => (x.types.resolve id.key).isNone

theorem target_error_iff {path : Path} {id : TypeId} {e : Error} :
    x.target path id = .error e ↔ x.types.resolve id.key = none ∧ e = .invalidReference path id := by
  unfold Export.target Scope.target
  show ((x.types.resolve id.key).map Except.ok).getD _ = _ ↔ _
  cases x.types.resolve id.key with
  | none => simp [eq_comm]
  | some r => simp

theorem exists_target {path : Path} {id : TypeId} :
    (∃ r, x.target path id = .ok r) ↔ (x.types.resolve id.key).isNone = false := by
  unfold Export.target Scope.target
  show (∃ r, ((x.types.resolve id.key).map Except.ok).getD _ = _) ↔ _
  cases x.types.resolve id.key with
  | none => simp
  | some r => simp

/-- The imports of a record fail at its first missing reference. -/
theorem importTargets_error_iff (own : x.types.OwnIds) (hr : r ∈ x.types.members) {e : Error} :
    x.importTargets r = .error e ↔ ∃ id, x.missing? r = some id ∧ e = .invalidReference [r.name] id := by
  have there : ∀ id : TypeId, (x.types.resolve id.key).isNone = true → id.key ≠ r.id.key := by
    intro id hn hk
    rw [hk, own.resolve hr] at hn
    cases hn
  have missing : x.missing? r = (Text.distinctBy TypeId.key ((r.shape.references.map (·.id)).filter
      (·.key ≠ r.id.key))).find? fun id => (x.types.resolve id.key).isNone := by
    rw [Text.find?_distinctBy fun a b hab => by rw [hab], List.find?_filter]
    unfold missing?
    congr 1
    funext id
    cases hn : (x.types.resolve id.key).isNone with
    | true => simp [there id hn]
    | false => simp
  have step : x.importTargets r = .error e ↔ (Text.distinctBy TypeId.key ((r.shape.references.map (·.id)).filter
      (·.key ≠ r.id.key))).mapM (x.target [r.name]) = .error e := by
    unfold importTargets
    rw [bind_eq_error]
    constructor
    · rintro (h | ⟨_, -, h⟩)
      · exact h
      · cases h
    · exact Or.inl
  rw [step, mapM_eq_error, missing]
  simp only [List.find?_eq_some_iff_append]
  constructor
  · rintro ⟨before, id, after, all, found, failed⟩
    obtain ⟨hn, rfl⟩ := target_error_iff.1 failed
    refine ⟨id, ⟨by rw [hn]; rfl, before, after, all, fun b hb => ?_⟩, rfl⟩
    rw [exists_target.1 (found b hb)]
    rfl
  · rintro ⟨id, ⟨hn, before, after, all, found⟩, rfl⟩
    refine ⟨before, id, after, all, fun b hb => exists_target.2 ?_, target_error_iff.2 ⟨?_, rfl⟩⟩
    · simpa using found b hb
    · exact Option.isNone_iff_eq_none.1 hn

/-! ## Files -/

section Files

variable (own : x.types.OwnIds) (validated : x.scope.validate = .ok ())
include own validated

/-- The file of a script is refused for a missing record exactly where its imports are. -/
theorem file_missing_iff (language : x.config.language ≠ .jsonschema) (hr : r ∈ x.types.members) {path : Path}
    {id : TypeId} :
    x.file r = .error (.invalidReference path id) ↔ x.missing? r = some id ∧ path = [r.name] := by
  have covers : x.types.Covers (¬ ·.IsMissing) := Scope.covers_of_validate x.scope own validated
  have targets : x.importTargets r = .error (.invalidReference path id) ↔
      x.missing? r = some id ∧ path = [r.name] := by
    rw [importTargets_error_iff own hr]
    constructor
    · rintro ⟨_, missing, ⟨⟩⟩
      exact ⟨missing, rfl⟩
    · rintro ⟨missing, rfl⟩
      exact ⟨id, missing, rfl⟩
  rw [← targets, Export.file, if_neg language, Export.imports, if_neg language]
  constructor
  · intro h
    rcases bind_eq_error.1 h with h | ⟨lines, -, h⟩
    · rcases bind_eq_error.1 h with h | ⟨targets, -, h⟩
      · exact h
      · have lines : FailsIn (¬ ·.IsMissing) (targets.mapM (x.importLine r)) :=
          failsIn_mapM fun t _ => (failsIn_specifier (fun _ => not_false) x r t).map _
        exact absurd trivial (lines _ h)
    · rcases bind_eq_error.1 h with h | ⟨_, -, h⟩
      · have script : FailsIn (¬ ·.IsMissing) (x.scriptDocument [r] lines) :=
          failsIn_scriptDocument covers (fun _ => not_false) (List.forall_mem_singleton.2 hr) lines
        exact absurd trivial (script _ h)
      · cases h
  · intro h
    have imports : (x.importTargets r >>= fun targets => targets.mapM (x.importLine r)) =
        .error (.invalidReference path id) := bind_eq_error.2 (Or.inl h)
    exact bind_eq_error.2 (Or.inl imports)

theorem text_not_missing : FailsIn (¬ ·.IsMissing) x.text := by
  have covers : x.types.Covers (¬ ·.IsMissing) := Scope.covers_of_validate x.scope own validated
  unfold text
  split
  · exact failsIn_error not_false
  · refine (failsIn_prepare covers).bind fun _ _ => ?_
    exact failsIn_document covers (fun _ => not_false) (fun _ => Error.IsEndless.not_isMissing) fun r =>
      Collection.mem_records.1

theorem schemaFiles_not_missing (language : x.config.language = .jsonschema) :
    FailsIn (¬ ·.IsMissing) x.files := by
  have covers : x.types.Covers (¬ ·.IsMissing) := Scope.covers_of_validate x.scope own validated
  refine (failsIn_prepare covers).bind fun _ _ => (failsIn_mapM fun r hr => ?_).map _
  rw [Export.file, if_pos language]
  have member : r ∈ x.types.members := (mem_filed.1 hr).1
  exact (failsIn_schemaFile covers (fun _ => not_false) (fun _ => Error.IsEndless.not_isMissing) member).map _

/-- The files of scripts are refused for the first missing reference of the first record that has one, unless
another record fails before. -/
theorem files_missing_iff (language : x.config.language ≠ .jsonschema) {path : Path} {id : TypeId} :
    x.files = .error (.invalidReference path id) ↔ x.prepare = .ok () ∧ ∃ before r after,
      x.types.records = before ++ r :: after ∧ (∀ s ∈ before, ∃ file, x.file s = .ok file) ∧
        x.missing? r = some id ∧ path = [r.name] := by
  have prepared : FailsIn (¬ ·.IsMissing) x.prepare :=
    failsIn_prepare (Scope.covers_of_validate x.scope own validated)
  have step : x.files = .error (.invalidReference path id) ↔
      x.prepare = .ok () ∧ x.types.records.mapM x.file = .error (.invalidReference path id) := by
    unfold files
    rw [bind_eq_error, filed, if_neg language]
    constructor
    · rintro (h | ⟨_, hp, h⟩)
      · exact absurd trivial (prepared _ h)
      · rcases bind_eq_error.1 h with h | ⟨_, -, h⟩
        · exact ⟨hp, h⟩
        · cases h
    · exact fun h => Or.inr ⟨(), h.1, bind_eq_error.2 (Or.inl h.2)⟩
  rw [step, mapM_eq_error]
  refine and_congr_right fun _ => exists_congr fun before => exists_congr fun r => exists_congr fun after => ?_
  refine and_congr_right fun all => and_congr_right fun _ => ?_
  have member : r ∈ x.types.records := all ▸ List.mem_append_right _ List.mem_cons_self
  exact file_missing_iff own validated language (Collection.mem_records.1 member)

/-- A missing reference of a record stands in skipped fields and variants only. -/
theorem not_holds_of_missing (hr : r ∈ x.types.records) {id : TypeId} (missing : x.missing? r = some id)
    {other : TypeId} {arguments : List Shape} (hold : r.shape.Holds (.reference other arguments)) :
    other.key ≠ id.key := by
  intro same
  have member := Collection.mem_records.1 hr
  obtain ⟨q, hq⟩ := Scope.resolves_of_validate x.scope own validated member hold
  have absent := List.find?_some missing
  rw [← same, Option.isNone_iff_eq_none] at absent
  rw [show x.scope.types.resolve other.key = x.types.resolve other.key from rfl, absent] at hq
  cases hq

end Files

/-- **Missing records.** When validation succeeds, a document with all records is not refused for a missing
record, and neither are the files of JSON schemas. The files of scripts are refused for one exactly where a
record, after records that have their files, refers to it; and it does so in skipped fields and variants only. -/
theorem missing_after_validate (own : x.types.OwnIds) (validated : x.scope.validate = .ok ()) :
    (∀ e, x.text = .error e → ¬ e.IsMissing) ∧
    (x.config.language = .jsonschema → ∀ e, x.files = .error e → ¬ e.IsMissing) ∧
    (x.config.language ≠ .jsonschema → ∀ path id, x.files = .error (.invalidReference path id) ↔
      x.prepare = .ok () ∧ ∃ before r after, x.types.records = before ++ r :: after ∧
        (∀ s ∈ before, ∃ file, x.file s = .ok file) ∧ x.missing? r = some id ∧ path = [r.name]) ∧
    ∀ r ∈ x.types.records, ∀ id, x.missing? r = some id → ∀ other arguments,
      r.shape.Holds (.reference other arguments) → other.key ≠ id.key :=
  ⟨text_not_missing own validated, schemaFiles_not_missing own validated,
    fun language _ _ => files_missing_iff own validated language,
    fun _ hr _ missing _ _ => not_holds_of_missing own validated hr missing⟩

/-! ### A skipped field

`A` has one field, which is skipped and refers to `B`. There is no record `B`. -/

namespace Skipped

def b : TypeId := ⟨⟨.static, 2⟩, "m.B"⟩

def a : Record where
  id := ⟨⟨.static, 1⟩, "m.A"⟩
  name := "A"
  shape := .struct "A" (.named none [{ name := "b", ty := .reference b [], skip := true }])

def site : Export := ⟨{ banner := "", layout := .perTypeFile }, .ofRecords [a]⟩

theorem ownIds : site.types.OwnIds := Collection.ownIds_ofRecords _

theorem language_ne : site.config.language ≠ .jsonschema := by decide

theorem records_site : site.types.records = [a] := by
  have sorted : List.Pairwise (fun a b => Record.le a b) [a] := List.pairwise_singleton _ _
  exact List.mergeSort_of_pairwise sorted

theorem validate_site : site.scope.validate = .ok () := by cbv

theorem prepare_site : site.prepare = .ok () :=
  prepare_of_records records_site (by cbv) (fun _ => validate_site) (by decide) (by decide)

theorem missing_a : site.missing? a = some b := by cbv

/-- Validation passes over the field, and in one document nothing is missing. The files are refused. -/
theorem files_refused_for_b : site.scope.validate = .ok () ∧
    ({ site with config := { banner := "" } } : Export).text = .ok "export type A = Record<string, never>;\n" ∧
    site.files = .error (.invalidReference ["A"] b) := by
  refine ⟨validate_site, by cbv, ?_⟩
  refine (files_missing_iff ownIds validate_site language_ne).2 ⟨prepare_site, [], a, [], ?_⟩
  exact ⟨records_site, List.forall_mem_nil _, missing_a, rfl⟩

/-- So `A` is the record that the files are refused for, and its field is skipped. -/
theorem missing_after_validate_a : site.files = .error (.invalidReference ["A"] b) ∧
    ∀ other arguments, a.shape.Holds (.reference other arguments) → other.key ≠ b.key := by
  obtain ⟨-, -, files, skipped⟩ := missing_after_validate ownIds validate_site
  have member : a ∈ site.types.records := by
    rw [records_site]
    exact List.mem_cons_self
  refine ⟨(files language_ne ["A"] b).2 ⟨prepare_site, [], a, [], ?_⟩, skipped a member b missing_a⟩
  exact ⟨records_site, List.forall_mem_nil _, missing_a, rfl⟩

end Skipped

end Export

end ShapeExport
