import Mathlib
import ShapeExport.Proofs.Export.Missing
import ShapeExport.Proofs.JsonSchema.Document

/-!
# Forbidden integers

The policy for wide integers is applied where a primitive is rendered. The renderers of the three languages do
not come to the same primitives: a map key that is an integer is matched by its text in schemas.

* `Collection.MeetsWide` : the renderer of a language comes to a wide integer in a record;
* `JsonSchema.Context.refuses_definition`, `Export.refuses_statements` : a record in which it does is refused;
* `Export.bigIntForbidden_iff` : when an export is refused for a wide integer, language by language.
-/

namespace ShapeExport

/-! ## Positions that are rendered -/

namespace Shape

theorem HasWide.kept_of_schemaParts {s : Shape} (h : s.HasWide schemaParts) : s.HasWide kept := by
  refine h.imp fun s c hc hw => ?_
  cases s with
  | map key value =>
    rcases List.mem_append.1 hc with hc | hc
    · rw [eq_of_mem_keyParts hc] at hw
      exact .part List.mem_cons_self (hw.of_stripNullable List.mem_singleton_self)
    · exact .part (List.mem_cons_of_mem _ hc) hw
  | _ => exact .part hc hw

theorem HasWide.schemaParts_of_parts {s : Shape} (h : s.HasWide parts) : s.HasWide schemaParts := by
  refine h.imp fun s c hc hw => ?_
  cases s with
  | map key value => exact .part (List.mem_append_right _ hc) hw
  | reference id arguments => cases hc
  | _ => exact .part hc hw

/-- What is not rendered to a JSON schema lies in map keys and in arguments of references. -/
theorem HasWide.parts_of_kept {s : Shape} (keys : ∀ key value, s.Holds (.map key value) → ¬ key.HasWide kept)
    (references : ∀ id arguments, s.Holds (.reference id arguments) → ∀ a ∈ arguments, ¬ a.HasWide kept)
    (h : s.HasWide kept) : s.HasWide parts := by
  induction h with
  | here hk => exact .here hk
  | @part s c hc hw ih =>
    have below : c.HasWide parts := ih (fun key value hold => keys key value (.child hc hold))
      fun id arguments hold => references id arguments (.child hc hold)
    cases s with
    | map key value =>
      rcases List.mem_cons.1 hc with rfl | hc
      · exact absurd hw (keys c value (.here _))
      · exact .part hc below
    | reference id arguments => exact absurd hw (references id arguments (.here _) c hc)
    | _ => exact .part hc below

end Shape

/-- The renderer of the language comes to a wide integer in the record. With Zod, the type of a record that refers
back to itself is declared in TypeScript. -/
def Collection.MeetsWide (types : Collection) (l : Language) (r : Record) : Prop :=
  match l with
  | .typescript => r.shape.HasWide Shape.kept
  | .zod => r.shape.HasWide Shape.schemaParts ∨ types.reachesItself r = true ∧ r.shape.HasWide Shape.kept
  | .jsonschema => r.shape.HasWide Shape.parts

/-! ## Errors -/

/-- A wide integer is refused only if `G`. -/
def WideOnlyIf (G : Prop) (e : Error) : Prop := e.IsWideInteger → G

theorem Collection.covers_wideOnlyIf (types : Collection) (G : Prop) : types.Covers (WideOnlyIf G) where
  other e he hw := by cases e <;> first | exact he.elim | exact hw.elim
  records _ _ _ _ _ _ _ hw := hw.elim

theorem Collection.finds_wideOnlyIf (types : Collection) (G : Prop) (s : Shape) : types.Finds (WideOnlyIf G) s :=
  fun _ _ _ _ _ hw => hw.elim

theorem wideIn_wideOnlyIf {G : Prop} (h : G) : WideIn (WideOnlyIf G) := fun _ _ => h

theorem Error.IsEndless.wideOnlyIf {G : Prop} {e : Error} (h : e.IsEndless) : WideOnlyIf G e := by
  intro hw
  cases e <;> first | exact h.elim | exact hw.elim

variable {G : Prop}

/-! ## Definitions of JSON schemas -/

namespace JsonSchema.Context

variable {c : Context} (policy : c.config.bigint = .fail)
include policy

theorem not_ok_of_hasWide {s : Shape} (h : s.HasWide Shape.parts) {stack : List TypeKey} {path : Path}
    {schema : Schema} : c.schemaIn stack path s ≠ .ok schema := by
  induction h generalizing path schema with
  | here hk =>
    intro ok
    rw [schemaIn] at ok
    unfold primitiveSchema Config.bigIntAt at ok
    rw [if_pos hk, if_pos policy] at ok
    cases ok
  | part hc _ ih =>
    intro ok
    obtain ⟨path', schema', hs⟩ := schemaIn_parts_eq_ok hc ok
    exact ih hs

theorem refuses_definition (plain : ∀ r ∈ c.types.members, r.parameters = [])
    (ground : ∀ r ∈ c.types.members, r.shape.HasWide Shape.parts → G) {r : Record} (hr : r ∈ c.types.members) :
    Refuses (WideOnlyIf G) (r.shape.HasWide Shape.parts) (c.definition r) := by
  refine ⟨?_, fun hw schema ok => ?_⟩
  · refine failsIn_definition (c.types.covers_wideOnlyIf G) (fun _ => Error.IsEndless.wideOnlyIf) ?_ hr ?_
    · intro q hq arguments hw
      rw [Record.expand_of_not_generic (plain q hq)] at hw
      exact wideIn_wideOnlyIf (ground q hq hw)
    · exact fun hw => wideIn_wideOnlyIf (ground r hr hw)
  · obtain ⟨body, hb, -⟩ := bind_eq_ok.1 ok
    exact not_ok_of_hasWide policy hw hb

end JsonSchema.Context

namespace Export

variable {x : Export} {r : Record}

/-! ## Statements of scripts -/

theorem failsIn_imports {E : Error → Prop} (names : ∀ name, E (.invalidFileName name))
    (missing : ∀ path id, E (.invalidReference path id)) (r : Record) : FailsIn E (x.imports r) := by
  unfold imports
  split
  · exact failsIn_ok _
  · refine FailsIn.bind ?_ fun targets _ => failsIn_mapM fun t _ => (failsIn_specifier names x r t).map _
    refine (failsIn_mapM fun id _ e he => ?_).map _
    obtain ⟨-, rfl⟩ := target_error_iff.1 he
    exact missing _ id

theorem refuses_typeExpr_record (policy : x.config.bigint = .fail) (wide : r.shape.HasWide Shape.kept → G)
    (path : Path) : Refuses (WideOnlyIf G) (r.shape.HasWide Shape.kept) (x.typeExpr path r.shape) := by
  have covers := x.types.covers_wideOnlyIf G
  have found : x.types.Finds (WideOnlyIf G) r.shape := x.types.finds_wideOnlyIf G r.shape
  refine (refuses_typeExpr covers.admits found (fun hw => wideIn_wideOnlyIf (wide hw)) path).of_imp ?_
  exact fun hw => ⟨policy, hw⟩

section Documents

variable (policy : x.config.bigint = .fail) (plain : ∀ r ∈ x.types.members, r.parameters = [])
  (ground : ∀ r ∈ x.types.members, x.types.MeetsWide x.config.language r → G)
include policy plain ground

theorem refuses_statements (script : x.config.language ≠ .jsonschema) (hr : r ∈ x.types.members) :
    Refuses (WideOnlyIf G) (x.types.MeetsWide x.config.language r) (x.statements r) := by
  have covers := x.types.covers_wideOnlyIf G
  by_cases language : x.config.language = .zod
  · rw [language] at ground ⊢
    have records : ∀ q ∈ x.types.members, ∀ arguments, (q.expand arguments).HasWide Shape.schemaParts →
        WideIn (WideOnlyIf G) := by
      intro q hq arguments hw
      rw [Record.expand_of_not_generic (plain q hq)] at hw
      exact wideIn_wideOnlyIf (ground q hq (Or.inl hw))
    have schema : Refuses (WideOnlyIf G) (r.shape.HasWide Shape.schemaParts) (x.schema [r.name] r.shape) := by
      have found : x.types.Finds (WideOnlyIf G) r.shape := x.types.finds_wideOnlyIf G r.shape
      refine (refuses_schemaExpr covers records _ found (fun hw => ?_) _).of_imp fun hw => ⟨policy, hw⟩
      exact wideIn_wideOnlyIf (ground r hr (Or.inl hw))
    have generic : r.isGeneric = false := by simp [Record.isGeneric, plain r hr]
    rw [statements, if_pos language]
    simp only [generic, Bool.false_eq_true, if_false]
    by_cases recursive : x.types.reachesItself r = true
    · simp only [recursive, if_true]
      have type := refuses_typeExpr_record policy (fun hw => ground r hr (Or.inr ⟨recursive, hw⟩)) [r.name]
      refine (schema.bind fun _ _ => type.map _).of_imp fun either => either.imp_right And.right
    · simp only [recursive]
      exact (schema.map _).of_imp fun either => either.resolve_right fun h => recursive h.1
  · have language : x.config.language = .typescript := by
      cases hl : x.config.language with
      | typescript => rfl
      | zod => exact absurd hl language
      | jsonschema => exact absurd hl script
    rw [language] at ground ⊢
    have type := refuses_typeExpr_record policy (ground r hr) [r.name]
    rw [statements, if_neg (by simp [language])]
    exact type.map _

/-! ## Documents -/

theorem refuses_scriptDocument (script : x.config.language ≠ .jsonschema) {rs : List Record}
    (hrs : ∀ r ∈ rs, r ∈ x.types.members) (imports : List String) :
    Refuses (WideOnlyIf G) (∃ r ∈ rs, x.types.MeetsWide x.config.language r) (x.scriptDocument rs imports) := by
  rw [scriptDocument_eq]
  exact refuses_map (refuses_mapM fun r hr => refuses_statements policy plain ground script (hrs r hr)) _

theorem refuses_definition (language : x.config.language = .jsonschema) (linking : JsonSchema.Linking)
    (hr : r ∈ x.types.members) : Refuses (WideOnlyIf G) (x.types.MeetsWide x.config.language r)
      (({ toExport := x, linking } : JsonSchema.Context).definition r) := by
  rw [language] at ground ⊢
  exact JsonSchema.Context.refuses_definition policy plain ground hr

theorem refuses_schemaDocument (language : x.config.language = .jsonschema) {rs : List Record}
    (hrs : ∀ r ∈ rs, r ∈ x.types.members) :
    Refuses (WideOnlyIf G) (∃ r ∈ rs, x.types.MeetsWide x.config.language r) (x.schemaDocument rs) := by
  have covers := x.types.covers_wideOnlyIf G
  have all : rs.filter (!·.isGeneric) = rs :=
    List.filter_eq_self.2 fun r hr => by simp [Record.isGeneric, plain r (hrs r hr)]
  have definitions : Refuses (WideOnlyIf G) (∃ r ∈ rs, x.types.MeetsWide x.config.language r)
      (x.definitions rs) := by
    unfold definitions
    rw [all]
    refine Refuses.map (refuses_mapM fun r hr => Refuses.map ?_ _) _
    exact refuses_definition policy plain ground language .document (hrs r hr)
  exact (definitions.map _).before fun root => (failsIn_writable covers root).map _

theorem refuses_document {rs : List Record} (hrs : ∀ r ∈ rs, r ∈ x.types.members) :
    Refuses (WideOnlyIf G) (∃ r ∈ rs, x.types.MeetsWide x.config.language r) (x.document rs) := by
  unfold document
  split
  · next language => exact refuses_schemaDocument policy plain ground language hrs
  · next script => exact refuses_scriptDocument policy plain ground script hrs []

theorem refuses_text : Refuses (WideOnlyIf G) (∃ r ∈ x.types.records, x.types.MeetsWide x.config.language r)
    x.text := by
  unfold text
  split
  · exact refuses_error fun hw => hw.elim
  · refine (failsIn_prepare (x.types.covers_wideOnlyIf G)).after fun _ _ => ?_
    exact refuses_document policy plain ground fun r => Collection.mem_records.1

theorem refuses_file (hr : r ∈ x.types.members) :
    Refuses (WideOnlyIf G) (x.types.MeetsWide x.config.language r) (x.file r) := by
  have covers := x.types.covers_wideOnlyIf G
  by_cases language : x.config.language = .jsonschema
  · rw [file, if_pos language]
    refine Refuses.map ?_ _
    refine (refuses_definition policy plain ground language (.file r) hr).before fun schema => ?_
    exact (failsIn_writable covers _).map _
  · have single : ∀ q ∈ [r], q ∈ x.types.members := List.forall_mem_singleton.2 hr
    rw [file, if_neg language]
    have imports : FailsIn (WideOnlyIf G) (x.imports r) :=
      failsIn_imports (fun _ hw => hw.elim) (fun _ _ hw => hw.elim) r
    refine imports.after fun lines _ => Refuses.map ?_ _
    refine (refuses_scriptDocument policy plain ground language single lines).of_imp fun h => ?_
    exact ⟨r, List.mem_singleton_self r, h⟩

theorem refuses_files : Refuses (WideOnlyIf G) (∃ r ∈ x.types.records, x.types.MeetsWide x.config.language r)
    x.files := by
  have all : x.filed = x.types.records := by
    unfold filed
    split
    · refine List.filter_eq_self.2 fun r hr => ?_
      simp [Record.isGeneric, plain r (Collection.mem_records.1 hr)]
    · rfl
  refine (failsIn_prepare (x.types.covers_wideOnlyIf G)).after fun _ _ => ?_
  rw [all]
  exact (refuses_mapM fun r hr => refuses_file policy plain ground (Collection.mem_records.1 hr)).map _

end Documents

/-! ## The policy -/

/-- The same export in another language. -/
def inLanguage (x : Export) (l : Language) : Export := { x with config := { x.config with language := l } }

/-- An outcome that is no other error is a refusal exactly if there is a ground for one. -/
theorem bigIntForbidden_iff_of_refuses {α : Type} {outcome : Except Error α}
    (h : Refuses (WideOnlyIf G) G outcome) (other : FailsIn Error.IsWideInteger outcome) :
    (∃ path, outcome = .error (.bigIntForbidden path)) ↔ G := by
  constructor
  · rintro ⟨path, he⟩
    exact h.failsIn _ he trivial
  · intro g
    cases ho : outcome with
    | ok a => exact absurd ho (h.fails g a)
    | error e =>
      have hw := other e ho
      cases e with
      | bigIntForbidden path => exact ⟨path, rfl⟩
      | _ => exact hw.elim

theorem meetsWide_zod_of_jsonschema {types : Collection} (h : types.MeetsWide .jsonschema r) :
    types.MeetsWide .zod r :=
  Or.inl h.schemaParts_of_parts

theorem meetsWide_typescript_of_zod {types : Collection} (h : types.MeetsWide .zod r) :
    types.MeetsWide .typescript r :=
  h.elim Shape.HasWide.kept_of_schemaParts And.right

/-- **Forbidden integers.** Where wide integers are forbidden, records without parameters are refused exactly if
the renderer of the language comes to one. What is refused as a JSON schema is refused with Zod, and that is
refused in TypeScript; and all three agree if neither map keys nor arguments have wide integers. -/
theorem bigIntForbidden_iff (policy : x.config.bigint = .fail) (plain : ∀ r ∈ x.types.members, r.parameters = []) :
    (∀ l, FailsIn Error.IsWideInteger (x.inLanguage l).text →
      ((∃ path, (x.inLanguage l).text = .error (.bigIntForbidden path)) ↔
        ∃ r ∈ x.types.records, x.types.MeetsWide l r)) ∧
    (∀ l, FailsIn Error.IsWideInteger (x.inLanguage l).files →
      ((∃ path, (x.inLanguage l).files = .error (.bigIntForbidden path)) ↔
        ∃ r ∈ x.types.records, x.types.MeetsWide l r)) ∧
    ∀ r, (x.types.MeetsWide .jsonschema r → x.types.MeetsWide .zod r) ∧
      (x.types.MeetsWide .zod r → x.types.MeetsWide .typescript r) ∧
      ((∀ key value, r.shape.Holds (.map key value) → ¬ key.HasWide Shape.kept) →
        (∀ id arguments, r.shape.Holds (.reference id arguments) → ∀ a ∈ arguments, ¬ a.HasWide Shape.kept) →
          x.types.MeetsWide .typescript r → x.types.MeetsWide .jsonschema r) := by
  have ground (l : Language) : ∀ r ∈ x.types.members, x.types.MeetsWide l r →
      ∃ r ∈ x.types.records, x.types.MeetsWide l r :=
    fun r hr hw => ⟨r, Collection.mem_records.2 hr, hw⟩
  refine ⟨fun l other => ?_, fun l other => ?_, fun r => ⟨meetsWide_zod_of_jsonschema, meetsWide_typescript_of_zod, ?_⟩⟩
  · have policy : (x.inLanguage l).config.bigint = .fail := policy
    exact bigIntForbidden_iff_of_refuses (refuses_text policy plain (ground l)) other
  · have policy : (x.inLanguage l).config.bigint = .fail := policy
    exact bigIntForbidden_iff_of_refuses (refuses_files policy plain (ground l)) other
  · exact fun keys references => Shape.HasWide.parts_of_kept keys references

/-! ### A field, and a map key

The field of `Counter` is a wide integer, and so are the keys of `Index`. -/

namespace Counters

def counter : Record where
  id := ⟨⟨.static, 1⟩, "m.Counter"⟩
  name := "Counter"
  shape := .struct "Counter" (.named none [{ name := "value", ty := .primitive .u64 }])

def index : Record where
  id := ⟨⟨.static, 2⟩, "m.Index"⟩
  name := "Index"
  shape := .map (.primitive .u64) (.primitive .string)

def site (r : Record) : Export := ⟨{ banner := "", bigint := .fail }, .ofRecords [r]⟩

theorem plain_counter : ∀ r ∈ (site counter).types.members, r.parameters = [] := by
  intro r hr
  have hr : r ∈ [counter] := hr
  rw [List.mem_singleton.1 hr]
  rfl

/-- All three refuse the field. -/
theorem bigIntForbidden_counter :
    ((site counter).inLanguage .zod).text = .error (.bigIntForbidden ["Counter", "value"]) ∧
      ((site counter).inLanguage .jsonschema).files = .error (.bigIntForbidden ["Counter", "value"]) ∧
        ∃ r ∈ (site counter).types.records, (site counter).types.MeetsWide .typescript r := by
  obtain ⟨-, files, languages⟩ := bigIntForbidden_iff (x := site counter) rfl plain_counter
  have refused : ((site counter).inLanguage .jsonschema).files =
      .error (.bigIntForbidden ["Counter", "value"]) := by cbv
  have other : FailsIn Error.IsWideInteger ((site counter).inLanguage .jsonschema).files := by
    rw [refused]
    exact failsIn_error trivial
  obtain ⟨r, hr, hw⟩ := (files .jsonschema other).1 ⟨_, refused⟩
  exact ⟨by cbv, refused, r, hr, (languages r).2.1 ((languages r).1 hw)⟩

theorem records_index (l : Language) : ((site index).inLanguage l).types.records = [index] := by
  have sorted : List.Pairwise (fun a b => Record.le a b) [index] := List.pairwise_singleton _ _
  exact List.mergeSort_of_pairwise sorted

theorem prepare_index {l : Language} (h : l = .zod ∨ l = .jsonschema) :
    ((site index).inLanguage l).prepare = .ok () := by
  refine prepare_of_records (records_index l) (by cbv) (fun _ => by cbv) ?_ ?_
  all_goals rcases h with rfl | rfl <;> decide

theorem text_zod_index : ∃ text, ((site index).inLanguage .zod).text = .ok text := by
  have statements : ((site index).inLanguage .zod).statements index =
      .ok [.constant "Index" false (.record (.scalar .integerKey) (.scalar .string)), .inferred "Index"] := by cbv
  exact ⟨_, text_of_statements (by decide) (by decide) (records_index .zod) (prepare_index (Or.inl rfl))
    (mapM_eq_ok.2 (.cons statements .nil))⟩

theorem text_jsonschema_index : ∃ text, ((site index).inLanguage .jsonschema).text = .ok text := by
  have limits : (((site index).inLanguage .jsonschema).schemaRoot [index]).map
      (fun j => (j.depth, j.hasShortIntegers)) = .ok (4, true) := by cbv
  exact exists_text_of_schemaRoot rfl (by decide) (records_index .jsonschema) (prepare_index (Or.inr rfl)) limits
    (by decide)

/-- Only TypeScript refuses the keys. -/
theorem index_refused_in_typescript : index.shape.Holds (.primitive .u64) ∧ Primitive.u64.isBigInt = true ∧
    ((site index).inLanguage .typescript).text = .error (.bigIntForbidden ["Index"]) ∧
    (∃ text, ((site index).inLanguage .zod).text = .ok text) ∧
    ∃ text, ((site index).inLanguage .jsonschema).text = .ok text :=
  ⟨.child List.mem_cons_self (.here _), rfl, by cbv, text_zod_index, text_jsonschema_index⟩

end Counters

end Export

end ShapeExport
