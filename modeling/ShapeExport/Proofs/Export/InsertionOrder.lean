import Mathlib
import ShapeExport.Document
import ShapeExport.Proofs.Collection.Order
import ShapeExport.Proofs.JsonSchema.Agreement
import ShapeExport.Proofs.Zod.Agreement

/-!
# Exports do not show the order of insertion

* `Export.Agrees.text`, `Export.Agrees.files` : exports that agree have the same outcome, be it documents
  or an error;
* `Export.agrees_of_perm` : exports of the same records agree in whatever order the records were entered
  and the representations were given;
* `Export.same_outcome_of_perm` : so their outcomes are the same.
-/

namespace ShapeExport.Export

namespace Agrees

variable {x y : Export} (h : x.Agrees y)
include h

/-! ## Imports and names -/

theorem importTargets (r : Record) : x.importTargets r = y.importTargets r := by
  have target : x.target [r.name] = y.target [r.name] := funext fun id => h.target [r.name] id
  unfold Export.importTargets
  rw [target]

theorem importLine (source target : Record) : x.importLine source target = y.importLine source target := by
  unfold Export.importLine
  rw [h.language, h.displayName, h.specifier]

theorem imports (r : Record) : x.imports r = y.imports r := by
  have line : x.importLine r = y.importLine r := funext (h.importLine r)
  unfold Export.imports
  rw [h.language, h.importTargets, line]

theorem place (r : Record) : x.place r = y.place r := by
  have layout : x.config.layout = y.config.layout := h.option (·.layout) fun _ _ => rfl
  unfold Export.place
  rw [layout, h.filePath, h.displayName]

theorem checkNamesFrom (taken : List (String × Record)) (rs : List Record) :
    x.checkNamesFrom taken rs = y.checkNamesFrom taken rs := by
  have name (r : Record) (s : String) :
      x.config.checkTypeName [r.name] s = y.config.checkTypeName [r.name] s :=
    h.option (·.checkTypeName [r.name] s) fun _ _ => rfl
  induction rs generalizing taken with
  | nil => rw [Export.checkNamesFrom, Export.checkNamesFrom]
  | cons r rs ih =>
    rw [Export.checkNamesFrom, Export.checkNamesFrom, name, h.displayName, h.place]
    simp only [ih]

theorem prepare : x.prepare = y.prepare := by
  have complete : x.types.checkComplete = y.types.checkComplete := by
    unfold Collection.checkComplete
    rw [h.pending]
  have validated : x.config.validate = y.config.validate := h.option (·.validate) fun _ _ => rfl
  have valid : x.scope.validate = y.scope.validate := h.scope.validate h.records
  unfold Export.prepare Export.checkNames
  rw [complete, validated, valid, h.records, h.checkNamesFrom]

/-! ## Documents -/

theorem declaration (r : Record) : x.declaration r = y.declaration r := by
  unfold Export.declaration
  rw [h.language, h.schemaDeclaration, h.typeDeclaration]

theorem headerLines : x.config.headerLines = y.config.headerLines :=
  h.option (·.headerLines) fun _ _ => rfl

theorem scriptDocument (rs : List Record) (imports : List String) :
    x.scriptDocument rs imports = y.scriptDocument rs imports := by
  have declaration : x.declaration = y.declaration := funext h.declaration
  unfold Export.scriptDocument
  rw [declaration, h.headerLines, h.language]

theorem definition (linking : JsonSchema.Linking) (r : Record) :
    JsonSchema.Context.definition ⟨x, linking⟩ r = JsonSchema.Context.definition ⟨y, linking⟩ r := by
  have agrees : JsonSchema.Context.Agrees ⟨x, linking⟩ ⟨y, linking⟩ := ⟨h, rfl⟩
  exact agrees.definition r

theorem definitions (rs : List Record) : x.definitions rs = y.definitions rs := by
  unfold Export.definitions
  simp only [h.displayName, h.definition]

theorem dialectMember : x.dialectMember = y.dialectMember := by
  unfold Export.dialectMember
  rw [h.schemaVersion]

theorem schemaRoot (rs : List Record) : x.schemaRoot rs = y.schemaRoot rs := by
  have title : x.config.title = y.config.title := h.option (·.title) fun _ _ => rfl
  have description : x.config.description = y.config.description :=
    h.option (·.description) fun _ _ => rfl
  have comment : x.schemaComment = y.schemaComment := by
    unfold Export.schemaComment
    rw [h.headerLines]
  unfold Export.schemaRoot
  rw [h.definitions, h.dialectMember, title, description, comment, h.schemaVersion]

theorem document (rs : List Record) : x.document rs = y.document rs := by
  unfold Export.document Export.schemaDocument
  rw [h.language, h.schemaRoot, h.scriptDocument]

theorem text : x.text = y.text := by
  have layout : x.config.layout = y.config.layout := h.option (·.layout) fun _ _ => rfl
  unfold Export.text
  rw [layout, h.prepare, h.records, h.document]

theorem schemaFile (r : Record) : x.schemaFile r = y.schemaFile r := by
  unfold Export.schemaFile
  simp only [h.definition, h.dialectMember]

theorem file (r : Record) : x.file r = y.file r := by
  unfold Export.file
  simp only [h.language, h.schemaFile, h.imports, h.scriptDocument, h.filePath]

theorem files : x.files = y.files := by
  have file : x.file = y.file := funext h.file
  unfold Export.files Export.filed
  rw [h.prepare, h.language, h.records, file]

end Agrees

/-! ## Orders of insertion -/

theorem agrees_of_perm (config : Config) {rs rs' : List Record} {overrides : Overrides}
    (records : rs.Perm rs') (ids : (rs.map (·.id.key)).Nodup)
    (enums : config.overrides.Perm overrides) (names : (config.overrides.map (·.1)).Nodup) :
    Agrees ⟨config, .ofRecords rs⟩ ⟨{ config with overrides := overrides }, .ofRecords rs'⟩ := by
  have ids' : (rs'.map (·.id.key)).Nodup := (records.map _).nodup_iff.1 ids
  have members : (Collection.ofRecords rs).members.Perm (Collection.ofRecords rs').members := by
    rw [Collection.members_ofRecords ids, Collection.members_ofRecords ids']
    exact records
  have distinct : ((Collection.ofRecords rs).members.map (·.id.key)).Nodup := by
    rw [Collection.members_ofRecords ids]
    exact ids
  have resolve (k : TypeKey) : (Collection.ofRecords rs).resolve k = (Collection.ofRecords rs').resolve k :=
    (Collection.ownIds_ofRecords rs).resolve_congr (Collection.ownIds_ofRecords rs')
      (fun _ => members.mem_iff) k
  have effective (enum : String) (declared : Option Tagging) :
      config.overrides.effective enum declared = overrides.effective enum declared := by
    unfold Overrides.effective
    rw [OrderedMap.lookup_of_perm enums names]
  have pending : (Collection.ofRecords rs).pending = (Collection.ofRecords rs').pending := by
    rw [Collection.pending_ofRecords ids, Collection.pending_ofRecords ids']
  exact ⟨⟨overrides, rfl⟩, ⟨resolve, effective⟩, Collection.records_of_perm members distinct, pending⟩

/-- **Insertion order never shows.** Records with different ids are exported to the same documents, or
with the same error, in whatever order they were entered and the representations of enums were given. -/
theorem same_outcome_of_perm (config : Config) {rs rs' : List Record} {overrides : Overrides}
    (records : rs.Perm rs') (ids : (rs.map (·.id.key)).Nodup)
    (enums : config.overrides.Perm overrides) (names : (config.overrides.map (·.1)).Nodup) :
    let x : Export := ⟨config, .ofRecords rs⟩
    let y : Export := ⟨{ config with overrides := overrides }, .ofRecords rs'⟩
    x.text = y.text ∧ x.files = y.files := by
  have agrees := agrees_of_perm config records ids enums names
  exact ⟨agrees.text, agrees.files⟩

/-! ## Two records of one name -/

namespace Marks

/-- An enum under the name that the other one has too. -/
def mark (hash : Nat) (file : String) : Record where
  id := ⟨⟨.static, hash⟩, "Mark"⟩
  name := "Mark"
  shape := .enum "Mark" [{ name := "Dot" }, { name := "Dash" }] none
  location := { file, line := 1 }

def ink : Record := mark 1 "ink.py"

def chalk : Record := mark 2 "chalk.py"

def config : Config := { overrides := [("Mark", .untagged), ("Side", .external)] }

/-- The record with the lower id is cited as the first one, though it was entered last. -/
theorem same_outcome_marks :
    [ink, chalk].Perm [chalk, ink] ∧ ([ink, chalk].map (·.id.key)).Nodup ∧
      config.overrides.Perm [("Side", .external), ("Mark", .untagged)] ∧
      (config.overrides.map (·.1)).Nodup ∧
      let x : Export := ⟨config, .ofRecords [ink, chalk]⟩
      let y : Export := ⟨{ config with overrides := [("Side", .external), ("Mark", .untagged)] },
        .ofRecords [chalk, ink]⟩
      x.text = y.text ∧ x.files = y.files ∧
        y.text = .error (.duplicateName "Mark" ink.location chalk.location) := by
  have records : [ink, chalk].Perm [chalk, ink] := List.Perm.swap _ _ _
  have enums : config.overrides.Perm [("Side", .external), ("Mark", .untagged)] := List.Perm.swap _ _ _
  have ids : ([ink, chalk].map (·.id.key)).Nodup := by decide
  have names : (config.overrides.map (·.1)).Nodup := by decide
  have cited : (⟨config, .ofRecords [ink, chalk]⟩ : Export).text =
      .error (.duplicateName "Mark" ink.location chalk.location) := by cbv
  obtain ⟨text, files⟩ := same_outcome_of_perm config records ids enums names
  exact ⟨records, ids, enums, names, text, files, text.symm.trans cited⟩

end Marks

end ShapeExport.Export
