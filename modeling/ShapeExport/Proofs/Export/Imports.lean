import Mathlib
import ShapeExport.Proofs.Export.Files
import ShapeExport.Proofs.Export.Specifiers

/-!
# What the file of a record imports

* `Export.IsFileOf` : a file taken apart, with the records that it imports and the statements in it;
* `Export.mem_importTargets`, `Export.nodup_importTargets` : the imported records are the others that the
  record refers to, each of them once;
* `Collection.BringsUp` : a map key is followed to bodies that refer to a record;
* `Export.binds_mentions_iff` : a file binds what it mentions, except for what map keys bring up with Zod;
* `Export.nodup_names_iff` : a file binds each name once, unless records of different modules share one.
-/

namespace ShapeExport

/-! ## References -/

theorem Shape.Holds.references_subset {s t : Shape} (h : s.Holds t) : t.references ⊆ s.references := by
  induction h with
  | here s => exact List.Subset.refl _
  | @child s c t hc _ ih =>
    refine List.Subset.trans ih fun r hr => ?_
    rw [Shape.references_eq s]
    exact List.mem_append_right _ (List.mem_flatMap.2 ⟨c, Shape.mem_children_of_mem_kept hc, hr⟩)

theorem Record.mem_referenced_of_holds {r : Record} {id : TypeId} {arguments : List Shape}
    (h : r.shape.Holds (.reference id arguments)) : id.key ∈ r.referenced := by
  refine List.mem_map.2 ⟨⟨id, arguments⟩, h.references_subset ?_, rfl⟩
  rw [Shape.references_eq]
  exact List.mem_append_left _ (List.mem_singleton_self _)

/-- A map key is followed into records, and in their bodies, or in what is rendered for these, stands a
reference to the record with this key. -/
def Collection.BringsUp (c : Collection) (s : Shape) (k : TypeKey) : Prop :=
  ∃ key value body id arguments, s.Holds (.map key value) ∧ c.KeyBody key body ∧
    c.Involves body (.reference id arguments) ∧ id.key = k

namespace TypeScript

/-- Records with keys of a kind, and any parameters and texts. -/
def Vocabulary.ofKeys (P : TypeKey → Prop) : Vocabulary := ⟨fun k _ _ => P k, fun _ => True, fun _ => True⟩

theorem Vocabulary.admits_ofKeys {P : TypeKey → Prop} {x : Export} (own : x.types.OwnIds) {t : Shape}
    (h : ∀ id arguments, t = .reference id arguments → P id.key) : (Vocabulary.ofKeys P).Admits x t := by
  cases t with
  | reference id arguments =>
    intro r hr
    show P r.id.key
    rw [own _ _ hr]
    exact h id arguments rfl
  | foreign value => cases value <;> trivial
  | _ => trivial

end TypeScript

namespace Export
open TypeScript (Vocabulary)

variable {x : Export} {r : Record} {targets : List Record} {ss : List Statement}

/-! ## Imported records -/

/-- The imported records have the keys that a record refers to, each once and without its own. -/
theorem keys_importTargets (own : x.types.OwnIds) (h : x.importTargets r = .ok targets) :
    (targets.map (·.id.key)).Nodup ∧ (∀ t ∈ targets, t ∈ x.types.records) ∧
      ∀ k, k ∈ targets.map (·.id.key) ↔ k ∈ r.referenced ∧ k ≠ r.id.key := by
  obtain ⟨found, hf, h⟩ := bind_eq_ok.1 h
  have perm : targets.Perm found := by
    rw [← Except.ok.inj h]
    exact List.mergeSort_perm _ _
  have keys : found.map (·.id.key) = (Text.distinctBy TypeId.key
      ((r.shape.references.map (·.id)).filter (·.key ≠ r.id.key))).map TypeId.key := by
    have each := (mapM_eq_ok.1 hf).flip.imp fun t id ht => own _ _ (resolve_of_target ht)
    exact List.forall₂_eq_eq_eq ▸ List.forall₂_map_left_iff.2 (List.forall₂_map_right_iff.2 each)
  have permKeys := perm.map (·.id.key)
  rw [keys] at permKeys
  refine ⟨permKeys.nodup_iff.2 (Text.nodup_distinctBy _), fun t ht => ?_, fun k => ?_⟩
  · obtain ⟨id, -, ht⟩ := exists_of_mem_results hf (perm.subset ht)
    exact Collection.mem_records.2 (Collection.mem_members_of_resolve (resolve_of_target ht))
  · rw [permKeys.mem_iff, Text.mem_map_distinctBy]
    simp only [Record.referenced, List.mem_map, List.mem_filter, decide_eq_true_eq]
    constructor
    · rintro ⟨id, ⟨⟨ref, hr, rfl⟩, hne⟩, rfl⟩
      exact ⟨⟨ref, hr, rfl⟩, hne⟩
    · rintro ⟨⟨ref, hr, rfl⟩, hne⟩
      exact ⟨ref.id, ⟨⟨ref, hr, rfl⟩, hne⟩, rfl⟩

/-! ## Files -/

/-- The file of a record is its statements below import lines for other records. -/
structure IsFileOf (x : Export) (r : Record) (targets : List Record) (ss : List Statement)
    (file : FilePath × String) : Prop where
  imported : x.importTargets r = .ok targets
  declared : x.statements r = .ok ss
  written : ∃ lines, targets.mapM (x.importLine r) = .ok lines ∧
    file = (x.filePath r, x.documentText [r] lines [ss])

theorem exists_isFileOf_iff (language : x.config.language ≠ .jsonschema) {file : FilePath × String} :
    (∃ targets ss, x.IsFileOf r targets ss file) ↔ x.file r = .ok file := by
  rw [file_eq_ok language, Export.imports, if_neg language]
  constructor
  · rintro ⟨targets, ss, imported, declared, lines, hl, rfl⟩
    exact ⟨lines, ss, bind_eq_ok.2 ⟨targets, imported, hl⟩, declared, rfl⟩
  · rintro ⟨lines, ss, hl, hs, rfl⟩
    obtain ⟨targets, ht, hl⟩ := bind_eq_ok.1 hl
    exact ⟨targets, ss, ht, hs, lines, hl, rfl⟩

theorem isFileOf_of_file (language : x.config.language ≠ .jsonschema) (imported : x.importTargets r = .ok targets)
    (declared : x.statements r = .ok ss) {file : FilePath × String} (h : x.file r = .ok file) :
    x.IsFileOf r targets ss file := by
  obtain ⟨targets', ss', parts⟩ := (exists_isFileOf_iff language).2 h
  rwa [Except.ok.inj (parts.imported.symm.trans imported),
    Except.ok.inj (parts.declared.symm.trans declared)] at parts

/-- Each file of a script export is the file of a record. -/
theorem exists_isFileOf (language : x.config.language ≠ .jsonschema) {files : List (FilePath × String)}
    (h : x.files = .ok files) {file : FilePath × String} (hf : file ∈ files) :
    ∃ r ∈ x.types.records, ∃ targets ss, x.IsFileOf r targets ss file := by
  obtain ⟨r, hr, hf⟩ := exists_filed_of_mem h hf
  exact ⟨r, (filed_sublist x).subset hr, (exists_isFileOf_iff language).2 hf⟩

/-! ## Mentioned records -/

/-- The record with this key is the declared one, or it is imported. -/
def Binds (r : Record) (targets : List Record) (k : TypeKey) : Prop :=
  k = r.id.key ∨ k ∈ targets.map (·.id.key)

theorem binds_iff (own : x.types.OwnIds) (h : x.importTargets r = .ok targets) {k : TypeKey} :
    Binds r targets k ↔ k = r.id.key ∨ k ∈ r.referenced := by
  rw [Binds, (keys_importTargets own h).2.2]
  constructor
  · rintro (hk | hk)
    · exact Or.inl hk
    · exact Or.inr hk.1
  · rintro (hk | hk)
    · exact Or.inl hk
    · by_cases e : k = r.id.key
      · exact Or.inl e
      · exact Or.inr ⟨hk, e⟩

theorem mem_referenced_of_typeExpr (own : x.types.OwnIds) {path : Path} {type : TypeScript.TypeExpr}
    (h : x.typeExpr path r.shape = .ok type) {k : TypeKey} {name : String}
    {arguments : List TypeScript.TypeExpr} (hk : type.Holds (.named k name arguments)) : k ∈ r.referenced := by
  have covers : (Vocabulary.ofKeys (· ∈ r.referenced)).Covers x r.shape := fun t ht =>
    Vocabulary.admits_ofKeys own fun id arguments e => Record.mem_referenced_of_holds (e ▸ ht)
  exact (formed_typeExpr covers h).names hk

theorem mem_referenced_or_of_schema (own : x.types.OwnIds) {path : Path} {schema : Zod.Schema}
    (h : x.schema path r.shape = .ok schema) {k : TypeKey} {name : String} {arguments : List Zod.Schema}
    (hk : schema.Holds (.lazy k name arguments)) : k ∈ r.referenced ∨ x.types.BringsUp r.shape k := by
  have spans : (Vocabulary.ofKeys fun k => k ∈ r.referenced ∨ x.types.BringsUp r.shape k).Spans x r.shape := by
    refine fun t ht => Vocabulary.admits_ofKeys own fun id arguments e => ?_
    subst e
    rcases ht.holds_or with hs | ⟨key, value, body, hm, hb, hi⟩
    · exact Or.inl (Record.mem_referenced_of_holds hs)
    · exact Or.inr ⟨key, value, body, id, arguments, hm, hb, hi, rfl⟩
  exact (formed_schemaExpr spans h).names hk

/-- What a declaration mentions the record refers to, or with Zod a map key brings it up. -/
theorem mem_referenced_or_of_mentions (own : x.types.OwnIds) (h : x.statements r = .ok ss) {s : Statement}
    (hs : s ∈ ss) {k : TypeKey} (hk : s.Mentions k) :
    k ∈ r.referenced ∨ (x.config.language = .zod ∧ x.types.BringsUp r.shape k) := by
  have inSchema {schema : Zod.Schema} (e : s.schema? = some schema) {name : String}
      {arguments : List Zod.Schema} (hk : schema.Holds (.lazy k name arguments)) :
      k ∈ r.referenced ∨ (x.config.language = .zod ∧ x.types.BringsUp r.shape k) := by
    obtain ⟨zod, rendered⟩ := schema_of_mem_statements h hs e
    exact (mem_referenced_or_of_schema own rendered hk).imp_right fun hb => ⟨zod, hb⟩
  cases s with
  | typeAlias n ps type =>
    obtain ⟨name, arguments, hk⟩ := hk
    exact Or.inl (mem_referenced_of_typeExpr own (typeExpr_of_mem_statements h hs) hk)
  | inferred n => exact hk.elim
  | constant | builder =>
    obtain ⟨name, arguments, hk⟩ := hk
    exact inSchema rfl hk

/-- **Imports.** Each file of an export is a declaration below imports. In TypeScript it declares or imports
each record that its declaration mentions. With Zod it does so exactly if the records that map keys bring up
are the declared one or among those that it refers to itself. -/
theorem binds_mentions_iff (own : x.types.OwnIds) (language : x.config.language ≠ .jsonschema)
    {files : List (FilePath × String)} (h : x.files = .ok files) {file : FilePath × String} (hf : file ∈ files) :
    ∃ r ∈ x.types.records, ∃ targets ss, x.IsFileOf r targets ss file ∧
      (x.config.language = .typescript → ∀ s ∈ ss, ∀ k, s.Mentions k → Binds r targets k) ∧
      (x.config.language = .zod → ((∀ s ∈ ss, ∀ k, s.Mentions k → Binds r targets k) ↔
        ∀ s ∈ ss, ∀ k, s.Mentions k → x.types.BringsUp r.shape k → k = r.id.key ∨ k ∈ r.referenced)) := by
  obtain ⟨r, hr, targets, ss, parts⟩ := exists_isFileOf language h hf
  have binds (k : TypeKey) : Binds r targets k ↔ k = r.id.key ∨ k ∈ r.referenced :=
    binds_iff own parts.imported
  refine ⟨r, hr, targets, ss, parts, fun typescript s hs k hk => ?_, fun zod => ⟨?_, ?_⟩⟩
  · rcases mem_referenced_or_of_mentions own parts.declared hs hk with hm | ⟨zod, -⟩
    · exact (binds k).2 (Or.inr hm)
    · rw [typescript] at zod
      cases zod
  · intro all s hs k hk _
    exact (binds k).1 (all s hs k hk)
  · intro broughtUp s hs k hk
    refine (binds k).2 ?_
    rcases mem_referenced_or_of_mentions own parts.declared hs hk with hm | ⟨-, hb⟩
    · exact Or.inr hm
    · exact broughtUp s hs k hk hb

/-! ### A map key that leads to another record

The keys of `Index` are those of `Key`, which stands for `Tag`. -/

namespace Indexed

def tag : Record where
  id := ⟨⟨.static, 1⟩, "Tag"⟩
  name := "Tag"
  shape := .primitive .string

def key : Record where
  id := ⟨⟨.static, 2⟩, "Key"⟩
  name := "Key"
  shape := .enum "Key" [{ name := "Tagged", body := .positional [{ name := none, ty := .reference tag.id [] }] }]
    (some .untagged)

def index : Record where
  id := ⟨⟨.static, 3⟩, "Index"⟩
  name := "Index"
  shape := .map (.reference key.id []) (.primitive .i32)

def indexed : Export := ⟨{ language := .zod, layout := .perTypeFile }, .ofRecords [index, key, tag]⟩

def indexStatements : List Statement :=
  [.constant "Index" false (.record (.lazy tag.id.key "Tag" []) (.scalar .integer)), .inferred "Index"]

theorem ownIds : indexed.types.OwnIds := Collection.ownIds_ofRecords _

theorem language_ne : indexed.config.language ≠ .jsonschema := by decide

theorem records_indexed : indexed.types.records = [index, key, tag] := by
  have sorted : List.Pairwise (fun a b => Record.le a b) [index, key, tag] := by decide
  exact List.mergeSort_of_pairwise sorted

theorem files_indexed : ∃ files, indexed.files = .ok files ∧ ∃ file ∈ files,
    indexed.IsFileOf index [key] indexStatements file := by
  have prepared : indexed.prepare = .ok () :=
    prepare_of_records records_indexed (by cbv) (fun _ => by cbv) (by decide) (by decide)
  have indexTargets : indexed.importTargets index = .ok [key] := by cbv
  have indexFile : indexed.imports index = .ok ["import \x7b Key \x7d from \"./Key\";"] := by cbv
  have keyFile : indexed.imports key = .ok ["import \x7b Tag \x7d from \"./Tag\";"] := by cbv
  have tagFile : indexed.imports tag = .ok [] := by cbv
  have indexSchema : indexed.statements index = .ok indexStatements := by cbv
  have keySchema : indexed.statements key =
      .ok [.constant "Key" false (.lazy tag.id.key "Tag" []), .inferred "Key"] := by cbv
  have tagSchema : indexed.statements tag = .ok [.constant "Tag" false (.scalar .string), .inferred "Tag"] := by
    cbv
  have filed : indexed.filed = [index, key, tag] := by rw [Export.filed, if_neg language_ne, records_indexed]
  have each : ∀ r ∈ indexed.filed, ∃ file, indexed.file r = .ok file := by
    rw [filed, List.forall_mem_cons, List.forall_mem_cons, List.forall_mem_singleton]
    exact ⟨exists_file language_ne indexFile indexSchema, exists_file language_ne keyFile keySchema,
      exists_file language_ne tagFile tagSchema⟩
  have distinct : (indexed.filed.map indexed.filePath).Nodup := by
    rw [filed]
    decide
  obtain ⟨files, h, rendered⟩ := exists_files prepared distinct each
  have indexIn : index ∈ indexed.filed := by
    rw [filed]
    exact List.mem_cons_self
  obtain ⟨file, hm, hf⟩ := exists_of_mapM rendered indexIn
  exact ⟨files, h, file, hm, isFileOf_of_file language_ne indexTargets indexSchema hf⟩

/-- The file of `Index` mentions `Tag` and imports `Key`. -/
theorem tag_not_bound : ∃ files, indexed.files = .ok files ∧ ∃ file ∈ files,
    indexed.IsFileOf index [key] indexStatements file ∧
      ∃ s ∈ indexStatements, s.Mentions tag.id.key ∧ ¬ Binds index [key] tag.id.key := by
  obtain ⟨files, h, file, hm, parts⟩ := files_indexed
  refine ⟨files, h, file, hm, parts, _, List.mem_cons_self, ⟨"Tag", [], ?_⟩, ?_⟩
  · exact .child List.mem_cons_self (.here _)
  · unfold Binds
    decide

/-- So what `Index` does not bind is what its key brings up. -/
theorem binds_mentions_index : ∃ files, indexed.files = .ok files ∧ ∃ file ∈ files,
    ∃ r ∈ indexed.types.records, ∃ targets ss, indexed.IsFileOf r targets ss file ∧
      ((∀ s ∈ ss, ∀ k, s.Mentions k → Binds r targets k) ↔
        ∀ s ∈ ss, ∀ k, s.Mentions k → indexed.types.BringsUp r.shape k → k = r.id.key ∨ k ∈ r.referenced) := by
  obtain ⟨files, h, file, hm, -⟩ := files_indexed
  obtain ⟨r, hr, targets, ss, parts, -, zod⟩ := binds_mentions_iff ownIds language_ne h hm
  exact ⟨files, h, file, hm, r, hr, targets, ss, parts, zod rfl⟩

end Indexed

/-! ## Names in a file -/

/-- Records of one name in one module are one record. -/
theorem eq_of_displayName (own : x.types.OwnIds) (names : x.checkNames = .ok ()) {s t : Record}
    (hs : s ∈ x.types.records) (ht : t ∈ x.types.records) (name : x.displayName s = x.displayName t)
    (modules : s.modules = t.modules) : s = t := by
  have place : x.place s = x.place t := by
    have path : x.filePath s = x.filePath t := by
      show FilePath.ofPieces (s.modules ++ _) = FilePath.ofPieces (t.modules ++ _)
      rw [modules, name]
    unfold Export.place
    rw [path, name]
  exact own.eq_of_key (Collection.mem_records.1 hs) (Collection.mem_records.1 ht)
    (place_of_checkNames names hs ht place)

/-- **Names.** The names that a file declares and imports are different exactly if none of them is shared by
records of different modules. -/
theorem nodup_names_iff (own : x.types.OwnIds) (language : x.config.language ≠ .jsonschema)
    {files : List (FilePath × String)} (h : x.files = .ok files) {file : FilePath × String} (hf : file ∈ files) :
    ∃ r ∈ x.types.records, ∃ targets ss, x.IsFileOf r targets ss file ∧
      (∀ s ∈ ss, s.name = x.displayName r) ∧
      (((r :: targets).map x.displayName).Nodup ↔
        ∀ s ∈ r :: targets, ∀ t ∈ r :: targets, x.displayName s = x.displayName t → s.modules = t.modules) := by
  obtain ⟨r, hr, targets, ss, parts⟩ := exists_isFileOf language h hf
  obtain ⟨nodup, records, keys⟩ := keys_importTargets own parts.imported
  have all : ∀ s ∈ r :: targets, s ∈ x.types.records := List.forall_mem_cons.2 ⟨hr, records⟩
  have distinct : (r :: targets).Nodup := by
    have ids : ((r :: targets).map (·.id.key)).Nodup := by
      rw [List.map_cons, List.nodup_cons]
      exact ⟨fun hm => ((keys _).1 hm).2 rfl, nodup⟩
    exact ids.of_map
  have declared : ∀ s ∈ ss, s.name = x.displayName r := fun s => name_of_mem_statements parts.declared
  refine ⟨r, hr, targets, ss, parts, declared, fun names s hs t ht e => ?_, fun modules => ?_⟩
  · rw [List.inj_on_of_nodup_map names hs ht e]
  · refine distinct.map_on fun s hs t ht e => ?_
    exact eq_of_displayName own (files_eq_ok h).1 (all s hs) (all t ht) e (modules s hs t ht e)

/-! ### Two records of one name

`Page` refers to the `Widget` of one module and to that of another one. -/

namespace Widgets

def widget (hash : Nat) (modulePath : String) : Record where
  id := ⟨⟨.static, hash⟩, "Widget"⟩
  name := "Widget"
  shape := .primitive .string
  modulePath

def admin : Record := widget 1 "admin"

def shop : Record := widget 2 "shop"

def page : Record where
  id := ⟨⟨.static, 3⟩, "Page"⟩
  name := "Page"
  shape := .tuple [.reference shop.id [], .reference admin.id []]

def site : Export := ⟨{ layout := .perTypeFile }, .ofRecords [page, admin, shop]⟩

theorem ownIds : site.types.OwnIds := Collection.ownIds_ofRecords _

theorem language_ne : site.config.language ≠ .jsonschema := by decide

theorem records_site : site.types.records = [page, admin, shop] := by
  have sorted : List.Pairwise (fun a b => Record.le a b) [page, admin, shop] := by decide
  exact List.mergeSort_of_pairwise sorted

theorem files_site : ∃ files, site.files = .ok files ∧ ∃ file ∈ files, ∃ ss,
    site.IsFileOf page [admin, shop] ss file := by
  have prepared : site.prepare = .ok () :=
    prepare_of_records records_site (by cbv) (fun _ => by cbv) (by decide) (by decide)
  have targets : site.importTargets page = .ok [admin, shop] := by cbv
  have imports : site.imports page = .ok ["import type \x7b Widget \x7d from \"./admin/Widget\";",
      "import type \x7b Widget \x7d from \"./shop/Widget\";"] := by cbv
  have none (r : Record) (h : r = admin ∨ r = shop) : site.imports r = .ok [] := by
    rcases h with rfl | rfl <;> cbv
  have pageType : site.statements page = .ok [.typeAlias "Page" []
      (.tuple [.named shop.id.key "Widget" [], .named admin.id.key "Widget" []])] := by cbv
  have widgetType (r : Record) (h : r = admin ∨ r = shop) :
      site.statements r = .ok [.typeAlias "Widget" [] (.builtin "string")] := by
    rcases h with rfl | rfl <;> cbv
  have filed : site.filed = [page, admin, shop] := by rw [Export.filed, if_neg language_ne, records_site]
  have each : ∀ r ∈ site.filed, ∃ file, site.file r = .ok file := by
    rw [filed, List.forall_mem_cons, List.forall_mem_cons, List.forall_mem_singleton]
    exact ⟨exists_file language_ne imports pageType,
      exists_file language_ne (none _ (Or.inl rfl)) (widgetType _ (Or.inl rfl)),
      exists_file language_ne (none _ (Or.inr rfl)) (widgetType _ (Or.inr rfl))⟩
  have distinct : (site.filed.map site.filePath).Nodup := by
    rw [filed]
    decide
  obtain ⟨files, h, rendered⟩ := exists_files prepared distinct each
  have pageIn : page ∈ site.filed := by
    rw [filed]
    exact List.mem_cons_self
  obtain ⟨file, hm, hf⟩ := exists_of_mapM rendered pageIn
  exact ⟨files, h, file, hm, _, isFileOf_of_file language_ne targets pageType hf⟩

/-- The file of `Page` brings in one name twice. -/
theorem page_imports_twice : ∃ files, site.files = .ok files ∧ ∃ file ∈ files, ∃ ss,
    site.IsFileOf page [admin, shop] ss file ∧
      ([page, admin, shop].map site.displayName) = ["Page", "Widget", "Widget"] ∧
      ¬ ([page, admin, shop].map site.displayName).Nodup := by
  obtain ⟨files, h, file, hm, ss, parts⟩ := files_site
  exact ⟨files, h, file, hm, ss, parts, by decide, by decide⟩

/-- A record of that name in another module is among those that `Page` imports. -/
theorem nodup_names_page : ∃ files, site.files = .ok files ∧ ∃ file ∈ files,
    ∃ r ∈ site.types.records, ∃ targets ss, site.IsFileOf r targets ss file ∧
      (((r :: targets).map site.displayName).Nodup ↔ ∀ s ∈ r :: targets, ∀ t ∈ r :: targets,
        site.displayName s = site.displayName t → s.modules = t.modules) := by
  obtain ⟨files, h, file, hm, -⟩ := files_site
  obtain ⟨r, hr, targets, ss, parts, -, names⟩ := nodup_names_iff ownIds language_ne h hm
  exact ⟨files, h, file, hm, r, hr, targets, ss, parts, names⟩

end Widgets

end Export

end ShapeExport
