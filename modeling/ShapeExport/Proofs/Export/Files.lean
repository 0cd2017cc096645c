import ShapeExport.Proofs.Export.Statements
import ShapeExport.Proofs.OrderedMap

/-!
# Files by their paths

The documents of records are kept by their paths, so that each path has one document.

* `Export.mem_filed` : the records that have a file;
* `Export.files_eq_ok` : the files are made of the documents of these records, whose names were checked;
* `Export.exists_file_of_filed`, `Export.exists_filed_of_mem` : each of the records was rendered, and each file is
  that of one of them;
* `Export.nodup_paths` : no path is there twice;
* `Export.files_of_distinct`, `Export.documents_of_files` : where records have different paths, the files are their
  documents, one for each.
-/

namespace ShapeExport

namespace Export

variable {x : Export} {r : Record} {rs : List Record} {files documents : List (FilePath × String)}

theorem filed_sublist (x : Export) : x.filed.Sublist x.types.records := by
  unfold filed
  split
  · exact List.filter_sublist
  · exact List.Sublist.refl _

theorem mem_filed : r ∈ x.filed ↔ r ∈ x.types.members ∧ (x.config.language = .jsonschema → r.parameters = []) := by
  unfold filed
  split
  · next language => simp [List.mem_filter, Collection.mem_records, Record.isGeneric, language]
  · next language => simp [Collection.mem_records, language]

theorem file_fst {file : FilePath × String} (h : x.file r = .ok file) : file.1 = x.filePath r := by
  have last : ∀ text, (pure (x.filePath r, text) : Except Error _) = .ok file → file.1 = x.filePath r :=
    fun text e => (congrArg Prod.fst (Except.ok.inj e)).symm
  unfold Export.file at h
  split at h
  · obtain ⟨text, -, h⟩ := bind_eq_ok.1 h
    exact last text h
  · obtain ⟨lines, -, h⟩ := bind_eq_ok.1 h
    obtain ⟨text, -, h⟩ := bind_eq_ok.1 h
    exact last text h

theorem paths_of_documents (h : rs.mapM x.file = .ok documents) : documents.map (·.1) = rs.map x.filePath :=
  map_of_mapM h fun _ _ => file_fst

/-- The files are made of the documents of records, and the names of records were checked. -/
theorem files_eq_ok (h : x.files = .ok files) : x.checkNames = .ok () ∧
    ∃ documents, x.filed.mapM x.file = .ok documents ∧ OrderedMap.insertAll [] documents = files := by
  obtain ⟨_, hp, h⟩ := bind_eq_ok.1 h
  obtain ⟨documents, rendered, h⟩ := bind_eq_ok.1 h
  exact ⟨checkNames_of_prepare hp, documents, rendered, Except.ok.inj h⟩

theorem exists_file_of_filed (h : x.files = .ok files) (hr : r ∈ x.filed) : ∃ file, x.file r = .ok file := by
  obtain ⟨-, documents, rendered, -⟩ := files_eq_ok h
  obtain ⟨file, -, hf⟩ := exists_of_mapM rendered hr
  exact ⟨file, hf⟩

/-- Each file is that of a record. -/
theorem exists_filed_of_mem (h : x.files = .ok files) {file : FilePath × String} (hf : file ∈ files) :
    ∃ r ∈ x.filed, x.file r = .ok file := by
  obtain ⟨-, documents, rendered, rfl⟩ := files_eq_ok h
  refine OrderedMap.forall_mem_insertAll (P := fun file => ∃ r ∈ x.filed, x.file r = .ok file)
    (List.forall_mem_nil _) (fun document hd => ?_) file hf
  exact exists_of_mem_results rendered hd

theorem nodup_paths (h : x.files = .ok files) : (files.map (·.1)).Nodup := by
  obtain ⟨-, documents, -, rfl⟩ := files_eq_ok h
  exact OrderedMap.nodup_insertAll (m := []) List.nodup_nil documents

/-! ## Records with different paths -/

theorem insertAll_documents (distinct : (x.filed.map x.filePath).Nodup)
    (rendered : x.filed.mapM x.file = .ok documents) : OrderedMap.insertAll [] documents = documents := by
  refine OrderedMap.insertAll_of_nodup (m := []) ?_
  show (documents.map (·.1)).Nodup
  rw [paths_of_documents rendered]
  exact distinct

theorem files_of_distinct (prepared : x.prepare = .ok ()) (distinct : (x.filed.map x.filePath).Nodup)
    (rendered : x.filed.mapM x.file = .ok documents) : x.files = .ok documents :=
  bind_eq_ok.2 ⟨(), prepared, bind_eq_ok.2 ⟨documents, rendered,
    congrArg Except.ok (insertAll_documents distinct rendered)⟩⟩

theorem exists_files (prepared : x.prepare = .ok ()) (distinct : (x.filed.map x.filePath).Nodup)
    (each : ∀ r ∈ x.filed, ∃ file, x.file r = .ok file) :
    ∃ files, x.files = .ok files ∧ x.filed.mapM x.file = .ok files := by
  obtain ⟨documents, rendered⟩ := exists_mapM each
  exact ⟨documents, files_of_distinct prepared distinct rendered, rendered⟩

/-- Then the files are those of the records, one for each. -/
theorem documents_of_files (distinct : (x.filed.map x.filePath).Nodup) (h : x.files = .ok files) :
    x.filed.mapM x.file = .ok files := by
  obtain ⟨-, documents, rendered, rfl⟩ := files_eq_ok h
  rwa [insertAll_documents distinct rendered]

end Export

end ShapeExport
