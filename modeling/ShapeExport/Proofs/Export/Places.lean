import Mathlib
import ShapeExport.Proofs.Export.Directory

/-!
# Records at different places

* `Export.Clashes`, `Export.place_eq_iff` : records that cannot both be declared, and that they have one place;
* `Export.checkNames_eq_ok` : which records pass the check of names;
* `Export.checkNames_eq_error` : what it fails with: a name by itself, or two records that clash;
* `Export.displayName_of_filePath` : one file means one name;
* `Export.checkNames_exact` : the check is exact, and after it no file is written over another.
-/

namespace ShapeExport

namespace Export
open FilePath

variable {x : Export} {r s : Record}

/-- The records have one file if each record has its own, and else one name. -/
def Clashes (x : Export) (r s : Record) : Prop :=
  if x.config.layout = .perTypeFile then x.filePath r = x.filePath s else x.displayName r = x.displayName s

theorem place_eq_iff : x.place r = x.place s ↔ x.Clashes r s := by
  unfold place Clashes
  split
  · exact text_inj (isCut_ofPieces _) (isCut_ofPieces _)
  · exact Iff.rfl

/-! ## The check -/

/-- Records pass if their names may be declared and no two of them clash. -/
theorem checkNames_eq_ok (own : x.types.OwnIds) : x.checkNames = .ok () ↔
    (∀ r ∈ x.types.records,
      x.displayName r ∉ x.config.language.reservedTypeNames ∧ isTypeName (x.displayName r)) ∧
    x.types.records.Pairwise fun r s => ¬ x.Clashes r s := by
  constructor
  · intro h
    refine ⟨fun r hr => checkTypeName_of_checkNames h hr, ?_⟩
    have ids : x.types.records.Pairwise fun r s => r.id.key ≠ s.id.key := List.pairwise_map.1 own.nodup
    refine ids.imp_of_mem fun hr hs apart clash => apart ?_
    exact place_of_checkNames h hr hs (place_eq_iff.2 clash)
  · rintro ⟨names, apart⟩
    refine checkNames_of_nodup names (List.pairwise_map.2 (apart.imp fun clash e => ?_))
    exact clash (place_eq_iff.1 e)

/-- The error is about two of the records that clash. The one that comes first is cited first. -/
def Cites (x : Export) (rs : List Record) (e : Error) : Prop :=
  ∃ r s, [r, s].Sublist rs ∧ r.id.key ≠ s.id.key ∧ x.Clashes r s ∧
    e = .duplicateName (x.displayName s) r.location s.location

/-- The error refuses the name of a record. -/
def Misnames (x : Export) (rs : List Record) (e : Error) : Prop :=
  ∃ r ∈ rs, x.config.checkTypeName [r.name] (x.displayName r) = .error e

theorem checkNamesFrom_eq_error {taken : List (String × Record)} {before rs : List Record} {e : Error}
    (known : ∀ entry ∈ taken, entry.2 ∈ before ∧ entry.1 = x.place entry.2)
    (h : x.checkNamesFrom taken rs = .error e) : x.Misnames rs e ∨ x.Cites (before ++ rs) e := by
  induction rs generalizing taken before with
  | nil => cases h
  | cons q rs ih =>
    have later : ∀ {taken'}, (∀ entry ∈ taken', entry.2 ∈ before ++ [q] ∧ entry.1 = x.place entry.2) →
        x.checkNamesFrom taken' rs = .error e → x.Misnames (q :: rs) e ∨ x.Cites (before ++ q :: rs) e := by
      intro taken' known' h
      have rest := ih known' h
      rw [List.append_assoc, List.singleton_append] at rest
      exact rest.imp_left fun ⟨r, hr, refused⟩ => ⟨r, List.mem_cons_of_mem q hr, refused⟩
    have kept : ∀ entry ∈ taken, entry.2 ∈ before ++ [q] ∧ entry.1 = x.place entry.2 := fun entry he =>
      (known entry he).imp_left (List.mem_append_left [q])
    rw [checkNamesFrom] at h
    rcases bind_eq_error.1 h with refused | ⟨_, -, h⟩
    · exact Or.inl ⟨q, List.mem_cons_self, refused⟩
    split at h
    · have new : q ∈ before ++ [q] := List.mem_append_right _ (List.mem_singleton_self q)
      exact later (List.forall_mem_cons.2 ⟨⟨new, rfl⟩, kept⟩) h
    · next first found =>
      split at h
      · exact later kept h
      · next apart =>
        obtain ⟨mem, place⟩ := known _ (mem_of_lookup found)
        have order : [first, q].Sublist (before ++ q :: rs) :=
          (List.singleton_sublist.2 mem).append (List.singleton_sublist.2 List.mem_cons_self)
        exact Or.inr ⟨first, q, order, apart, place_eq_iff.1 place.symm, (Except.error.inj h).symm⟩

/-- The check fails with the refusal of a name, or with two records that clash. -/
theorem checkNames_eq_error {e : Error} (h : x.checkNames = .error e) :
    x.Misnames x.types.records e ∨ x.Cites x.types.records e :=
  @checkNamesFrom_eq_error x [] [] _ e (List.forall_mem_nil _) h

theorem checkTypeName_ne_duplicateName {c : Config} {path : Path} {name cited : String} {first second : Location} :
    c.checkTypeName path name ≠ .error (.duplicateName cited first second) := by
  unfold Config.checkTypeName
  split
  · simp
  · split <;> simp

/-! ## Files -/

/-- Records with one file have one name. -/
theorem displayName_of_filePath (hr : isTypeName (x.displayName r)) (hs : isTypeName (x.displayName s))
    (e : x.filePath r = x.filePath s) : x.displayName r = x.displayName s := by
  have names := congrArg FilePath.name e
  rw [name_filePath hr, name_filePath hs] at names
  exact (String.append_left_inj _).1 names

/-- In either layout, records that were checked have different files. -/
theorem nodup_filePath_of_checkNames (own : x.types.OwnIds) (h : x.checkNames = .ok ()) :
    (x.types.records.map x.filePath).Nodup := by
  obtain ⟨names, apart⟩ := (checkNames_eq_ok own).1 h
  refine List.pairwise_map.2 (apart.imp_of_mem fun hr hs clash e => clash ?_)
  unfold Clashes
  split
  · exact e
  · exact displayName_of_filePath (names _ hr).2 (names _ hs).2 e

/-- Each file is that of a record. -/
theorem forall₂_of_files (own : x.types.OwnIds) {files : List (FilePath × String)} (h : x.files = .ok files) :
    List.Forall₂ (fun r file => x.file r = .ok file ∧ file.1 = x.filePath r) x.filed files := by
  have distinct : (x.filed.map x.filePath).Nodup :=
    (nodup_filePath_of_checkNames own (files_eq_ok h).1).sublist ((filed_sublist x).map _)
  exact (mapM_eq_ok.1 (documents_of_files distinct h)).imp fun _ _ rendered => ⟨rendered, file_fst rendered⟩

/-- **Nothing is written over.** The check of names passes exactly if all names may be declared and no two records
clash; when it fails for two records, it cites the places where they were declared. And the files of an export that
succeeds are those of its records, one for each (for JSON Schema, one for each without parameters). -/
theorem checkNames_exact (x : Export) (own : x.types.OwnIds) :
    (x.checkNames = .ok () ↔
      (∀ r ∈ x.types.records,
        x.displayName r ∉ x.config.language.reservedTypeNames ∧ isTypeName (x.displayName r)) ∧
      x.types.records.Pairwise fun r s => ¬ x.Clashes r s) ∧
    (∀ name first second, x.checkNames = .error (.duplicateName name first second) →
      x.Cites x.types.records (.duplicateName name first second)) ∧
    ∀ files, x.files = .ok files →
      (files.map (·.1)).Nodup ∧
      List.Forall₂ (fun r file => x.file r = .ok file ∧ file.1 = x.filePath r) x.filed files ∧
      x.filed.Nodup ∧
      ∀ r, r ∈ x.filed ↔ r ∈ x.types.members ∧ (x.config.language = .jsonschema → r.parameters = []) := by
  refine ⟨checkNames_eq_ok own, fun name first second h => ?_, fun files h =>
    ⟨nodup_paths h, forall₂_of_files own h, ?_, ?_⟩⟩
  · rcases checkNames_eq_error h with ⟨r, -, refused⟩ | cited
    · exact absurd refused checkTypeName_ne_duplicateName
    · exact cited
  · exact own.nodup.of_map.sublist (filed_sublist x)
  · exact fun r => mem_filed

/-! ### One name in two modules -/

namespace Points

def geoPoint : Record where
  id := ⟨⟨.static, 1⟩, "Point"⟩
  name := "Point"
  shape := .primitive .string
  location := ⟨"geo.py", 3⟩
  modulePath := "geo"

def mapPoint : Record where
  id := ⟨⟨.static, 2⟩, "Point"⟩
  name := "Point"
  shape := .primitive .string
  location := ⟨"map.py", 7⟩
  modulePath := "map"

def points (layout : Layout) : Export := ⟨{ banner := "", layout }, .ofRecords [geoPoint, mapPoint]⟩

def files : List (FilePath × String) :=
  [(⟨.relative, ["geo", "Point.ts"]⟩, "export type Point = string;\n"),
    (⟨.relative, ["map", "Point.ts"]⟩, "export type Point = string;\n")]

theorem checkNames_points :
    (points .singleFile).types.OwnIds ∧
    (points .singleFile).checkNames = .error (.duplicateName "Point" ⟨"geo.py", 3⟩ ⟨"map.py", 7⟩) ∧
    (points .singleFile).Cites (points .singleFile).types.records
      (.duplicateName "Point" ⟨"geo.py", 3⟩ ⟨"map.py", 7⟩) ∧
    (points .perTypeFile).checkNames = .ok () ∧
    (points .perTypeFile).files = .ok files ∧ (files.map (·.1)).Nodup ∧
    ∀ r, r ∈ (points .perTypeFile).filed ↔ r ∈ (points .perTypeFile).types.members ∧
      ((points .perTypeFile).config.language = .jsonschema → r.parameters = []) := by
  have own : ∀ layout, (points layout).types.OwnIds := fun _ => Collection.ownIds_ofRecords _
  have refused : (points .singleFile).checkNames = .error (.duplicateName "Point" ⟨"geo.py", 3⟩ ⟨"map.py", 7⟩) := by
    cbv
  have passed : (points .perTypeFile).checkNames = .ok () := by cbv
  have rendered : (points .perTypeFile).files = .ok files := by cbv
  obtain ⟨-, cites, -⟩ := checkNames_exact (points .singleFile) (own _)
  obtain ⟨-, -, entries⟩ := checkNames_exact (points .perTypeFile) (own _)
  obtain ⟨distinct, -, -, filed⟩ := entries files rendered
  exact ⟨own _, refused, cites _ _ _ refused, passed, rendered, distinct, filed⟩

end Points

end Export

end ShapeExport
