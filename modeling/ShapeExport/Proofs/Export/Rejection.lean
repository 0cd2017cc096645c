import Mathlib
import ShapeExport.Output
import ShapeExport.Proofs.Export.Files
import ShapeExport.Proofs.FileTree.Writing

/-!
# Exports that are refused

* `FilePath.HoldsNull` : a name on a path holds the character that no path may hold;
* `FileTree.find?_makeDirectories` : creating directories changes nothing that is there;
* `FileTree.fault_of_write` : the faults of a write that are no errors of the file system;
* `Export.write_rejected` : what is left behind by an export that is refused for another reason than its
  output.
-/

namespace ShapeExport

/-- Whether an error is one of writing, of cleaning up, or of a formatter. -/
def Error.isOutput : Error → Bool
  | .writeFailed .. | .cleanUpFailed .. | .formatterMissing _ => true
  | _ => false

/-! ## The null character -/

namespace FilePath

/-- A name of the path holds the character that no path may hold. -/
def HoldsNull (path : FilePath) : Prop := ∃ name ∈ path.names, '\x00' ∈ name.toList

theorem mem_intercalate {c : Char} (hc : c ≠ '/') (names : List String) :
    c ∈ ("/".intercalate names).toList ↔ ∃ name ∈ names, c ∈ name.toList := by
  induction names with
  | nil => simp
  | cons name names ih =>
    cases names with
    | nil => simp
    | cons next names =>
      rw [String.intercalate_cons_cons, String.toList_append, String.toList_append, List.mem_append,
        List.mem_append, ih]
      simp [hc]

theorem null_mem_text {path : FilePath} : '\x00' ∈ path.text.toList ↔ path.HoldsNull := by
  unfold FilePath.text HoldsNull
  split
  · next empty =>
    rw [List.isEmpty_iff.1 empty.2]
    constructor
    · intro h
      exact absurd h (by decide)
    · rintro ⟨_, h, -⟩
      cases h
  · have anchor : '\x00' ∉ path.anchor.text.toList := by cases path.anchor <;> decide
    rw [String.toList_append, List.mem_append, mem_intercalate (by decide), or_iff_right anchor]

theorem HoldsNull.of_parent {path : FilePath} (h : path.parent.HoldsNull) : path.HoldsNull := by
  obtain ⟨name, hm, hc⟩ := h
  exact ⟨name, List.mem_of_mem_dropLast hm, hc⟩

/-- The name of a draft is made of the name of the file. -/
theorem HoldsNull.of_draft {path : FilePath} (h : (FileTree.draft path).HoldsNull) : path.HoldsNull := by
  obtain ⟨name, hm, hc⟩ := h
  rcases List.mem_append.1 hm with hm | hm
  · exact of_parent ⟨name, hm, hc⟩
  · rw [List.mem_singleton.1 hm, String.toList_append, String.toList_append] at hc
    have own : '\x00' ∈ path.name.toList := by
      rcases List.mem_append.1 hc with hc | hc
      · rcases List.mem_append.1 hc with hc | hc
        · exact absurd hc (by decide)
        · exact hc
      · exact absurd hc (by decide)
    unfold FilePath.name at own
    cases last : path.names.getLast? with
    | none =>
      rw [last] at own
      cases own
    | some name' =>
      rw [last] at own
      exact ⟨name', List.mem_of_mem_getLast? last, own⟩

end FilePath

/-! ## Faults of a write -/

namespace FileTree

variable {t t' : FileTree} {p : Place} {path : FilePath} {atomic : Bool} {text : String} {fault : FileFault}

/-- A fault that has nothing to do with what is there. -/
def isForeign : FileFault → Bool
  | .nullCharacter | .tooManyLevels => true
  | _ => false

theorem pathFault_foreign (h : pathFault? path = some fault) (hf : isForeign fault) :
    fault = .nullCharacter ∧ path.HoldsNull := by
  unfold pathFault? at h
  split at h
  · next null =>
    exact ⟨(Option.some.inj h).symm, FilePath.null_mem_text.1 (by simpa using null)⟩
  · split at h
    · rw [← Option.some.inj h] at hf
      cases hf
    · cases h

theorem locateFrom_not_foreign {names : List String} (h : t.locateFrom p names = .error fault) :
    isForeign fault = false := by
  fun_induction locateFrom t p names with
  | case1 => cases h
  | case2 => cases h; rfl
  | case3 => cases h; rfl
  | case4 _ _ _ ih => exact ih h
  | case5 => cases h; rfl
  | case6 _ _ _ _ _ _ ih => exact ih h

theorem locate_foreign (h : t.locate path = .error fault) (hf : isForeign fault) :
    fault = .nullCharacter ∧ path.HoldsNull := by
  unfold locate at h
  split at h
  · next fault' hp =>
    obtain rfl := Except.error.inj h
    exact pathFault_foreign hp hf
  · rw [locateFrom_not_foreign h] at hf
    cases hf

theorem put_foreign (h : t.put atomic path text = .error fault) (hf : isForeign fault) :
    fault = .nullCharacter ∧ path.HoldsNull := by
  have plain (h : t.put false path text = .error fault) : fault = .nullCharacter ∧ path.HoldsNull := by
    rw [put_plain] at h
    rcases bind_eq_error.1 h with h | ⟨p, -, h⟩
    · exact locate_foreign h hf
    · split at h
      · rw [← Except.error.inj h] at hf
        cases hf
      · cases h
  cases atomic with
  | false => exact plain h
  | true =>
    rw [put_atomic] at h
    rcases bind_eq_error.1 h with h | ⟨_, -, h⟩
    · obtain ⟨e, null⟩ := locate_foreign h hf
      exact ⟨e, null.of_draft⟩
    · exact plain h

theorem makeDirectoriesFrom_not_foreign {names : List String} (h : (t.makeDirectoriesFrom p names).2 = .error fault) :
    isForeign fault = false := by
  induction names generalizing t p with
  | nil => cases h
  | cons name names ih =>
    rw [makeDirectoriesFrom] at h
    split at h
    · exact ih h
    · split at h
      · cases h
        rfl
      · split at h
        · exact ih h
        · split at h
          · cases h
            rfl
          · cases h
            rfl
        · exact ih h

theorem makeDirectories_foreign (h : (t.makeDirectories path).2 = .error fault) (hf : isForeign fault) :
    fault = .nullCharacter ∧ path.HoldsNull ∨
      fault = .tooManyLevels ∧ maxLevels < t.missingLevels (t.start path) path.names ∧
        (t.makeDirectories path).1 = t := by
  unfold makeDirectories at h ⊢
  split at h
  · next fault' hp =>
    obtain rfl := Except.error.inj h
    exact Or.inl (pathFault_foreign hp hf)
  · split at h
    · next levels =>
      right
      rw [if_pos levels]
      exact ⟨(Except.error.inj h).symm, levels, rfl⟩
    · rw [makeDirectoriesFrom_not_foreign h] at hf
      cases hf

/-- A write that fails with such a fault leaves the directories that it has created. -/
theorem fault_of_write (h : t.write atomic path text = (t', .error fault)) (hf : isForeign fault) :
    fault = .nullCharacter ∧ path.HoldsNull ∧ t' = (t.makeDirectories path.parent).1 ∨
      fault = .tooManyLevels ∧ maxLevels < t.missingLevels (t.start path.parent) path.parent.names ∧ t' = t := by
  unfold write at h
  split at h
  · next u fault' made =>
    cases h
    rcases makeDirectories_foreign (congrArg Prod.snd made) hf with ⟨e, null⟩ | ⟨e, levels, same⟩
    · exact Or.inl ⟨e, null.of_parent, (congrArg Prod.fst made).symm⟩
    · exact Or.inr ⟨e, levels, (congrArg Prod.fst made).symm.trans same⟩
  · next u _ made =>
    split at h
    · next fault' put =>
      cases h
      obtain ⟨e, null⟩ := put_foreign put hf
      exact Or.inl ⟨e, null, (congrArg Prod.fst made).symm⟩
    · cases h

/-- Creating directories changes nothing that is there. -/
theorem find?_makeDirectoriesFrom {names : List String} {q : Place} {n : FileNode} (h : t.find? q = some n) :
    (t.makeDirectoriesFrom p names).1.find? q = some n := by
  induction names generalizing t p with
  | nil => exact h
  | cons name names ih =>
    rw [makeDirectoriesFrom]
    split
    · exact ih h
    · split
      · exact h
      · split
        · exact ih h
        · exact h
        · next free =>
          apply ih
          rw [find?_set _ _ _ _ (by simp), if_neg, h]
          rintro rfl
          rw [free] at h
          cases h

theorem find?_makeDirectories {q : Place} {n : FileNode} (h : t.find? q = some n) :
    (t.makeDirectories path).1.find? q = some n := by
  unfold makeDirectories
  split
  · exact h
  · split
    · exact h
    · exact find?_makeDirectoriesFrom h

theorem writeFile_error {e : Error} (h : t.writeFile atomic path text = (t', .error e)) :
    ∃ fault, t.write atomic path text = (t', .error fault) ∧ e = .ofFailedWrite path fault := by
  unfold writeFile at h
  rcases hw : t.write atomic path text with ⟨u, fault | _⟩
  · rw [hw] at h
    cases h
    exact ⟨fault, rfl, rfl⟩
  · rw [hw] at h
    cases h

/-- Files are written up to the first one that cannot be. -/
theorem writeAll_error {files : List (FilePath × String)} {e : Error}
    (h : t.writeAll atomic files = (t', .error e)) : ∃ before file after u fault, files = before ++ file :: after ∧
      t.writeAll atomic before = (u, .ok ()) ∧ u.write atomic file.1 file.2 = (t', .error fault) ∧
        e = .ofFailedWrite file.1 fault := by
  induction files generalizing t with
  | nil => cases h
  | cons file files ih =>
    obtain ⟨path, text⟩ := file
    rw [writeAll] at h
    split at h
    · next u e' failed =>
      cases h
      obtain ⟨fault, written, rfl⟩ := writeFile_error failed
      exact ⟨[], (path, text), files, t, fault, rfl, rfl, written, rfl⟩
    · next u _ written =>
      obtain ⟨before, file, after, v, fault, rfl, first, failed, rfl⟩ := ih h
      refine ⟨(path, text) :: before, file, after, v, fault, rfl, ?_, failed, rfl⟩
      exact writeAll_cons_eq_ok.2 ⟨u, writeFile_eq_ok.1 written, first⟩

end FileTree

/-! ## Exports -/

namespace Export
open FileTree

variable {x : Export} {path : FilePath} {t t' : FileTree}

theorem checkOutput_name (l : Language) (s : String) : ShapeExport.checkOutput l.name s = l.checkOutput s := by
  cases l <;> rfl

theorem isForeign_of_ofFailedWrite {fault : FileFault}
    (h : (Error.ofFailedWrite path fault).isOutput = false) : isForeign fault := by
  cases fault
  all_goals first | rfl | exact absurd h (by simp [Error.ofFailedWrite, Error.isOutput])

theorem removeStale_error {written : List FilePath} {e : Error} (h : x.removeStale path written t = (t', .error e)) :
    e.isOutput := by
  unfold removeStale at h
  split at h
  · unfold cleanUp at h
    split at h
    · cases h
      rfl
    · cases h
    · split at h
      · split at h
        next u result hu =>
        cases result with
        | error fault =>
          cases h
          rfl
        | ok _ => cases h
      · cases h
  · cases h

theorem formatter_error {c : FormatterConfig} {e : Error} (h : c.run = .error e) : e.isOutput := by
  unfold FormatterConfig.run FormatterTool.run at h
  split at h
  · split at h
    · cases h
    · cases h
      rfl
  · cases h

/-- An export that is refused for another reason than its output changes nothing when it cannot be rendered, and
this is the rule. The exceptions are a path that holds the null character, and one on which too many directories
are missing: then the files before it have been written, and for the former also directories created. -/
theorem write_rejected {e : Error} (h : x.write path t = (t', .error e)) (he : e.isOutput = false) :
    (x.rendered path = .error e ∧ t' = t) ∨
      ∃ before file after u, x.rendered path = .ok (before ++ file :: after) ∧
        t.writeAll x.config.output.atomic before = (u, .ok ()) ∧ (∀ q n, u.find? q = some n → t'.find? q = some n) ∧
        (e = .nullCharacter ∧ file.1.HoldsNull ∧ t' = (u.makeDirectories file.1.parent).1 ∨
          e = .tooDeep ∧ maxLevels < u.missingLevels (u.start file.1.parent) file.1.parent.names ∧ t' = u) := by
  unfold Export.write at h
  split at h
  · next rendered =>
    cases h
    exact Or.inl ⟨rendered, rfl⟩
  next files rendered =>
  split at h
  · next v e' failed =>
    cases h
    obtain ⟨before, file, after, u, fault, rfl, first, written, rfl⟩ := writeAll_error failed
    refine Or.inr ⟨before, file, after, u, rendered, first, ?_⟩
    rcases fault_of_write written (isForeign_of_ofFailedWrite he) with ⟨rfl, null, rfl⟩ | ⟨rfl, levels, rfl⟩
    · exact ⟨fun q n => find?_makeDirectories, Or.inl ⟨rfl, null, rfl⟩⟩
    · exact ⟨fun q n hq => hq, Or.inr ⟨rfl, levels, rfl⟩⟩
  · dsimp only at h
    split at h
    · next failed =>
      cases h
      rw [removeStale_error failed] at he
      cases he
    · obtain ⟨-, formatted⟩ := Prod.mk.inj h
      have failed : x.config.formatter.run = .error e := by
        cases hr : x.config.formatter.run with
        | error e' =>
          rw [hr] at formatted
          exact congrArg _ (Except.error.inj formatted)
        | ok _ =>
          rw [hr] at formatted
          cases formatted
      rw [formatter_error failed] at he
      cases he

/-! ### A module path with the null character

`A` is written before the directory of `B` is refused. -/

namespace Broken

def record (hash : Nat) (name modulePath : String) : Record where
  id := ⟨⟨.static, hash⟩, name⟩
  name
  shape := .primitive .string
  modulePath

def first : Record := record 1 "A" ""

def second : Record := record 2 "B" "z\x00"

def site : Export := ⟨{ layout := .perTypeFile, banner := "" }, .ofRecords [first, second]⟩

def out : FilePath := ⟨.relative, ["out"]⟩

def firstFile : FilePath × String := (⟨.relative, ["out", "A.ts"]⟩, "export type A = string;\n")

def secondFile : FilePath × String := (⟨.relative, ["out", "z\x00", "B.ts"]⟩, "export type B = string;\n")

theorem rendered_site : site.rendered out = .ok [firstFile, secondFile] := by
  have records : site.types.records = [first, second] := by
    have sorted : List.Pairwise (fun a b => Record.le a b) [first, second] := by decide
    exact List.mergeSort_of_pairwise sorted
  have prepared : site.prepare = .ok () :=
    prepare_of_records records (by cbv) (fun _ => by cbv) (by decide) (by decide)
  have filed : site.filed = [first, second] := by
    rw [Export.filed, if_neg (by decide), records]
  have one : site.file first = .ok (⟨.relative, ["A.ts"]⟩, "export type A = string;\n") := by cbv
  have two : site.file second = .ok (⟨.relative, ["z\x00", "B.ts"]⟩, "export type B = string;\n") := by cbv
  have files : site.files = .ok [(⟨.relative, ["A.ts"]⟩, "export type A = string;\n"),
      (⟨.relative, ["z\x00", "B.ts"]⟩, "export type B = string;\n")] := by
    refine files_of_distinct prepared ?_ ?_
    · rw [filed]
      decide
    · rw [filed]
      exact mapM_eq_ok.2 (.cons one (.cons two .nil))
  have checked : ∀ text ∈ [firstFile.2, secondFile.2], site.checkText text = .ok () := by
    rw [List.forall_mem_cons, List.forall_mem_singleton]
    constructor <;> cbv
  rw [rendered, if_pos (show site.config.layout = .perTypeFile from rfl)]
  refine bind_eq_ok.2 ⟨_, files, bind_eq_ok.2 ⟨(), ?_, ?_⟩⟩
  · exact bind_eq_ok.2 ⟨(), checked _ List.mem_cons_self,
      bind_eq_ok.2 ⟨(), checked _ (List.mem_cons_of_mem _ List.mem_cons_self), rfl⟩⟩
  · rw [List.mergeSort_of_pairwise (by decide)]
    rfl

/-- The tree that is left: it holds the first file. -/
def rest : FileTree where
  entries := [(["work", "out", "A.ts"], .file "export type A = string;\n"), (["work", "out"], .directory),
    (["work"], .directory)]

theorem write_site : site.write out {} = (rest, .error .nullCharacter) := by
  unfold Export.write
  rw [rendered_site]
  rfl

/-- The export fails with an error that is none of its output, and a file was created. -/
theorem site_not_untouched : site.write out {} = (rest, .error .nullCharacter) ∧
    Error.nullCharacter.isOutput = false ∧ ({} : FileTree).find? ["work", "out", "A.ts"] = none ∧
      rest.find? ["work", "out", "A.ts"] = some (.file "export type A = string;\n") :=
  ⟨write_site, rfl, rfl, rfl⟩

/-- The file that is refused has the null character in its path, and the one before it was written. -/
theorem write_rejected_site : site.write out {} = (rest, .error .nullCharacter) ∧
    ∃ before file after u, site.rendered out = .ok (before ++ file :: after) ∧
      ({} : FileTree).writeAll true before = (u, .ok ()) ∧ file.1.HoldsNull ∧
        rest = (u.makeDirectories file.1.parent).1 := by
  refine ⟨write_site, ?_⟩
  rcases write_rejected write_site rfl with ⟨refused, -⟩ | ⟨before, file, after, u, rendered, first, -, cause⟩
  · rw [rendered_site] at refused
    cases refused
  · rcases cause with ⟨-, null, left⟩ | ⟨deep, -, -⟩
    · exact ⟨before, file, after, u, rendered, first, null, left⟩
    · cases deep

end Broken

end Export

end ShapeExport
