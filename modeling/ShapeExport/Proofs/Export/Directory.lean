import Mathlib
import ShapeExport.Proofs.Export.Files
import ShapeExport.Proofs.Export.Specifiers
import ShapeExport.Proofs.FileTree.Cleaning
import ShapeExport.Proofs.FileTree.Writing

/-!
# The directory of an export

* `Export.outputs_of_files` : the paths of files lead down to names with the suffix;
* `FileTree.cleanUp_eq_ok` : the view after a directory was cleaned up;
* `FileTree.cleanUp_again` : cleaning up once more changes nothing;
* `Export.Fills` : what an export leaves in its directory, and elsewhere;
* `Export.fills_directory` : an export with a file for each record leaves that, and nothing is changed
  by another one.
-/

namespace ShapeExport
open FileTree

/-! ## Paths -/

namespace FilePath

theorem text_append (anchor : PathAnchor) {names more : List String} (h : names ≠ []) (h' : more ≠ []) :
    FilePath.text ⟨anchor, names ++ more⟩ = FilePath.text ⟨anchor, names⟩ ++ ("/" ++ "/".intercalate more) := by
  have apart : ∀ ns : List String, ns ≠ [] → ¬ (anchor = .relative ∧ ns.isEmpty) := by
    rintro ns hn ⟨-, e⟩
    exact hn (List.isEmpty_iff.1 e)
  have longer : names ++ more ≠ [] := List.append_ne_nil_of_left_ne_nil h _
  unfold FilePath.text
  dsimp only
  rw [if_neg (apart _ longer), if_neg (apart _ h), String.intercalate_append_of_ne_nil h h', String.append_assoc,
    String.append_assoc]

theorem pathFault_of_append {anchor : PathAnchor} {names more : List String}
    (h : pathFault? ⟨anchor, names ++ more⟩ = none) : pathFault? ⟨anchor, names⟩ = none := by
  by_cases hm : more = []
  · rwa [hm, List.append_nil] at h
  by_cases hn : names = []
  · rw [hn]
    cases anchor <;> decide
  · unfold pathFault? at h ⊢
    rw [text_append anchor hn hm] at h
    split at h
    · cases h
    · next null =>
      split at h
      · cases h
      · next short =>
        rw [if_neg, if_neg]
        · rw [String.utf8ByteSize_append] at short
          omega
        · simp only [List.contains_iff_mem, String.toList_append, List.mem_append, not_or] at null ⊢
          exact null.1

theorem passable_of_append {anchor : PathAnchor} {names more : List String}
    (h : Passable ⟨anchor, names ++ more⟩) : Passable ⟨anchor, names⟩ :=
  ⟨pathFault_of_append h.1, fun name hm => h.2 name (List.mem_append_left _ hm)⟩

end FilePath

namespace Export

variable {x : Export} {directory : FilePath} {t t' : FileTree} {files : List (FilePath × String)}

/-! ## The files of an export -/

/-- The path of a generated file: it leads down to a name with the suffix. -/
structure IsOutput (x : Export) (path : FilePath) : Prop where
  relative : path.anchor = .relative
  down : ".." ∉ path.names
  name : ∃ name, path.names = path.parent.names ++ [name] ∧ name.endsWith x.config.language.fileSuffix

theorem isOutput_filePath {r : Record} (hn : isTypeName (x.displayName r)) (hm : '/' ∉ r.modulePath.toList) :
    x.IsOutput (x.filePath r) := by
  rw [filePath_eq hn hm]
  refine ⟨rfl, fun h => ?_, x.displayName r ++ x.config.language.fileSuffix, by simp [FilePath.parent], ?_⟩
  · rcases List.mem_append.1 h with h | h
    · exact (Record.isPlain_of_mem_modules hm h).ne_dots.2 rfl
    · have step := Language.isStep_append_fileSuffix x.config.language (isPlain_of_isTypeName hn).no_slash
      exact step.ne_up (List.mem_singleton.1 h).symm
  · rw [Text.endsWith_iff]
    simp

/-- The paths of files lead down to names with the suffix. -/
theorem outputs_of_files (modules : ∀ r ∈ x.types.records, '/' ∉ r.modulePath.toList) (h : x.files = .ok files) :
    ∀ file ∈ files, x.IsOutput file.1 := by
  intro file hf
  obtain ⟨r, hr, rendered⟩ := exists_filed_of_mem h hf
  have hr : r ∈ x.types.records := (filed_sublist x).subset hr
  rw [file_fst rendered]
  exact isOutput_filePath (isTypeName_of_checkNames (files_eq_ok h).1 hr) (modules r hr)

/-- Where a file lies in the directory of an export. -/
theorem IsOutput.place_join {path : FilePath} (h : x.IsOutput path) (t : FileTree) (directory : FilePath) :
    t.place (directory.join path) = t.place directory ++ path.names := by
  rw [FilePath.join, if_pos h.relative, FileTree.place, List.foldl_append]
  exact foldl_step_of_ne h.down _

theorem IsOutput.way_join {path : FilePath} (h : x.IsOutput path) (t : FileTree) (directory : FilePath) :
    t.way (directory.join path).parent = t.way directory ++ entered (t.place directory) path.parent.names := by
  obtain ⟨name, hname, -⟩ := h.name
  have parent : (directory.join path).parent = ⟨directory.anchor, directory.names ++ path.parent.names⟩ := by
    rw [FilePath.join, if_pos h.relative, hname]
    simp [FilePath.parent]
  rw [parent, FileTree.way, entered_append]
  rfl

theorem IsOutput.place_below {path : FilePath} (h : x.IsOutput path) (t : FileTree) (directory : FilePath) :
    isBelow (t.place directory) (t.place (directory.join path)) ∧
      isGenerated x.config.language.fileSuffix (t.place (directory.join path)) := by
  obtain ⟨name, hname, suffix⟩ := h.name
  rw [h.place_join, isBelow_append, hname]
  refine ⟨by simp, ?_⟩
  unfold isGenerated
  rw [← List.append_assoc, List.getLast?_concat]
  exact suffix

/-- The files of an export behind the path of its directory. -/
structure IsPlaced (x : Export) (t : FileTree) (directory : FilePath) (placed : List (FilePath × String)) : Prop where
  outputs : ∀ file ∈ placed, ∃ path, x.IsOutput path ∧ file.1 = directory.join path
  distinct : (placed.map fun file => t.place file.1).Nodup

theorem isPlaced_of_perm {placed : List (FilePath × String)}
    (perm : placed.Perm (files.map fun file => (directory.join file.1, file.2)))
    (distinct : (files.map (·.1)).Nodup) (outputs : ∀ file ∈ files, x.IsOutput file.1) (t : FileTree) :
    x.IsPlaced t directory placed := by
  refine ⟨fun file hf => ?_, ?_⟩
  · obtain ⟨source, hs, rfl⟩ := List.mem_map.1 (perm.mem_iff.1 hf)
    exact ⟨source.1, outputs source hs, rfl⟩
  · refine (perm.map fun file => t.place file.1).nodup_iff.2 ?_
    rw [List.map_map]
    refine distinct.of_map.map_on fun a ha b hb e => ?_
    have e : t.place (directory.join a.1) = t.place (directory.join b.1) := e
    rw [(outputs a ha).place_join, (outputs b hb).place_join] at e
    have names : a.1.names = b.1.names := List.append_cancel_left e
    have paths : a.1 = b.1 := by
      obtain ⟨⟨anchor, ns⟩, _⟩ := a
      obtain ⟨⟨anchor', ns'⟩, _⟩ := b
      have ha := (outputs _ ha).relative
      have hb := (outputs _ hb).relative
      simp_all
    exact List.inj_on_of_nodup_map distinct ha hb paths

/-- The way to a file leads through the directory of the export, and then it leads down. -/
theorem IsPlaced.mem_way {placed : List (FilePath × String)} (h : x.IsPlaced t directory placed)
    {file other : FilePath × String} (hf : file ∈ placed) (ho : other ∈ placed) {v : Place}
    (hv : v ∈ t.way file.1.parent) :
    v ∈ t.way other.1.parent ∨ v <+: t.place file.1 ∧ v ≠ t.place file.1 := by
  obtain ⟨path, output, hpath⟩ := h.outputs file hf
  obtain ⟨path', output', hpath'⟩ := h.outputs other ho
  rw [hpath, output.way_join] at hv
  rcases List.mem_append.1 hv with hv | hv
  · left
    rw [hpath', output'.way_join]
    exact List.mem_append_left _ hv
  · right
    obtain ⟨name, hname, -⟩ := output.name
    have down : ".." ∉ path.parent.names := fun hd => output.down (by rw [hname]; exact List.mem_append_left _ hd)
    obtain ⟨first, hp, -, rfl⟩ := (mem_entered_iff down _ v).1 hv
    rw [hpath, output.place_join, hname]
    refine ⟨(List.prefix_append_right_inj _).2 (hp.trans (List.prefix_append _ _)), fun e => ?_⟩
    have short := hp.length_le
    have := congrArg List.length (List.append_cancel_left e)
    rw [List.length_append, List.length_singleton] at this
    omega

/-- What an export leaves in its directory, and elsewhere. -/
structure Fills (x : Export) (directory : FilePath) (files : List (FilePath × String)) (t t' : FileTree) :
    Prop where
  /-- The files in the directory that are taken for generated ones are the files of the export. -/
  generated : ∀ p, (isBelow (t.place directory) p ∧ isGenerated x.config.language.fileSuffix p ∧
      ∃ text, t'.find? p = some (.file text)) ↔ ∃ file ∈ files, t.place (directory.join file.1) = p
  texts : ∀ file ∈ files, t'.find? (t.place (directory.join file.1)) = some (.file file.2)
  others : ∀ p text, ¬ (isBelow (t.place directory) p ∧ isGenerated x.config.language.fileSuffix p) →
    (t'.find? p = some (.file text) ↔ t.find? p = some (.file text))
  /-- No directory in the directory is empty. -/
  filled : ∀ p, isBelow (t.place directory) p → t'.find? p = some .directory →
    ∃ name, t'.find? (p ++ [name]) ≠ none

section Written

variable {u : FileTree} {placed : List (FilePath × String)} {atomic : Bool}

/-- The directory is there when something was written to it. -/
theorem node_of_writesAll (writes : t.WritesAll u atomic placed) (isPlaced : x.IsPlaced t directory placed)
    (some : placed ≠ []) : u.node directory = .ok .directory := by
  obtain ⟨file, rest, rfl⟩ := List.exists_cons_of_ne_nil some
  obtain ⟨path, output, hpath⟩ := isPlaced.outputs file List.mem_cons_self
  have there := writes.there file List.mem_cons_self
  rw [hpath, output.way_join] at there
  have way : ∀ v ∈ entered (u.start directory) directory.names, u.find? v = Option.some .directory := by
    intro v hv
    rw [start_congr writes.working] at hv
    exact there v (List.mem_append_left _ hv)
  have passable : Passable directory := by
    have whole := (writes.accepts file List.mem_cons_self).whole
    rw [hpath, FilePath.join, if_pos output.relative] at whole
    exact FilePath.passable_of_append whole
  refine node_eq_directory.2 ⟨_, locate_eq_ok.2 ⟨passable, fun v hv => ?_, rfl⟩, ?_⟩
  · exact writes.sound.find?_walk way (Or.inl hv)
  · exact writes.sound.find?_walk way (Or.inr rfl)

theorem places_of_writesAll (writes : t.WritesAll u atomic placed) :
    u.places (placed.map (·.1)) = placed.map fun file => t.place file.1 := by
  have each : ∀ file ∈ placed, u.locate file.1 = .ok (t.place file.1) := by
    intro file hf
    rw [← place_congr writes.working]
    apply writes.sound.locate_of_way _ (writes.accepts file hf).whole
    intro v hv
    rw [way_congr writes.working] at hv
    exact writes.there file hf v hv
  unfold FileTree.places
  rw [List.filterMap_map]
  refine (List.filterMap_congr fun file hf => ?_).trans (congrFun List.filterMap_eq_map _)
  show (u.locate file.1).toOption = _
  rw [each file hf]
  rfl

/-- A file of a tree that was written to is one of those that were written, or it was there. -/
theorem find?_of_writesAll (writes : t.WritesAll u atomic placed) {p : Place} {text : String}
    (h : ∀ file ∈ placed, p ≠ t.place file.1) : u.find? p = some (.file text) ↔ t.find? p = some (.file text) := by
  by_cases way : ∃ file ∈ placed, p ∈ t.way file.1.parent
  · obtain ⟨file, hf, hw⟩ := way
    constructor
    · intro e
      rw [writes.there file hf p hw] at e
      cases e
    · intro e
      exact absurd e (writes.free file hf p hw text)
  · rw [writes.others p fun file hf => ⟨h file hf, fun hw => way ⟨file, hf, hw⟩⟩]

theorem fills_of_cleans (writes : t.WritesAll u atomic placed) (isPlaced : x.IsPlaced t directory placed)
    (perm : placed.Perm (files.map fun file => (directory.join file.1, file.2)))
    (cleans : u.Cleans t' directory (t.place directory) x.config.language.fileSuffix
      (u.places (placed.map (·.1)))) : x.Fills directory files t t' := by
  have kept := places_of_writesAll writes
  have written : ∀ file ∈ placed, isBelow (t.place directory) (t.place file.1) ∧
      isGenerated x.config.language.fileSuffix (t.place file.1) ∧ t'.find? (t.place file.1) = some (.file file.2) := by
    intro file hf
    obtain ⟨path, output, hpath⟩ := isPlaced.outputs file hf
    have below := output.place_below t directory
    rw [← hpath] at below
    refine ⟨below.1, below.2, (cleans.find?_file writes.sound _ _).2 ⟨writes.texts file hf, fun _ _ => ?_⟩⟩
    rw [kept]
    exact List.mem_map_of_mem hf
  have source : ∀ file ∈ files, (directory.join file.1, file.2) ∈ placed :=
    fun file hf => perm.mem_iff.2 (List.mem_map_of_mem hf)
  refine ⟨fun p => ⟨?_, ?_⟩, fun file hf => ?_, fun p text off => ?_, fun p hp hd => ?_⟩
  · rintro ⟨below, generated, text, hp⟩
    have hm := ((cleans.find?_file writes.sound p text).1 hp).2 below generated
    rw [kept] at hm
    obtain ⟨file, hf, rfl⟩ := List.mem_map.1 hm
    obtain ⟨file, hs, rfl⟩ := List.mem_map.1 (perm.mem_iff.1 hf)
    exact ⟨file, hs, rfl⟩
  · rintro ⟨file, hf, rfl⟩
    obtain ⟨below, generated, hp⟩ := written _ (source file hf)
    exact ⟨below, generated, file.2, hp⟩
  · exact (written _ (source file hf)).2.2
  · rw [cleans.find?_file writes.sound, find?_of_writesAll writes]
    · exact and_iff_left fun hb hg => absurd ⟨hb, hg⟩ off
    · rintro file hf rfl
      exact off ⟨(written file hf).1, (written file hf).2.1⟩
  · exact (cleans.prunes writes.sound).not_isVacant (sound_removeFiles writes.sound _) hp hd

/-! ## Another export -/

/-- What was written is still there after cleaning up. -/
theorem texts_of_cleans (writes : t.WritesAll u atomic placed)
    (cleans : u.Cleans t' directory (t.place directory) x.config.language.fileSuffix
      (u.places (placed.map (·.1)))) {file : FilePath × String} (hf : file ∈ placed) :
    t'.find? (t.place file.1) = some (.file file.2) := by
  refine (cleans.find?_file writes.sound _ _).2 ⟨writes.texts file hf, fun _ _ => ?_⟩
  rw [places_of_writesAll writes]
  exact List.mem_map_of_mem hf

/-- No file that was written is on the way to another one. -/
theorem not_mem_way_of_writesAll (writes : t.WritesAll u atomic placed) {file other : FilePath × String}
    (hf : file ∈ placed) (ho : other ∈ placed) : t.place file.1 ∉ t.way other.1.parent := by
  intro hw
  have there := writes.there other ho _ hw
  rw [writes.texts file hf] at there
  cases there

/-- There is room for a file that was written, unless too much is missing on the way to it. -/
theorem room_of_cleans (writes : t.WritesAll u atomic placed)
    (cleans : u.Cleans t' directory (t.place directory) x.config.language.fileSuffix
      (u.places (placed.map (·.1)))) {file : FilePath × String} (hf : file ∈ placed)
    (levels : t'.missingLevels (t'.start file.1.parent) file.1.parent.names ≤ maxLevels) : t'.Room file.1 := by
  have working : t'.workingDirectory = t.workingDirectory := (cleans.prunes writes.sound).working.trans writes.working
  refine ⟨levels, fun v hv text e => ?_, ?_, ?_⟩
  · rw [way_congr working] at hv
    have before := ((cleans.find?_file writes.sound v text).1 e).1
    rw [writes.there file hf v hv] at before
    cases before
  · rw [way_congr working, place_congr working]
    exact not_mem_way_of_writesAll writes hf hf
  · rw [place_congr working, texts_of_cleans writes cleans hf]
    nofun

/-- Once the first file is written again, the others are too: the ways to them lead through its directory, or
are there because of what lies at their ends. -/
theorem exists_writeAll_rest {file : FilePath × String} {rest : List (FilePath × String)}
    (writes : t.WritesAll u atomic (file :: rest)) (isPlaced : x.IsPlaced t directory (file :: rest))
    (cleans : u.Cleans t' directory (t.place directory) x.config.language.fileSuffix
      (u.places ((file :: rest).map (·.1)))) {s : FileTree} (first : t'.Writes s file.1 file.2) :
    ∃ s', s.writeAll atomic rest = (s', .ok ()) := by
  have prunes := cleans.prunes writes.sound
  have working : t'.workingDirectory = t.workingDirectory := prunes.working.trans writes.working
  have working' : s.workingDirectory = t.workingDirectory := first.working.trans working
  have head : file ∈ file :: rest := List.mem_cons_self
  have view := first.view
  simp only [place_congr working, way_congr working] at view
  refine exists_writeAll first.sound ?_ ?_ ?_ ?_
  · simp only [place_congr working']
    exact (List.nodup_cons.1 isPlaced.distinct).2
  · exact fun other ho => writes.accepts other (List.mem_cons_of_mem _ ho)
  · intro other ho v hv
    rw [way_congr working'] at hv
    have ho' := List.mem_cons_of_mem file ho
    -- Either on the way to the first file, which is there again, or above a file that is still there.
    rcases isPlaced.mem_way ho' head hv with hv | ⟨hp, hne⟩
    · rw [view, if_neg, if_pos hv]
      rintro rfl
      exact not_mem_way_of_writesAll writes head head hv
    · have there := prunes.sound.find?_prefix (texts_of_cleans writes cleans ho') hp hne
      rw [view, if_neg, there, ite_self]
      rintro rfl
      rw [texts_of_cleans writes cleans head] at there
      cases there
  · intro other ho
    have ho' := List.mem_cons_of_mem file ho
    rw [place_congr working', view, if_neg, if_neg (not_mem_way_of_writesAll writes ho' head),
      texts_of_cleans writes cleans ho']
    · nofun
    · intro e
      exact (List.nodup_cons.1 isPlaced.distinct).1 (List.mem_map.2 ⟨other, ho, e⟩)

/-- The files that were written can be written again, unless too much is missing for the first of them. -/
theorem writeAll_again (writes : t.WritesAll u atomic placed) (isPlaced : x.IsPlaced t directory placed)
    (cleans : u.Cleans t' directory (t.place directory) x.config.language.fileSuffix
      (u.places (placed.map (·.1)))) :
    (∃ e, t'.writeAll atomic placed = (t', .error e)) ∨ ∃ s, t'.writeAll atomic placed = (s, .ok ()) := by
  have prunes := cleans.prunes writes.sound
  cases placed with
  | nil => exact Or.inr ⟨t', rfl⟩
  | cons file rest =>
    have head : file ∈ file :: rest := List.mem_cons_self
    by_cases levels : t'.missingLevels (t'.start file.1.parent) file.1.parent.names ≤ maxLevels
    · right
      have room := room_of_cleans writes cleans head levels
      obtain ⟨s, written⟩ := exists_write prunes.sound (writes.accepts file head) room file.2
      obtain ⟨-, -, first⟩ := write_eq_ok prunes.sound written
      obtain ⟨s', written'⟩ := exists_writeAll_rest writes isPlaced cleans first
      exact ⟨s', writeAll_cons_eq_ok.2 ⟨s, written, written'⟩⟩
    · left
      obtain ⟨fault, failed⟩ : ∃ fault, t'.write atomic file.1 file.2 = (t', .error fault) :=
        write_of_levels (Nat.not_le.1 levels)
      refine ⟨.ofFailedWrite file.1 fault, ?_⟩
      unfold FileTree.writeAll FileTree.writeFile
      rw [failed]
      rfl

/-- Writing once more and cleaning up once more changes nothing. -/
theorem cleanUp_of_again (writes : t.WritesAll u atomic placed) (isPlaced : x.IsPlaced t directory placed)
    (fills : x.Fills directory files t t')
    (perm : placed.Perm (files.map fun file => (directory.join file.1, file.2)))
    (cleans : u.Cleans t' directory (t.place directory) x.config.language.fileSuffix
      (u.places (placed.map (·.1)))) {s : FileTree} (again : t'.writeAll atomic placed = (s, .ok ())) (q : Place) :
    (s.cleanUp directory x.config.language.fileSuffix (placed.map (·.1))).1.find? q = t'.find? q := by
  have prunes := cleans.prunes writes.sound
  have working : t'.workingDirectory = t.workingDirectory := prunes.working.trans writes.working
  have isPlaced' : x.IsPlaced t' directory placed := by
    refine ⟨isPlaced.outputs, ?_⟩
    simp only [place_congr working]
    exact isPlaced.distinct
  have writes' := writesAll_of_ok prunes.sound isPlaced'.distinct again
  have source : ∀ file ∈ placed, ∃ source ∈ files, (directory.join source.1, source.2) = file :=
    fun file hf => List.mem_map.1 (perm.mem_iff.1 hf)
  have same : ∀ file ∈ placed, s.find? (t.place file.1) = t'.find? (t.place file.1) := by
    intro file hf
    obtain ⟨origin, ho, rfl⟩ := source file hf
    rw [fills.texts origin ho, ← place_congr working, writes'.texts _ hf]
  have files' : ∀ p text, s.find? p = some (.file text) ↔ t'.find? p = some (.file text) := by
    intro p text
    by_cases own : ∃ file ∈ placed, p = t.place file.1
    · obtain ⟨file, hf, rfl⟩ := own
      rw [same file hf]
    · refine find?_of_writesAll writes' fun file hf e => own ⟨file, hf, ?_⟩
      rw [e, place_congr working]
  refine cleanUp_again writes.sound cleans writes'.sound (writes'.working.trans prunes.working) (fun p => ?_)
    (fun p text hp hb hg => ?_) ?_ q
  · -- A place is that of a file, or on the way to one, or writing leaves it as it is.
    by_cases own : ∃ file ∈ placed, p = t.place file.1
    · obtain ⟨file, hf, rfl⟩ := own
      exact Or.inl (same file hf)
    · by_cases way : ∃ file ∈ placed, p ∈ t.way file.1.parent
      · obtain ⟨file, hf, hw⟩ := way
        have now := writes'.there file hf p (by rw [way_congr working]; exact hw)
        have before := writes.there file hf p hw
        right
        rw [now, find?_removeFiles writes.sound, if_neg fun e => e.1 before, before]
      · left
        apply writes'.others
        intro file hf
        rw [place_congr working, way_congr working]
        exact ⟨fun e => own ⟨file, hf, e⟩, fun hw => way ⟨file, hf, hw⟩⟩
  · rw [places_of_writesAll writes']
    obtain ⟨file, hf, e⟩ := (fills.generated p).1 ⟨hb, hg, text, (files' p text).1 hp⟩
    refine List.mem_map.2 ⟨_, perm.mem_iff.2 (List.mem_map_of_mem hf), ?_⟩
    rw [place_congr working, e]
  · by_cases none : placed = []
    · subst none
      left
      intro q
      cases again
      rfl
    · exact Or.inr (node_of_writesAll writes' isPlaced' none)

end Written

/-! ## The export as a whole -/

theorem rendered_eq_ok (layout : x.config.layout = .perTypeFile) {placed : List (FilePath × String)}
    (h : x.rendered directory = .ok placed) : ∃ files, x.files = .ok files ∧
      placed.Perm (files.map fun file => (directory.join file.1, file.2)) := by
  unfold rendered at h
  rw [if_pos layout] at h
  obtain ⟨files, hf, h⟩ := bind_eq_ok.1 h
  obtain ⟨_, -, h⟩ := bind_eq_ok.1 h
  obtain rfl := Except.ok.inj h
  exact ⟨files, hf, (List.mergeSort_perm _ _).map _⟩

theorem write_eq_ok {written : List FilePath} (layout : x.config.layout = .perTypeFile)
    (h : x.write directory t = (t', .ok written)) : ∃ placed u, x.rendered directory = .ok placed ∧
      t.writeAll x.config.output.atomic placed = (u, .ok ()) ∧
      u.cleanUp directory x.config.language.fileSuffix (placed.map (·.1)) = (t', .ok ()) ∧
      written = placed.map (·.1) := by
  unfold Export.write at h
  split at h
  · cases h
  next placed rendered =>
  split at h
  · cases h
  next u _ wrote =>
  dsimp only at h
  split at h
  · cases h
  next u' _ cleaned =>
  unfold removeStale at cleaned
  rw [if_pos layout] at cleaned
  obtain ⟨rfl, formatted⟩ := Prod.mk.inj h
  obtain ⟨_, -, rfl⟩ := map_eq_ok.1 formatted
  exact ⟨placed, u, rendered, wrote, cleaned, rfl⟩

/-- Where an export can be written, cleaning up leaves the tree behind it. -/
theorem write_fst (layout : x.config.layout = .perTypeFile) {placed : List (FilePath × String)}
    (rendered : x.rendered directory = .ok placed) {s u : FileTree}
    (wrote : s.writeAll x.config.output.atomic placed = (u, .ok ())) : (x.write directory s).1 =
      (u.cleanUp directory x.config.language.fileSuffix (placed.map (·.1))).1 := by
  unfold Export.write
  rw [rendered]
  dsimp only
  rw [wrote]
  dsimp only
  unfold removeStale
  rw [if_pos layout]
  split <;> next h => rw [h]

/-- An export to a directory that is there, or that it creates, leaves there what it should, and another one of
the same changes nothing. -/
theorem fills_directory {written : List FilePath} (sound : t.Sound)
    (layout : x.config.layout = .perTypeFile)
    (modules : ∀ r ∈ x.types.records, '/' ∉ r.modulePath.toList)
    (h : x.write directory t = (t', .ok written)) :
    ∃ files, x.files = .ok files ∧ written.Perm (files.map fun file => directory.join file.1) ∧
      (x.Fills directory files t t' ∨ files = [] ∧ t.node directory ≠ .ok .directory ∧ t' = t) ∧
      ∀ q, (x.write directory t').1.find? q = t'.find? q := by
  obtain ⟨placed, u, rendered, wrote, cleaned, rfl⟩ := write_eq_ok layout h
  obtain ⟨files, hfiles, perm⟩ := rendered_eq_ok layout rendered
  have isPlaced := isPlaced_of_perm perm (nodup_paths hfiles) (outputs_of_files modules hfiles) t
  have writes := writesAll_of_ok sound isPlaced.distinct wrote
  refine ⟨files, hfiles, ?_, ?_⟩
  · have := perm.map (·.1)
    rwa [List.map_map] at this
  rcases cleanUp_cases cleaned with ⟨rfl, elsewhere⟩ | ⟨base, cleans⟩
  · have empty : placed = [] := by
      by_contra some
      exact elsewhere (node_of_writesAll writes isPlaced some)
    subst empty
    cases wrote
    have empty : files = [] := by simpa using perm.symm.eq_nil
    exact ⟨Or.inr ⟨empty, elsewhere, rfl⟩, fun q => by rw [h]⟩
  · obtain rfl : base = t.place directory := by
      rw [← cleans.base_eq, place_congr writes.working]
    have fills := fills_of_cleans writes isPlaced perm cleans
    refine ⟨Or.inl fills, fun q => ?_⟩
    rcases writeAll_again writes isPlaced cleans with ⟨e, failed⟩ | ⟨s, again⟩
    · unfold Export.write
      rw [rendered]
      dsimp only
      rw [failed]
    · rw [write_fst layout rendered again]
      exact cleanUp_of_again writes isPlaced fills perm cleans again q

/-! ### A directory that holds more

What is left there of an earlier export is `Old.ts` and an empty directory. -/

namespace Refreshed

def point : Record where
  id := ⟨⟨.static, 1⟩, "Point"⟩
  name := "Point"
  shape := .primitive .string
  modulePath := "geo"

def site : Export := ⟨{ layout := .perTypeFile, output := { validate := false } }, .ofRecords [point]⟩

def tree : FileTree where
  entries := [(["work"], .directory), (["work", "out"], .directory), (["work", "out", "Old.ts"], .file "old"),
    (["work", "out", "empty"], .directory), (["work", "out", "notes.txt"], .file "kept")]

def out : FilePath := ⟨.relative, ["out"]⟩

def pointPath : FilePath := ⟨.relative, ["out", "geo", "Point.ts"]⟩

/-- The tree after the file was written. -/
def after (text : String) : FileTree where
  entries := [(["work", "out", "geo", "Point.ts"], .file text), (["work", "out", "geo"], .directory),
    (["work"], .directory), (["work", "out"], .directory), (["work", "out", "Old.ts"], .file "old"),
    (["work", "out", "empty"], .directory), (["work", "out", "notes.txt"], .file "kept")]

theorem wrote (text : String) : tree.writeAll true [(pointPath, text)] = (after text, .ok ()) := rfl

/-- The tree after the stale file was removed. -/
def kept (text : String) : FileTree where
  entries := [(["work", "out", "geo", "Point.ts"], .file text), (["work", "out", "geo"], .directory),
    (["work"], .directory), (["work", "out"], .directory),
    (["work", "out", "empty"], .directory), (["work", "out", "notes.txt"], .file "kept")]

theorem removed (text : String) : (after text).removeFiles ["work", "out"]
    (isStale ".ts" [["work", "out", "geo", "Point.ts"]]) = kept text := by
  have old : isGenerated ".ts" ["work", "out", "Old.ts"] := isGenerated_iff.2 (by decide)
  have notes : ¬ isGenerated ".ts" ["work", "out", "notes.txt"] := mt isGenerated_iff.1 (by decide)
  simp [removeFiles, after, kept, isStale, isBelow, old, notes]

theorem subdirectories_kept (text : String) : (kept text).subdirectories out ["work", "out"] =
    [⟨.relative, ["out", "geo"]⟩, ⟨.relative, ["out", "empty"]⟩] := by
  have sorted : List.Pairwise (fun p q => FilePath.le q p)
      [⟨.relative, ["out", "geo"]⟩, ⟨.relative, ["out", "empty"]⟩] := by decide
  exact List.mergeSort_of_pairwise sorted

theorem cleaned (text : String) : ∃ t', (after text).cleanUp out ".ts" [pointPath] = (t', .ok ()) := by
  have pruned : ∃ t', (kept text).prune out ["work", "out"] = (t', .ok ()) := by
    rw [prune, subdirectories_kept]
    exact ⟨_, rfl⟩
  obtain ⟨t', pruned⟩ := pruned
  have places : (after text).places [pointPath] = [["work", "out", "geo", "Point.ts"]] := rfl
  have located : (after text).locate out = .ok ["work", "out"] := rfl
  rw [cleanUp_of_directory located rfl, places, cleanUpAt, removed, pruned]
  exact ⟨t', rfl⟩

theorem sound_tree : tree.Sound := by
  refine ⟨?_, ?_, ?_, ?_⟩
  all_goals decide

theorem layout_site : site.config.layout = .perTypeFile := rfl

theorem records_site : site.types.records = [point] := List.mergeSort_singleton _

theorem rendered_site : ∃ text, site.rendered out = .ok [(pointPath, text)] := by
  have language : site.config.language ≠ .jsonschema := by decide
  have prepared : site.prepare = .ok () :=
    prepare_of_records records_site (by cbv) (fun _ => by cbv) (by decide) (by decide)
  have imports : site.imports point = .ok [] := by cbv
  have statements : site.statements point = .ok [.typeAlias "Point" [] (.builtin "string")] := by cbv
  have path : out.join (site.filePath point) = pointPath := by cbv
  have filed : site.filed = [point] := by rw [Export.filed, if_neg language, records_site]
  obtain ⟨⟨relative, text⟩, h⟩ := exists_file language imports statements
  obtain rfl : relative = site.filePath point := file_fst h
  have files : site.files = .ok [(site.filePath point, text)] := by
    refine files_of_distinct prepared ?_ ?_
    · rw [filed]
      exact List.nodup_singleton _
    · rw [filed]
      exact mapM_eq_ok.2 (.cons h .nil)
  refine ⟨text, ?_⟩
  rw [rendered, if_pos layout_site]
  refine bind_eq_ok.2 ⟨_, files, bind_eq_ok.2 ⟨(), rfl, ?_⟩⟩
  rw [List.mergeSort_singleton]
  show Except.ok [(out.join (site.filePath point), text)] = _
  rw [path]

theorem write_site : ∃ t', site.write out tree = (t', .ok [pointPath]) := by
  obtain ⟨text, rendered⟩ := rendered_site
  obtain ⟨t', cleaned⟩ := cleaned text
  refine ⟨t', ?_⟩
  have stale : site.removeStale out [pointPath] (after text) = (t', .ok ()) := by
    rw [removeStale, if_pos layout_site]
    exact cleaned
  unfold Export.write
  rw [rendered]
  dsimp only
  rw [show tree.writeAll site.config.output.atomic [(pointPath, text)] = _ from wrote text]
  dsimp only
  rw [show site.removeStale out (List.map (·.1) [(pointPath, text)]) (after text) = _ from stale]
  rfl

/-- What was left of an earlier export is removed, and the notes are kept. -/
theorem fills_directory_site : ∃ t' files, site.write out tree = (t', .ok [pointPath]) ∧ site.files = .ok files ∧
    files ≠ [] ∧ site.Fills out files tree t' ∧ ∀ q, (site.write out t').1.find? q = t'.find? q := by
  obtain ⟨t', h⟩ := write_site
  obtain ⟨files, hf, written, fills, again⟩ :=
    fills_directory sound_tree layout_site (by rw [records_site]; decide) h
  have some : files ≠ [] := by
    rintro rfl
    exact absurd written.length_eq (by decide)
  exact ⟨t', files, h, hf, some, fills.resolve_right fun e => some e.1, again⟩

end Refreshed

end Export

end ShapeExport
