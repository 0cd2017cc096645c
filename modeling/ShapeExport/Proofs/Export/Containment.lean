import Mathlib
import ShapeExport.Proofs.Export.Specifiers

/-!
# Files below the directory of an export

The module path of a record is a text of users. It is cut at dots, so no directory is named by two dots; but a
piece that starts with a slash starts the path again, at a root.

* `Record.IsRooted` : a module path with such a piece;
* `Export.anchor_filePath`, `Export.ne_up_of_mem_names` : only then the file of a record lies at a root, and no name
  on the way to it leads up;
* `Export.not_isRooted_of_modulePrefix` : a module path in front of a valid name has no such piece;
* `Export.isBelow_filePath_iff` : so the file of a record lies below every directory unless its module path starts at
  a root.
-/

namespace ShapeExport
open FilePath

/-- A piece of the module path, between dots, starts with a slash. -/
def Record.IsRooted (r : Record) : Prop := ∃ piece ∈ Text.split '.' r.modulePath, piece.toList.head? = some '/'

theorem Record.anchor_modules {r : Record} : (ofPieces r.modules).anchor = .relative ↔ ¬ r.IsRooted := by
  rw [anchor_ofPieces, Record.IsRooted]
  push Not
  constructor
  · intro h piece hp first
    have filled : piece ≠ "" := by
      rintro rfl
      cases first
    exact h piece (List.mem_filter.2 ⟨hp, by simpa using filled⟩) first
  · exact fun h piece hp => h piece (List.mem_filter.1 hp).1

namespace Export

variable {x : Export} {r : Record}

theorem anchor_filePath (h : isTypeName (x.displayName r)) : (x.filePath r).anchor = .relative ↔ ¬ r.IsRooted := by
  rw [filePath_eq_concat h, Record.anchor_modules]

theorem names_filePath_ne_nil (h : isTypeName (x.displayName r)) : (x.filePath r).names ≠ [] := by
  rw [filePath_eq_concat h]
  exact List.append_ne_nil_of_right_ne_nil _ (List.cons_ne_nil _ _)

/-- Names that come from the module path have no dots, and the name of the file has more than two characters. -/
theorem ne_up_of_mem_names (h : isTypeName (x.displayName r)) : ".." ∉ (x.filePath r).names := by
  rw [filePath_eq_concat h, List.mem_append, not_or, List.mem_singleton]
  constructor
  · intro up
    obtain ⟨piece, hp, hn⟩ := exists_of_mem_names up
    have dot : '.' ∈ piece.toList := Text.mem_of_mem_split hn (by decide)
    exact Text.not_mem_of_mem_split (List.mem_filter.1 hp).1 dot
  · exact (Language.isStep_append_fileSuffix _ (isPlain_of_isTypeName h).no_slash).ne_up.symm

theorem not_mem_slash_of_modulePrefix (h : isTypeName (x.displayName r))
    (policy : x.config.collisions = .modulePrefix) : '/' ∉ r.modulePath.toList := by
  intro slash
  have filled : r.modulePath ≠ "" := by
    intro none
    rw [none] at slash
    cases slash
  have kept : '/' ∈ (Text.replace r.modulePath "." "_").toList := by
    rw [Text.replace, String.toList_ofList]
    show '/' ∈ Text.replaceFrom ['.'] ['_'] 0 r.modulePath.toList
    rw [Text.replaceFrom_singleton]
    exact List.mem_map.2 ⟨'/', slash, by decide⟩
  refine (isPlain_of_isTypeName h).no_slash ?_
  rw [displayName, Config.displayName, if_pos ⟨policy, filled⟩, String.toList_append, String.toList_append]
  exact List.mem_append_left _ (List.mem_append_left _ kept)

theorem not_isRooted_of_modulePrefix (h : isTypeName (x.displayName r))
    (policy : x.config.collisions = .modulePrefix) : ¬ r.IsRooted := by
  rintro ⟨piece, hp, first⟩
  exact not_mem_slash_of_modulePrefix h policy (Text.mem_of_mem_split hp (List.mem_of_mem_head? first))

/-- **Where the files are.** Let the name of a record pass the check. Then the way to its file never leads up, and it
lies below each directory that it is joined to, unless a piece of the module path starts with a slash; in that case
it is the same place at a root for all directories. Where module paths are part of the names there is no such piece. -/
theorem isBelow_filePath_iff (x : Export) (r : Record) (path : Path)
    (h : x.config.checkTypeName path (x.displayName r) = .ok ()) :
    ".." ∉ (x.filePath r).names ∧
    ((x.filePath r).anchor = .relative ↔ ¬ r.IsRooted) ∧
    ((∀ dir : FilePath, (dir.join (x.filePath r)).IsBelow dir) ↔ ¬ r.IsRooted) ∧
    (r.IsRooted → ∀ dir : FilePath, dir.join (x.filePath r) = x.filePath r) ∧
    (x.config.collisions = .modulePrefix → ¬ r.IsRooted) := by
  have named := (checkTypeName_eq_ok.1 h).2
  have anchor := anchor_filePath named
  have up := ne_up_of_mem_names named
  refine ⟨up, anchor, ⟨fun below => anchor.1 ?_, fun free => ?_⟩, fun rooted => ?_,
    not_isRooted_of_modulePrefix named⟩
  · obtain ⟨down, -, -, e⟩ := below {}
    have both : ((FilePath.join {} (x.filePath r))).anchor = .relative := by rw [e]
    exact (anchor_join.1 both).2
  · exact isBelow_join (anchor.2 free) (names_filePath_ne_nil named) up
  · exact join_of_rooted fun relative => anchor.1 relative rooted

/-! ### Slashes in module paths -/

namespace Sheets
open Nested (plainRecord)

def site (collisions : CollisionPolicy) : Export := ⟨{ layout := .perTypeFile, collisions }, .ofRecords []⟩

/-- A slash within a piece leads one directory down. -/
def area : Record := plainRecord 1 "Area" "geo/plane..shapes"

def sheet : Record := plainRecord 2 "Sheet" "geo.plane"

/-- A slash in front of a piece leads to a root. -/
def stray : Record := plainRecord 3 "Stray" "geo./etc"

def out : FilePath := ⟨.root, ["srv", "out"]⟩

theorem isBelow_area :
    (site .error).config.checkTypeName ["Area"] ((site .error).displayName area) = .ok () ∧
    (site .error).filePath area = ⟨.relative, ["geo", "plane", "shapes", "Area.ts"]⟩ ∧
    (out.join ((site .error).filePath area)).IsBelow out ∧
    (site .modulePrefix).config.checkTypeName ["Sheet"] ((site .modulePrefix).displayName sheet) = .ok () ∧
    (site .modulePrefix).filePath sheet = ⟨.relative, ["geo", "plane", "geo_plane_Sheet.ts"]⟩ ∧
    (site .modulePrefix).config.collisions = .modulePrefix ∧ ¬ sheet.IsRooted ∧
    (site .error).config.checkTypeName ["Stray"] ((site .error).displayName stray) = .ok () ∧
    stray.IsRooted ∧ out.join ((site .error).filePath stray) = (site .error).filePath stray := by
  have checked : (site .error).config.checkTypeName ["Area"] ((site .error).displayName area) = .ok () :=
    checkTypeName_eq_ok.2 (by decide)
  have checked' : (site .modulePrefix).config.checkTypeName ["Sheet"] ((site .modulePrefix).displayName sheet) =
      .ok () := checkTypeName_eq_ok.2 (by decide)
  have checked'' : (site .error).config.checkTypeName ["Stray"] ((site .error).displayName stray) = .ok () :=
    checkTypeName_eq_ok.2 (by decide)
  have file : (site .error).filePath area = ⟨.relative, ["geo", "plane", "shapes", "Area.ts"]⟩ := by decide
  have rooted : stray.IsRooted := ⟨"/etc", by decide, by decide⟩
  obtain ⟨-, anchor, below, -⟩ := isBelow_filePath_iff (site .error) area ["Area"] checked
  obtain ⟨-, -, -, -, prefixed⟩ := isBelow_filePath_iff (site .modulePrefix) sheet ["Sheet"] checked'
  obtain ⟨-, -, -, stays, -⟩ := isBelow_filePath_iff (site .error) stray ["Stray"] checked''
  exact ⟨checked, file, below.2 (anchor.1 (by rw [file])) out, checked', by decide, rfl, prefixed rfl, checked'',
    rooted, stays rooted out⟩

/-- The file of `stray` is not in the directory of the export. -/
theorem stray_leaves_directory :
    (site .error).config.checkTypeName ["Stray"] ((site .error).displayName stray) = .ok () ∧
    (site .error).filePath stray = ⟨.root, ["etc", "Stray.ts"]⟩ ∧
    out.join ((site .error).filePath stray) = ⟨.root, ["etc", "Stray.ts"]⟩ ∧
    ¬ (out.join ((site .error).filePath stray)).IsBelow out := by
  have file : (site .error).filePath stray = ⟨.root, ["etc", "Stray.ts"]⟩ := by decide
  have moved : out.join ((site .error).filePath stray) = ⟨.root, ["etc", "Stray.ts"]⟩ := by rw [file]; rfl
  refine ⟨checkTypeName_eq_ok.2 (by decide), file, moved, ?_⟩
  rintro ⟨down, -, -, e⟩
  rw [moved] at e
  have first := (List.cons.inj (congrArg FilePath.names e)).1
  exact absurd first (by decide)

end Sheets

end Export

end ShapeExport
