import ShapeExport.Output
import ShapeExport.Proofs.FileTree.Pruning
import ShapeExport.Proofs.Text.Pieces

/-!
# Cleaning up a directory

* `FileTree.Cleans` : the view after a directory was cleaned up: generated files are left if they were
  written, and directories if they hold a file;
* `FileTree.cleanUp_cases` : cleaning up does nothing where a path leads to no directory;
* `FileTree.cleanUp_again` : cleaning up what was cleaned up before changes nothing.
-/

namespace ShapeExport.FileTree

variable {t t' s : FileTree} {directory : FilePath} {base : Place} {suffix : String} {written : List FilePath}

theorem isGenerated_iff {suffix : String} {p : Place} :
    isGenerated suffix p ↔ suffix.toList <:+ (p.getLast?.getD "").toList := by
  unfold isGenerated
  exact Text.endsWith_iff

/-- A directory has been cleaned up. -/
structure Cleans (t t' : FileTree) (directory : FilePath) (base : Place) (suffix : String) (kept : List Place) :
    Prop where
  located : t.locate directory = .ok base
  there : t.find? base = some .directory
  pruned : (t.removeFiles base (isStale suffix kept)).prune directory base = (t', .ok ())

theorem cleanUp_of_directory (located : t.locate directory = .ok base) (there : t.find? base = some .directory) :
    t.cleanUp directory suffix written =
      ((t.cleanUpAt directory base suffix (t.places written)).1,
        (t.cleanUpAt directory base suffix (t.places written)).2.mapError (.cleanUpFailed directory)) := by
  unfold cleanUp
  rw [located]
  dsimp only
  rw [if_pos there]

theorem cleanUp_of_not_directory (h : t.node directory ≠ .ok .directory) :
    (t.cleanUp directory suffix written).1 = t := by
  unfold cleanUp
  split
  · rfl
  · rfl
  · next p located =>
    rw [if_neg fun there => h (node_eq_directory.2 ⟨p, located, there⟩)]

theorem cleanUp_cases (h : t.cleanUp directory suffix written = (t', .ok ())) :
    (t' = t ∧ t.node directory ≠ .ok .directory) ∨ ∃ base, t.Cleans t' directory base suffix (t.places written) := by
  by_cases hd : t.node directory = .ok .directory
  · obtain ⟨base, located, there⟩ := node_eq_directory.1 hd
    rw [cleanUp_of_directory located there] at h
    obtain ⟨tree, result⟩ := Prod.mk.inj h
    refine Or.inr ⟨base, located, there, Prod.ext tree ?_⟩
    show (t.cleanUpAt directory base suffix (t.places written)).2 = .ok ()
    cases hr : (t.cleanUpAt directory base suffix (t.places written)).2 with
    | error fault =>
      rw [hr] at result
      cases result
    | ok _ => rfl
  · refine Or.inl ⟨?_, hd⟩
    rw [← cleanUp_of_not_directory hd, h]

namespace Cleans

variable {kept : List Place}

theorem base_eq (h : t.Cleans t' directory base suffix kept) : t.place directory = base :=
  (locate_eq_ok.1 h.located).2.2.symm

theorem prunes (h : t.Cleans t' directory base suffix kept) (sound : t.Sound) :
    (t.removeFiles base (isStale suffix kept)).Prunes t' base :=
  prunes_of_ok (sound_removeFiles sound _) h.base_eq h.pruned

/-- A file is left unless it is a generated one in the directory that is not kept. -/
theorem find?_file (h : t.Cleans t' directory base suffix kept) (sound : t.Sound) (q : Place) (text : String) :
    t'.find? q = some (.file text) ↔
      t.find? q = some (.file text) ∧ (isBelow base q → isGenerated suffix q → q ∈ kept) := by
  rw [(h.prunes sound).find?_file, find?_removeFiles sound]
  unfold isStale
  constructor
  · intro hq
    split at hq
    · cases hq
    · next stays =>
      refine ⟨hq, fun hb hg => ?_⟩
      by_contra hk
      exact stays ⟨by simp [hq], hb, by simp [hg, hk]⟩
  · rintro ⟨hq, keep⟩
    rw [if_neg, hq]
    rintro ⟨-, hb, hs⟩
    rw [Bool.and_eq_true, Bool.not_eq_true', List.contains_eq_mem, decide_eq_false_iff_not] at hs
    exact hs.2 (keep hb hs.1)

end Cleans

/-- A tree that has only directories more than a cleaned up one, and none more than the tree that this was made
from, is cleaned up to it. -/
theorem cleanUp_again {kept : List Place} (ht : t.Sound) (cleans : t.Cleans t' directory base suffix kept)
    (hs : s.Sound) (working : s.workingDirectory = t.workingDirectory)
    (between : ∀ q, s.find? q = t'.find? q ∨ s.find? q = (t.removeFiles base (isStale suffix kept)).find? q)
    (keeps : ∀ q text, s.find? q = some (.file text) → isBelow base q → isGenerated suffix q → q ∈ s.places written)
    (same : (∀ q, s.find? q = t'.find? q) ∨ s.node directory = .ok .directory) (q : Place) :
    (s.cleanUp directory suffix written).1.find? q = t'.find? q := by
  by_cases hd : s.node directory = .ok .directory
  · obtain ⟨place, located, there⟩ := node_eq_directory.1 hd
    obtain rfl : place = base := by
      rw [(locate_eq_ok.1 located).2.2, ← cleans.base_eq]
      unfold FileTree.place start
      rw [working]
    -- Every generated file there is one that was written, so none is removed.
    have unchanged : ∀ q, (s.removeFiles place (isStale suffix (s.places written))).find? q = s.find? q := by
      intro q
      rw [find?_removeFiles hs]
      split
      · next removed =>
        obtain ⟨file, hb, stale⟩ := removed
        unfold isStale at stale
        rw [Bool.and_eq_true, Bool.not_eq_true', List.contains_eq_mem, decide_eq_false_iff_not] at stale
        rcases hq : s.find? q with _ | (_ | text)
        · rfl
        · exact absurd hq file
        · exact absurd (keeps q text hq hb stale.1) stale.2
      · rfl
    let kept := s.removeFiles place (isStale suffix (s.places written))
    have between' : ∀ q, kept.find? q = t'.find? q ∨ kept.find? q = _ := fun q => by
      rw [unchanged]
      exact between q
    have located' : kept.locate directory = .ok place :=
      (locate_congr (show kept.workingDirectory = s.workingDirectory from rfl) unchanged).2 located
    obtain ⟨s', pruned, view⟩ := prune_again (sound_removeFiles ht _) cleans.base_eq cleans.pruned
      (sound_removeFiles hs _) working between' located' ((unchanged place).trans there)
    rw [cleanUp_of_directory located there]
    show (s.cleanUpAt directory place suffix (s.places written)).1.find? q = _
    unfold cleanUpAt
    rw [pruned]
    exact view q
  · rw [cleanUp_of_not_directory hd]
    exact same.resolve_right hd q

end ShapeExport.FileTree
