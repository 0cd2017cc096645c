import Mathlib.Data.List.Lex
import Mathlib.Data.String.Basic
import ShapeExport.Proofs.FileTree.View

/-!
# Removing files and directories

* `FileTree.find?_removeFiles` : the view after files were removed;
* `FilePath.le_iff`, `FileTree.not_le_of_isBelow` : what lies in a directory comes behind it in the order
  of paths;
* `FileTree.BottomUp` : a list of directories in which each comes before the one that holds it;
* `FileTree.bare` : a tree without those among some directories that hold no file;
* `FileTree.prune_eq_ok` : pruning leaves the directories that hold a file, at any depth;
* `FileTree.prune_again` : what was pruned and came back is pruned once more.
-/

namespace ShapeExport

/-! ## The order of paths -/

namespace FilePath

theorem le_iff {p q : FilePath} : p.le q ↔ p.components ≤ q.components := by
  unfold le
  rw [Bool.not_eq_true', List.lex_eq_decide_lex, decide_eq_false_iff_not, ← not_lt]
  simp only [decide_eq_true_eq]
  exact Iff.rfl

theorem lt_append {names more : List String} (h : more ≠ []) : names < names ++ more := by
  induction names with
  | nil =>
    obtain ⟨name, more, rfl⟩ := List.exists_cons_of_ne_nil h
    exact List.Lex.nil
  | cons name names ih => exact List.Lex.cons ih

end FilePath

namespace FileTree

variable {t t' s : FileTree} {directory : FilePath} {base p q d e : Place}

theorem isBelow_iff : isBelow p q ↔ p <+: q ∧ p ≠ q := by
  unfold isBelow
  rw [Bool.and_eq_true, List.isPrefixOf_iff_prefix, decide_eq_true_eq]
  refine and_congr_right fun hp => ⟨fun hl e => ?_, fun hne => ?_⟩
  · rw [e] at hl
    omega
  · have := hp.length_le
    have : p.length ≠ q.length := fun hl => hne (hp.eq_of_length hl)
    omega

theorem isBelow_append {names : List String} : isBelow p (p ++ names) ↔ names ≠ [] := by
  rw [isBelow_iff]
  simp [List.prefix_append]

theorem isBelow_trans (h : isBelow p q) (h' : isBelow q d) : isBelow p d := by
  rw [isBelow_iff] at h h' ⊢
  refine ⟨h.1.trans h'.1, ?_⟩
  rintro rfl
  exact h.2 (h.1.eq_of_length_le h'.1.length_le)

theorem isBelow_above (h : p ≠ []) : isBelow (above p) p := by
  refine isBelow_iff.2 ⟨List.dropLast_prefix p, fun e => ?_⟩
  have shorter := congrArg List.length e
  have := List.length_pos_iff.2 h
  rw [above, List.length_dropLast] at shorter
  omega

/-! ## Removing files -/

/-- Whether there is a file in a directory, at any depth. -/
def holdsFile (t : FileTree) (p : Place) : Bool :=
  t.entries.any fun (q, n) => n ≠ .directory && isBelow p q

theorem Sound.holdsFile_iff (h : t.Sound) :
    t.holdsFile p ↔ ∃ q text, isBelow p q ∧ t.find? q = some (.file text) := by
  unfold holdsFile
  rw [List.any_eq_true]
  constructor
  · rintro ⟨⟨q, n⟩, hm, hq⟩
    rw [Bool.and_eq_true, decide_eq_true_eq] at hq
    cases n with
    | directory => exact absurd rfl hq.1
    | file text => exact ⟨q, text, hq.2, h.find?_of_mem hm⟩
  · rintro ⟨q, text, hb, hq⟩
    have hne : q ≠ [] := by
      rintro rfl
      rw [find?_root] at hq
      cases hq
    exact ⟨(q, .file text), mem_entries_of_find? hq hne, by simp [hb]⟩

theorem Sound.holdsFile_congr (h : t.Sound) (h' : s.Sound)
    (same : ∀ q text, s.find? q = some (.file text) ↔ t.find? q = some (.file text)) (p : Place) :
    s.holdsFile p = t.holdsFile p := by
  rw [Bool.eq_iff_iff, h.holdsFile_iff, h'.holdsFile_iff]
  simp only [same]

theorem find?_removeFiles (h : t.Sound) (test : Place → Bool) (q : Place) :
    (t.removeFiles p test).find? q =
      if t.find? q ≠ some .directory ∧ isBelow p q ∧ test q then none else t.find? q := by
  rw [removeFiles, find?_filter h]
  rcases hq : t.find? q with _ | (_ | text)
  · simp
  · simp [Option.filter]
  · by_cases hr : q = []
    · rw [hr, find?_root] at hq
      cases hq
    · by_cases hb : isBelow p q <;> by_cases ht : test q <;> simp [Option.filter, hr, hb, ht]

theorem sound_removeFiles (h : t.Sound) (test : Place → Bool) : (t.removeFiles p test).Sound := by
  refine h.filter (fun e he hf => Or.inr ?_) (Or.inr ?_)
  · simp
  · simp

/-! ## From the bottom up -/

/-- The path to a place in a directory, through the path to the directory. -/
def pathIn (directory : FilePath) (base p : Place) : FilePath := directory.join ⟨.relative, p.drop base.length⟩

theorem pathIn_append (directory : FilePath) (base : Place) (names : List String) :
    pathIn directory base (base ++ names) = ⟨directory.anchor, directory.names ++ names⟩ := by
  rw [pathIn, List.drop_left]
  rfl

theorem place_pathIn (hb : t.place directory = base) (h : isBelow base p) (hd : ".." ∉ p) :
    t.place (pathIn directory base p) = p := by
  obtain ⟨names, rfl⟩ := (isBelow_iff.1 h).1
  rw [List.mem_append, not_or] at hd
  rw [pathIn_append, place, List.foldl_append]
  show names.foldl step (t.place directory) = _
  rw [hb, foldl_step_of_ne hd.2]

/-- What lies in a directory has a greater path. -/
theorem not_le_of_isBelow (hd : isBelow base d) (he : isBelow d e) :
    ¬ (pathIn directory base e).le (pathIn directory base d) := by
  obtain ⟨names, rfl⟩ := (isBelow_iff.1 hd).1
  obtain ⟨more, rfl⟩ := (isBelow_iff.1 he).1
  rw [FilePath.le_iff, List.append_assoc, pathIn_append, pathIn_append, not_le]
  have hm : more ≠ [] := isBelow_append.1 he
  unfold FilePath.components
  dsimp only
  split
  · rw [← List.append_assoc]
    exact FilePath.lt_append hm
  · rw [← List.append_assoc]
    exact List.Lex.cons (FilePath.lt_append hm)

theorem eq_of_pathIn_le (hd : isBelow base d) (he : isBelow base e)
    (h : (pathIn directory base d).le (pathIn directory base e))
    (h' : (pathIn directory base e).le (pathIn directory base d)) : d = e := by
  obtain ⟨names, rfl⟩ := (isBelow_iff.1 hd).1
  obtain ⟨more, rfl⟩ := (isBelow_iff.1 he).1
  rw [FilePath.le_iff] at h h'
  have same := le_antisymm h h'
  rw [pathIn_append, pathIn_append] at same
  unfold FilePath.components at same
  dsimp only at same
  split at same
  · rw [List.append_cancel_left same]
  · rw [List.append_cancel_left (List.cons.inj same).2]

/-- The directories in a directory, each before the one that holds it. -/
structure BottomUp (t : FileTree) (directory : FilePath) (base : Place) (ds : List Place) : Prop where
  mem : ∀ d, d ∈ ds ↔ t.find? d = some .directory ∧ isBelow base d
  distinct : ds.Nodup
  sorted : ds.Pairwise fun d e => (pathIn directory base e).le (pathIn directory base d)

theorem BottomUp.before {ds before after : List Place} (h : t.BottomUp directory base ds)
    (split : ds = before ++ d :: after) (he : t.find? e = some .directory) (hde : isBelow d e) : e ∈ before := by
  have hd : isBelow base d := ((h.mem d).1 (by simp [split])).2
  have hm : e ∈ ds := (h.mem e).2 ⟨he, isBelow_trans hd hde⟩
  have sorted := h.sorted
  rw [split] at hm sorted
  rcases List.mem_append.1 hm with hm | hm
  · exact hm
  · rcases List.mem_cons.1 hm with rfl | hm
    · exact absurd rfl (isBelow_iff.1 hde).2
    · have := (List.pairwise_cons.1 (List.pairwise_append.1 sorted).2.1).1 e hm
      exact absurd this (not_le_of_isBelow hd hde)

/-- The directories that pruning goes through, by their places. -/
theorem Sound.exists_bottomUp (h : t.Sound) (hb : t.place directory = base) :
    ∃ ds, t.BottomUp directory base ds ∧ t.subdirectories directory base = ds.map (pathIn directory base) := by
  let places := (t.entries.filter fun (p, n) => n = .directory && isBelow base p).map (·.1)
  have mem : ∀ d, d ∈ places ↔ t.find? d = some .directory ∧ isBelow base d := by
    intro d
    constructor
    · intro hm
      obtain ⟨⟨p, n⟩, hf, rfl⟩ := List.mem_map.1 hm
      obtain ⟨hm, hk⟩ := List.mem_filter.1 hf
      rw [Bool.and_eq_true, decide_eq_true_eq] at hk
      obtain ⟨rfl, hk⟩ := hk
      exact ⟨h.find?_of_mem hm, hk⟩
    · rintro ⟨hf, hk⟩
      have hne : d ≠ [] := by
        rintro rfl
        exact (isBelow_iff.1 hk).2 (List.prefix_nil.1 (isBelow_iff.1 hk).1)
      exact List.mem_map.2 ⟨(d, .directory), List.mem_filter.2 ⟨mem_entries_of_find? hf hne, by simp [hk]⟩, rfl⟩
  have distinct : places.Nodup := h.distinct.sublist (List.filter_sublist.map _)
  -- The order is one of paths, but a place and the path to it tell each other.
  have back : ∀ d ∈ places, t.place (pathIn directory base d) = d := fun d hd =>
    place_pathIn hb ((mem d).1 hd).2 (h.not_mem_dots ((mem d).1 hd).1)
  have order : (t.subdirectories directory base).Pairwise fun p q => q.le p := by
    refine List.pairwise_mergeSort (fun p q r hpq hqr => ?_) (fun p q => ?_) _
    · rw [FilePath.le_iff] at hpq hqr ⊢
      exact le_trans hqr hpq
    · rw [Bool.or_eq_true, FilePath.le_iff, FilePath.le_iff]
      exact le_total _ _
  have perm : (t.subdirectories directory base).Perm (places.map (pathIn directory base)) :=
    List.mergeSort_perm _ _
  have perm' : ((t.subdirectories directory base).map t.place).Perm places := by
    refine (perm.map _).trans (List.Perm.of_eq ?_)
    rw [List.map_map]
    exact (List.map_congr_left back).trans (List.map_id _)
  have same : t.subdirectories directory base =
      ((t.subdirectories directory base).map t.place).map (pathIn directory base) := by
    rw [List.map_map]
    refine ((List.map_congr_left fun path hp => ?_).trans (List.map_id _)).symm
    obtain ⟨d, hd, rfl⟩ := List.mem_map.1 (perm.mem_iff.1 hp)
    exact congrArg (pathIn directory base) (back d hd)
  refine ⟨_, ⟨fun d => perm'.mem_iff.trans (mem d), perm'.nodup_iff.2 distinct, ?_⟩, same⟩
  rw [same] at order
  exact List.pairwise_map.1 order

/-! ## Without what is bare -/

/-- A tree without those among some directories that hold no file. -/
def bare (t : FileTree) (ds : List Place) : FileTree :=
  { t with entries := t.entries.filter fun (p, _) => !ds.contains p || t.holdsFile p }

theorem find?_bare (h : t.Sound) (ds : List Place) (q : Place) :
    (t.bare ds).find? q = if q ≠ [] ∧ q ∈ ds ∧ ¬ t.holdsFile q then none else t.find? q := by
  rw [bare, find?_filter h]
  by_cases hr : q = []
  · simp [hr, Option.filter]
  · by_cases hm : q ∈ ds <;> by_cases hf : t.holdsFile q <;> cases t.find? q <;>
      simp [Option.filter, hr, hm, hf]

theorem bare_nil (t : FileTree) : t.bare [] = t := by
  simp [bare]

/-- A directory that holds a file is kept. -/
theorem bare_concat_of_holdsFile {ds : List Place} (h : t.holdsFile d) : t.bare (ds ++ [d]) = t.bare ds := by
  unfold bare
  congr 1
  apply List.filter_congr
  rintro ⟨p, n⟩ -
  by_cases e : p = d
  · simp [e, h]
  · simp [e]

/-- One that does not is taken away. -/
theorem bare_concat_of_not_holdsFile {ds : List Place} (h : ¬ t.holdsFile d) :
    t.bare (ds ++ [d]) = (t.bare ds).erase d := by
  unfold bare erase
  congr 1
  rw [List.filter_filter]
  apply List.filter_congr
  rintro ⟨p, n⟩ -
  by_cases e : p = d
  · simp [e, h]
  · simp [e]

theorem isVacant_iff : t.isVacant p ↔ ∀ e ∈ t.entries, e.1 ≠ [] → above e.1 ≠ p := by
  unfold isVacant
  simp [List.any_eq_false]

/-- What lies in a directory is a file, or a directory that holds one. Then so does the directory. -/
theorem Sound.holdsFile_above (h : t.Sound) {n : FileNode} (hm : (p, n) ∈ t.entries)
    (holds : n = .directory → t.holdsFile p) : t.holdsFile (above p) := by
  have hb : isBelow (above p) p := isBelow_above (h.proper _ hm).1
  cases n with
  | file text => exact h.holdsFile_iff.2 ⟨p, text, hb, h.find?_of_mem hm⟩
  | directory =>
    obtain ⟨q, text, hq, hf⟩ := h.holdsFile_iff.1 (holds rfl)
    exact h.holdsFile_iff.2 ⟨q, text, isBelow_trans hb hq, hf⟩

/-- The entry on the way from a directory to a file in it. -/
theorem Sound.exists_child (h : t.Sound) (holds : t.holdsFile d) :
    ∃ name n, t.find? (d ++ [name]) = some n ∧ (n = .directory → t.holdsFile (d ++ [name])) := by
  obtain ⟨q, text, hb, hq⟩ := h.holdsFile_iff.1 holds
  obtain ⟨names, rfl⟩ := (isBelow_iff.1 hb).1
  obtain ⟨name, names, rfl⟩ := List.exists_cons_of_ne_nil (isBelow_append.1 hb)
  refine ⟨name, ?_⟩
  cases names with
  | nil =>
    refine ⟨_, hq, fun e => ?_⟩
    cases e
  | cons next names =>
    have way : d ++ name :: next :: names = (d ++ [name]) ++ next :: names := by simp
    rw [way] at hq
    have hb : isBelow (d ++ [name]) ((d ++ [name]) ++ next :: names) := isBelow_append.2 (List.cons_ne_nil _ _)
    exact ⟨_, h.find?_prefix hq (isBelow_iff.1 hb).1 (isBelow_iff.1 hb).2,
      fun _ => h.holdsFile_iff.2 ⟨_, _, hb, hq⟩⟩

/-- When all directories in it have been gone through, a directory is vacant unless it holds a file. -/
theorem isVacant_bare (h : t.Sound) {ds : List Place} (directories : ∀ p ∈ ds, t.find? p = some .directory)
    (through : ∀ e, t.find? e = some .directory → isBelow d e → e ∈ ds) :
    (t.bare ds).isVacant d = !t.holdsFile d := by
  rw [Bool.eq_iff_iff, isVacant_iff, Bool.not_eq_true']
  constructor
  · intro vacant
    by_contra holds
    obtain ⟨name, n, hn, holds⟩ := h.exists_child (by simpa using holds)
    have kept : (d ++ [name], n) ∈ (t.bare ds).entries := by
      refine List.mem_filter.2 ⟨mem_entries_of_find? hn (by simp), ?_⟩
      by_cases hd : d ++ [name] ∈ ds
      · have := directories _ hd
        rw [hn] at this
        simp [holds (Option.some.inj this)]
      · simp [hd]
    apply vacant _ kept (by simp)
    rw [above, List.dropLast_concat]
  · rintro none ⟨p, n⟩ he hp rfl
    obtain ⟨he, kept⟩ := List.mem_filter.1 he
    refine Bool.false_ne_true (none.symm.trans (h.holdsFile_above he ?_))
    rintro rfl
    have inside : p ∈ ds := through p (h.find?_of_mem he) (isBelow_above hp)
    simpa [inside] using kept

/-! ## Pruning -/

/-- What is needed to go through a directory: its path leads to it, and it may be removed if it holds no
file. -/
structure Passes (t : FileTree) (directory : FilePath) (base : Place) (before : List Place) (d : Place) : Prop where
  located : (t.bare before).locate (pathIn directory base d) = .ok d
  free : t.holdsFile d ∨ ¬ d <+: t.workingDirectory

theorem removeVacant_bare (h : t.Sound) {ds before after : List Place} (order : t.BottomUp directory base ds)
    (split : ds = before ++ d :: after) (hb : t.place directory = base) :
    (t.bare before).removeVacant (pathIn directory base d) = .ok t' ↔
      t.Passes directory base before d ∧ t' = t.bare (before ++ [d]) := by
  have inside : ∀ p ∈ ds, t.find? p = some .directory ∧ isBelow base p := fun p hp => (order.mem p).1 hp
  have hd : d ∈ ds := by simp [split]
  have home : ∀ {q}, (t.bare before).locate (pathIn directory base d) = .ok q → q = d := by
    intro q hq
    rw [(locate_eq_ok.1 hq).2.2]
    exact place_pathIn hb (inside d hd).2 (h.not_mem_dots (inside d hd).1)
  -- What is below was visited before, so only a file below keeps the directory.
  have vacant : (t.bare before).isVacant d = !t.holdsFile d :=
    isVacant_bare h (fun p hp => (inside p (by rw [split]; exact List.mem_append_left _ hp)).1)
      fun e he hde => order.before split he hde
  have used : d.isPrefixOf (t.bare before).workingDirectory = true ↔ d <+: t.workingDirectory :=
    List.isPrefixOf_iff_prefix
  unfold removeVacant
  refine Iff.trans bind_eq_ok ?_
  constructor
  · rintro ⟨q, hq, removed⟩
    obtain rfl := home hq
    by_cases holds : t.holdsFile q
    · rw [if_pos (by simp [vacant, holds])] at removed
      rw [bare_concat_of_holdsFile holds]
      exact ⟨⟨hq, Or.inl holds⟩, (Except.ok.inj removed).symm⟩
    · rw [if_neg (by simp [vacant, holds])] at removed
      by_cases hu : q <+: t.workingDirectory
      · rw [if_pos (used.2 hu)] at removed
        cases removed
      · rw [if_neg (mt used.1 hu)] at removed
        rw [bare_concat_of_not_holdsFile holds]
        exact ⟨⟨hq, Or.inr hu⟩, (Except.ok.inj removed).symm⟩
  · rintro ⟨⟨hq, free⟩, rfl⟩
    refine ⟨d, hq, ?_⟩
    by_cases holds : t.holdsFile d
    · rw [if_pos (by simp [vacant, holds]), bare_concat_of_holdsFile holds]
      rfl
    · rw [if_neg (by simp [vacant, holds]), if_neg (mt used.1 (free.resolve_left holds)),
        bare_concat_of_not_holdsFile holds]
      rfl

theorem removeEach_bare (h : t.Sound) {ds before after : List Place} (order : t.BottomUp directory base ds)
    (split : ds = before ++ after) (hb : t.place directory = base) :
    (t.bare before).removeEach (after.map (pathIn directory base)) = (t', .ok ()) ↔
      (∀ first d rest, after = first ++ d :: rest → t.Passes directory base (before ++ first) d) ∧ t' = t.bare ds := by
  induction after generalizing before with
  | nil =>
    rw [split, List.append_nil, List.map_nil, removeEach]
    constructor
    · intro removed
      refine ⟨fun first d rest e => ?_, (Prod.mk.inj removed).1.symm⟩
      cases first <;> cases e
    · rintro ⟨-, rfl⟩
      rfl
  | cons d after ih =>
    -- The visited directories are the accumulator: the step moves one over.
    have next : ds = (before ++ [d]) ++ after := by
      rw [split, List.append_assoc, List.singleton_append]
    have step (u : FileTree) : (t.bare before).removeVacant (pathIn directory base d) = .ok u ↔
        t.Passes directory base before d ∧ u = t.bare (before ++ [d]) := removeVacant_bare h order split hb
    rw [List.map_cons, removeEach]
    constructor
    · intro removed
      split at removed
      · cases removed
      · next u hu =>
        obtain ⟨passes, rfl⟩ := (step u).1 hu
        obtain ⟨others, rfl⟩ := (ih next).1 removed
        refine ⟨fun first e rest es => ?_, rfl⟩
        cases first with
        | nil =>
          obtain ⟨rfl, rfl⟩ := List.cons.inj es
          rw [List.append_nil]
          exact passes
        | cons f first =>
          rw [List.cons_append, List.cons.injEq] at es
          obtain ⟨rfl, es⟩ := es
          rw [← List.singleton_append, ← List.append_assoc]
          exact others first e rest es
    · rintro ⟨passes, rfl⟩
      have first : t.Passes directory base before d := by
        have := passes [] d after rfl
        rwa [List.append_nil] at this
      rw [(step _).2 ⟨first, rfl⟩]
      refine (ih next).2 ⟨fun more e rest es => ?_, rfl⟩
      rw [List.append_assoc, List.singleton_append]
      exact passes (d :: more) e rest (by rw [es, List.cons_append])

theorem prune_iff (h : t.Sound) (hb : t.place directory = base) {ds : List Place}
    (order : t.BottomUp directory base ds)
    (through : t.subdirectories directory base = ds.map (pathIn directory base)) :
    t.prune directory base = (t', .ok ()) ↔
      (∀ first d rest, ds = first ++ d :: rest → t.Passes directory base first d) ∧ t' = t.bare ds := by
  have all : (t.bare []).removeEach (ds.map (pathIn directory base)) = (t', .ok ()) ↔ _ :=
    removeEach_bare h order rfl hb
  rw [bare_nil] at all
  rw [prune, through, all]
  simp only [List.nil_append]

/-- The directories that are left in a directory hold a file. -/
structure Prunes (t t' : FileTree) (base : Place) : Prop where
  view : ∀ q, t'.find? q =
    if t.find? q = some .directory ∧ isBelow base q ∧ ¬ t.holdsFile q then none else t.find? q
  working : t'.workingDirectory = t.workingDirectory
  sound : t'.Sound

theorem prunes_bare (h : t.Sound) {ds : List Place} (order : t.BottomUp directory base ds)
    (passes : ∀ first d rest, ds = first ++ d :: rest → t.Passes directory base first d) :
    t.Prunes (t.bare ds) base := by
  refine ⟨fun q => ?_, rfl, h.filter (fun e he kept => ?_) ?_⟩
  · rw [find?_bare h]
    by_cases hm : q ∈ ds
    · have := (order.mem q).1 hm
      have hne : q ≠ [] := by
        rintro rfl
        exact (isBelow_iff.1 this.2).2 (List.prefix_nil.1 (isBelow_iff.1 this.2).1)
      simp [hm, hne, this]
    · have : ¬ (t.find? q = some .directory ∧ isBelow base q ∧ ¬ t.holdsFile q) :=
        fun hq => hm ((order.mem q).2 ⟨hq.1, hq.2.1⟩)
      rw [if_neg this, if_neg fun hq => hm hq.2.1]
  · obtain ⟨p, n⟩ := e
    right
    have hp : p ≠ [] := (h.proper _ he).1
    by_cases hm : above p ∈ ds
    · have hb : isBelow base p := isBelow_trans ((order.mem _).1 hm).2 (isBelow_above hp)
      have holds : t.holdsFile (above p) := by
        apply h.holdsFile_above he
        rintro rfl
        have inside : p ∈ ds := (order.mem p).2 ⟨h.find?_of_mem he, hb⟩
        simpa [inside] using kept
      simp [holds]
    · simp [hm]
  · right
    by_cases hm : t.workingDirectory ∈ ds
    · obtain ⟨before, after, split⟩ := List.append_of_mem hm
      obtain holds | off := (passes _ _ _ split).free
      · simp [holds]
      · exact absurd (List.prefix_refl _) off
    · simp [hm]

theorem prunes_of_ok (h : t.Sound) (hb : t.place directory = base)
    (pruned : t.prune directory base = (t', .ok ())) : t.Prunes t' base := by
  obtain ⟨ds, order, through⟩ := h.exists_bottomUp hb
  obtain ⟨passes, rfl⟩ := (prune_iff h hb order through).1 pruned
  exact prunes_bare h order passes

theorem Prunes.find?_file (h : t.Prunes t' base) (q : Place) (text : String) :
    t'.find? q = some (.file text) ↔ t.find? q = some (.file text) := by
  rw [h.view]
  split
  · next bare => simp [bare.1]
  · exact Iff.rfl

/-- Each directory that is left holds something. -/
theorem Prunes.not_isVacant (h : t.Prunes t' base) (sound : t.Sound) (hp : isBelow base p)
    (hd : t'.find? p = some .directory) : ∃ name, t'.find? (p ++ [name]) ≠ none := by
  have holds : t.holdsFile p := by
    by_contra bare
    rw [h.view] at hd
    split at hd
    · cases hd
    · next kept => exact kept ⟨hd, hp, bare⟩
  obtain ⟨name, n, hn, holds⟩ := sound.exists_child holds
  refine ⟨name, ?_⟩
  rw [h.view, if_neg, hn]
  · exact Option.some_ne_none n
  · rintro ⟨hd, -, bare⟩
    rw [hn] at hd
    exact bare (holds (Option.some.inj hd))

/-- A directory in a list comes before another one in it when it comes before that in a larger list. -/
theorem BottomUp.eq_or_mem {ds es before after first rest : List Place} (hs : s.BottomUp directory base es)
    (ht : t.BottomUp directory base ds) (split : ds = before ++ d :: after) (split' : es = first ++ d :: rest)
    (he : e ∈ first) (hm : e ∈ ds) : e ∈ before := by
  have below : ∀ p ∈ ds, isBelow base p := fun p hp => ((ht.mem p).1 hp).2
  have hd : isBelow base d := below d (by simp [split])
  have less : (pathIn directory base d).le (pathIn directory base e) := by
    have sorted := hs.sorted
    rw [split'] at sorted
    exact (List.pairwise_append.1 sorted).2.2 e he d List.mem_cons_self
  have ne : e ≠ d := by
    rintro rfl
    have distinct := hs.distinct
    rw [split'] at distinct
    exact (List.nodup_append.1 distinct).2.2 e he e List.mem_cons_self rfl
  rw [split] at hm
  rcases List.mem_append.1 hm with hm | hm
  · exact hm
  · rcases List.mem_cons.1 hm with rfl | hm
    · exact absurd rfl ne
    · have sorted := ht.sorted
      rw [split] at sorted
      have greater := (List.pairwise_cons.1 (List.pairwise_append.1 sorted).2.1).1 e hm
      exact absurd (eq_of_pathIn_le (below e (by rw [split]; simp [hm])) hd greater less) ne

/-- All on the way to a directory below the base is a directory, when all on the way to the base is. -/
theorem Sound.find?_stop (h : s.Sound) (located : s.locate directory = .ok base)
    (there : s.find? base = some .directory) (hd : s.find? d = some .directory) (below : isBelow base d) {v : Place}
    (hv : v ∈ stops (s.start directory) (pathIn directory base d).names) : s.find? v = some .directory := by
  have hb : s.place directory = base := (locate_eq_ok.1 located).2.2.symm
  obtain ⟨names, rfl⟩ := (isBelow_iff.1 below).1
  rw [pathIn_append, stops_append] at hv
  rcases List.mem_append.1 hv with hv | hv
  · exact (locate_eq_ok.1 located).2.1 v hv
  · have dots : ".." ∉ names := fun dot => h.not_mem_dots hd (List.mem_append_right _ dot)
    have hv : v ∈ stops base names := by
      rw [← hb]
      exact hv
    rcases prefix_of_walk (Or.inl hv) with hv | hv
    · by_cases e : v = base
      · rw [e, there]
      · exact h.find?_prefix there hv e
    · obtain ⟨more, hm, -, rfl⟩ := (mem_entered_iff dots base v).1 hv
      by_cases e : base ++ more = base ++ names
      · rw [e, hd]
      · exact h.find?_prefix hd ((List.prefix_append_right_inj base).2 hm) e

/-- A directory is passed in another tree too when no more is removed before it there. -/
theorem Passes.transfer {before first : List Place} (passes : t.Passes directory base before d) (ht : t.Sound)
    (hs : s.Sound) (working : s.workingDirectory = t.workingDirectory) (holds : ∀ p, s.holdsFile p = t.holdsFile p)
    (located : s.locate directory = .ok base) (there : s.find? base = some .directory)
    (hd : s.find? d = some .directory) (below : isBelow base d)
    (sooner : ∀ v ∈ first, s.find? v = some .directory → v ∈ before) : s.Passes directory base first d := by
  obtain ⟨passed, free⟩ := passes
  obtain ⟨passable, directories, -⟩ := locate_eq_ok.1 passed
  have hb : s.place directory = base := (locate_eq_ok.1 located).2.2.symm
  have start : s.start directory = t.start directory := by
    unfold FileTree.start
    rw [working]
  refine ⟨locate_eq_ok.2 ⟨passable, fun v hv => ?_, ?_⟩, ?_⟩
  · have now : s.find? v = some .directory := hs.find?_stop located there hd below hv
    have kept : (t.bare before).find? v = some .directory := by
      apply directories
      show v ∈ stops (t.start directory) _
      rw [← start]
      exact hv
    rw [find?_bare ht] at kept
    rw [find?_bare hs, now, holds, if_neg]
    rintro ⟨hne, hm, bare⟩
    rw [if_pos ⟨hne, sooner v hm now, bare⟩] at kept
    cases kept
  · exact (place_pathIn (t := s.bare first) hb below (hs.not_mem_dots hd)).symm
  · rw [holds, working]
    exact free

/-- A tree between one before and the same after pruning is pruned to the latter. -/
theorem prune_again (ht : t.Sound) (hb : t.place directory = base)
    (pruned : t.prune directory base = (t', .ok ())) (hs : s.Sound)
    (working : s.workingDirectory = t.workingDirectory)
    (between : ∀ q, s.find? q = t'.find? q ∨ s.find? q = t.find? q)
    (located : s.locate directory = .ok base) (there : s.find? base = some .directory) :
    ∃ s', s.prune directory base = (s', .ok ()) ∧ ∀ q, s'.find? q = t'.find? q := by
  have hb' : s.place directory = base := (locate_eq_ok.1 located).2.2.symm
  obtain ⟨ds, order, through⟩ := ht.exists_bottomUp hb
  obtain ⟨es, order', through'⟩ := hs.exists_bottomUp hb'
  obtain ⟨passes, rfl⟩ := (prune_iff ht hb order through).1 pruned
  have prunes := prunes_bare ht order passes
  -- The tree between has no more directories than the former one, and the same files.
  have earlier : ∀ {q}, s.find? q = some .directory → t.find? q = some .directory := by
    intro q hq
    rcases between q with e | e
    · rw [e, prunes.view] at hq
      split at hq
      · cases hq
      · exact hq
    · rw [← e, hq]
  have files : ∀ q text, s.find? q = some (.file text) ↔ t.find? q = some (.file text) := by
    intro q text
    rcases between q with e | e
    · rw [e, prunes.find?_file]
    · rw [e]
  have holds : ∀ p, s.holdsFile p = t.holdsFile p := ht.holdsFile_congr hs files
  -- Whatever kept pruning from failing the first time keeps it from failing now.
  have again : ∀ first d rest, es = first ++ d :: rest → s.Passes directory base first d := by
    intro first d rest split'
    obtain ⟨hd, below⟩ := (order'.mem d).1 (by simp [split'])
    obtain ⟨before, after, split⟩ := List.append_of_mem ((order.mem d).2 ⟨earlier hd, below⟩)
    refine (passes before d after split).transfer ht hs working holds located there hd below fun v hv now => ?_
    have inside : v ∈ ds := (order.mem v).2 ⟨earlier now, ((order'.mem v).1 (by simp [split', hv])).2⟩
    exact order'.eq_or_mem order split split' hv inside
  refine ⟨_, (prune_iff hs hb' order' through').2 ⟨again, rfl⟩, fun q => ?_⟩
  rw [(prunes_bare hs order' again).view, holds]
  rcases between q with e | e
  · rw [e, prunes.view]
    by_cases bare : t.find? q = some .directory ∧ isBelow base q ∧ ¬ t.holdsFile q
    · simp [bare]
    · rw [if_neg bare, if_neg bare]
  · rw [e, prunes.view]

end FileTree

end ShapeExport
