import Mathlib.Data.List.Infix
import ShapeExport.FileTree
import ShapeExport.Proofs.OrderedMap
import ShapeExport.Proofs.Outcome

/-!
# What is at a place

* `FileTree.Sound` : what holds of the trees that a process sees. Each entry lies in a directory, and the
  working directory is there;
* `FileTree.find?_set`, `FileTree.find?_filter` : the view after a change;
* `FileTree.stops`, `FileTree.entered` : the places on a walk, and those among them that a name leads to;
* `FileTree.locate_eq_ok` : a path leads to a place when its stops are directories;
* `FileTree.prefix_of_walk` : a stop holds the start of the walk, or was entered.
-/

namespace ShapeExport.FileTree

variable {t : FileTree} {p q : Place}

/-! ## The view -/

@[simp] theorem find?_root (t : FileTree) : t.find? [] = some .directory := if_pos rfl

theorem find?_of_ne (h : p ≠ []) : t.find? p = t.entries.lookup p := if_neg h

theorem mem_entries_of_find? {n : FileNode} (h : t.find? p = some n) (hp : p ≠ []) : (p, n) ∈ t.entries := by
  rw [find?_of_ne hp] at h
  obtain ⟨l, r, e, -⟩ := List.lookup_eq_some_iff.1 h
  rw [e]
  exact List.mem_append_right _ List.mem_cons_self

/-- What the trees that a process sees have in common. -/
structure Sound (t : FileTree) : Prop where
  distinct : (t.entries.map (·.1)).Nodup
  proper : ∀ e ∈ t.entries, e.1 ≠ [] ∧ ".." ∉ e.1
  held : ∀ e ∈ t.entries, t.find? (above e.1) = some .directory
  working : t.find? t.workingDirectory = some .directory

namespace Sound

theorem find?_of_mem (h : t.Sound) {n : FileNode} (hm : (p, n) ∈ t.entries) : t.find? p = some n := by
  rw [find?_of_ne (h.proper _ hm).1]
  exact lookup_of_mem_nodup h.distinct hm

theorem not_mem_dots (h : t.Sound) {n : FileNode} (hf : t.find? p = some n) : ".." ∉ p := by
  by_cases hp : p = []
  · rw [hp]
    exact List.not_mem_nil
  · exact (h.proper _ (mem_entries_of_find? hf hp)).2

theorem find?_above (h : t.Sound) {n : FileNode} (hf : t.find? p = some n) :
    t.find? (above p) = some .directory := by
  by_cases hp : p = []
  · rw [hp]
    exact find?_root t
  · exact h.held _ (mem_entries_of_find? hf hp)

/-- All that holds something is a directory. -/
theorem find?_prefix (h : t.Sound) {n : FileNode} (hf : t.find? q = some n) (hp : p <+: q) (hne : p ≠ q) :
    t.find? p = some .directory := by
  induction q using List.reverseRecOn generalizing n with
  | nil => exact absurd (List.prefix_nil.1 hp) hne
  | append_singleton q name ih =>
    have holder : t.find? q = some .directory := by
      have := h.find?_above hf
      rwa [above, List.dropLast_concat] at this
    rcases List.prefix_concat_iff.1 hp with e | hp
    · exact absurd e hne
    · by_cases e : p = q
      · rw [e, holder]
      · exact ih holder hp e

/-- The directories that are in use. -/
theorem find?_used (h : t.Sound) (hp : p <+: t.workingDirectory) : t.find? p = some .directory := by
  by_cases e : p = t.workingDirectory
  · rw [e]
    exact h.working
  · exact h.find?_prefix h.working hp e

end Sound

/-! ## Changes -/

theorem find?_erase (t : FileTree) (p q : Place) :
    (t.erase p).find? q = if q = p ∧ q ≠ [] then none else t.find? q := by
  unfold find? erase
  by_cases hq : q = []
  · simp [hq]
  · rw [if_neg hq, if_neg hq]
    induction t.entries with
    | nil => simp
    | cons e es ih =>
      by_cases he : e.1 = p
      · rw [List.filter_cons_of_neg (by simpa using he), ih, List.lookup_cons]
        by_cases hqp : q = p
        · rw [if_pos ⟨hqp, hq⟩, if_pos ⟨hqp, hq⟩]
        · have : (q == e.1) = false := by simpa [he] using hqp
          rw [this]
      · rw [List.filter_cons_of_pos (by simpa using he), List.lookup_cons, List.lookup_cons, ih]
        by_cases hqe : q = e.1
        · have hqp : ¬ (q = p ∧ q ≠ []) := fun h => he (hqe.symm.trans h.1)
          rw [if_neg hqp, if_neg hqp]
        · have : (q == e.1) = false := by simpa using hqe
          rw [this]

theorem find?_set (t : FileTree) (p q : Place) (n : FileNode) (hp : p ≠ []) :
    (t.set p n).find? q = if q = p then some n else t.find? q := by
  have erased : (t.erase p).find? q = _ := find?_erase t p q
  by_cases hq : q = []
  · have : q ≠ p := fun e => hp (e.symm.trans hq)
    rw [if_neg this, hq, find?_root, find?_root]
  · rw [find?_of_ne hq] at erased ⊢
    rw [set, List.lookup_cons]
    by_cases hqp : q = p
    · rw [if_pos hqp, hqp, beq_self_eq_true]
    · rw [beq_false_of_ne hqp, if_neg hqp]
      dsimp only
      rw [erased, if_neg (fun h => hqp h.1)]

/-- The view after some entries were taken away. -/
theorem find?_filter (h : t.Sound) (f : Place × FileNode → Bool) (q : Place) :
    ({ t with entries := t.entries.filter f } : FileTree).find? q =
      (t.find? q).filter fun n => q = [] ∨ f (q, n) := by
  by_cases hq : q = []
  · simp [hq, Option.filter]
  have distinct : ((t.entries.filter f).map (·.1)).Nodup := h.distinct.sublist (List.filter_sublist.map _)
  rw [find?_of_ne hq]
  apply Option.ext
  intro n
  rw [Option.filter_eq_some_iff]
  constructor
  · intro hn
    obtain ⟨l, r, e, -⟩ := List.lookup_eq_some_iff.1 hn
    have hm : (q, n) ∈ t.entries.filter f := by
      rw [show t.entries.filter f = _ from e]
      exact List.mem_append_right _ List.mem_cons_self
    obtain ⟨hm, hf⟩ := List.mem_filter.1 hm
    exact ⟨h.find?_of_mem hm, by simp [hf]⟩
  · rintro ⟨hn, hf⟩
    have hf : f (q, n) := by simpa [hq] using hf
    exact lookup_of_mem_nodup distinct (List.mem_filter.2 ⟨mem_entries_of_find? hn hq, hf⟩)

/-- A file or directory is added where there is room for it. -/
theorem Sound.set (h : t.Sound) {name : String} {n : FileNode} (hp : t.find? p = some .directory)
    (hn : name ≠ "..") (room : n = .directory ∨ t.find? (p ++ [name]) ≠ some .directory) :
    (t.set (p ++ [name]) n).Sound := by
  have view : ∀ q, (t.set (p ++ [name]) n).find? q = if q = p ++ [name] then some n else t.find? q :=
    fun q => find?_set t _ q n (List.append_ne_nil_of_right_ne_nil _ (List.cons_ne_nil _ _))
  have stays : ∀ {q}, t.find? q = some .directory →
      (t.set (p ++ [name]) n).find? q = some .directory := by
    intro q hq
    rw [view]
    split
    · next e =>
      rcases room with rfl | room
      · rfl
      · exact absurd (e ▸ hq) room
    · exact hq
  refine ⟨?_, ?_, ?_, stays h.working⟩
  · show ((p ++ [name]) :: (t.entries.filter (·.1 ≠ p ++ [name])).map (·.1)).Nodup
    rw [List.nodup_cons]
    refine ⟨?_, h.distinct.sublist (List.filter_sublist.map _)⟩
    intro hm
    obtain ⟨e, he, hk⟩ := List.mem_map.1 hm
    have := (List.mem_filter.1 he).2
    simp [hk] at this
  · intro e he
    rcases List.mem_cons.1 he with rfl | he
    · have := h.not_mem_dots hp
      simp only [ne_eq, List.append_eq_nil_iff, List.cons_ne_nil, and_false, not_false_eq_true,
        List.mem_append, List.mem_singleton, true_and]
      rintro (hd | hd)
      · exact this hd
      · exact hn hd.symm
    · exact h.proper e (List.mem_filter.1 he).1
  · intro e he
    rcases List.mem_cons.1 he with rfl | he
    · show (t.set (p ++ [name]) n).find? (above (p ++ [name])) = _
      rw [above, List.dropLast_concat]
      exact stays hp
    · exact stays (h.held e (List.mem_filter.1 he).1)

/-- Entries may be taken away as long as none is left that lay in one of them. -/
theorem Sound.filter (h : t.Sound) {f : Place × FileNode → Bool}
    (held : ∀ e ∈ t.entries, f e → above e.1 = [] ∨ f (above e.1, .directory))
    (working : t.workingDirectory = [] ∨ f (t.workingDirectory, .directory)) :
    ({ t with entries := t.entries.filter f } : FileTree).Sound := by
  have stays : ∀ {q}, t.find? q = some .directory → q = [] ∨ f (q, .directory) →
      ({ t with entries := t.entries.filter f } : FileTree).find? q = some .directory := by
    intro q hq hf
    rw [find?_filter h, hq, Option.filter_some, if_pos (by simpa using hf)]
  refine ⟨h.distinct.sublist (List.filter_sublist.map _), ?_, ?_, stays h.working working⟩
  · exact fun e he => h.proper e (List.mem_filter.1 he).1
  · intro e he
    obtain ⟨he, hf⟩ := List.mem_filter.1 he
    exact stays (h.held e he) (held e he hf)

/-! ## Walks -/

/-- One name on the way. -/
def step (p : Place) (name : String) : Place := if name = ".." then above p else p ++ [name]

/-- The places that a walk goes on from. -/
def stops (p : Place) : List String → List Place
  | [] => []
  | name :: names => p :: stops (step p name) names

/-- The places that a walk enters by their names. -/
def entered (p : Place) : List String → List Place
  | [] => []
  | name :: names =>
    if name = ".." then entered (above p) names else (p ++ [name]) :: entered (p ++ [name]) names

/-- Where a path leads if all on the way is there. -/
def place (t : FileTree) (path : FilePath) : Place := path.names.foldl step (t.start path)

theorem step_up (p : Place) : step p ".." = above p := if_pos rfl

theorem step_of_ne {name : String} (h : name ≠ "..") (p : Place) : step p name = p ++ [name] := if_neg h

theorem foldl_step_of_ne {names : List String} (h : ".." ∉ names) (p : Place) :
    names.foldl step p = p ++ names := by
  induction names generalizing p with
  | nil => simp
  | cons name names ih =>
    rw [List.mem_cons, not_or] at h
    rw [List.foldl_cons, step_of_ne (Ne.symm h.1), ih h.2, List.append_assoc, List.singleton_append]

theorem stops_append (p : Place) (names more : List String) :
    stops p (names ++ more) = stops p names ++ stops (names.foldl step p) more := by
  induction names generalizing p with
  | nil => rfl
  | cons name names ih =>
    rw [List.cons_append, stops, stops, List.cons_append, ih, List.foldl_cons]

theorem entered_append (p : Place) (names more : List String) :
    entered p (names ++ more) = entered p names ++ entered (names.foldl step p) more := by
  induction names generalizing p with
  | nil => rfl
  | cons name names ih =>
    rw [List.cons_append, entered, entered, List.foldl_cons]
    by_cases h : name = ".."
    · rw [if_pos h, if_pos h, ih, h, step_up]
    · rw [if_neg h, if_neg h, ih, step_of_ne h, List.cons_append]

/-- Below the start of a walk without two dots all is entered. -/
theorem mem_entered_iff {names : List String} (h : ".." ∉ names) (p q : Place) :
    q ∈ entered p names ↔ ∃ first, first <+: names ∧ first ≠ [] ∧ q = p ++ first := by
  induction names generalizing p with
  | nil =>
    constructor
    · intro hq
      cases hq
    · rintro ⟨first, hf, hne, -⟩
      exact absurd (List.prefix_nil.1 hf) hne
  | cons name names ih =>
    rw [List.mem_cons, not_or] at h
    rw [entered, if_neg (Ne.symm h.1), List.mem_cons, ih h.2]
    constructor
    · rintro (rfl | ⟨first, hf, -, rfl⟩)
      · exact ⟨[name], List.cons_prefix_cons.2 ⟨rfl, List.nil_prefix⟩, List.cons_ne_nil _ _, rfl⟩
      · exact ⟨name :: first, List.cons_prefix_cons.2 ⟨rfl, hf⟩, List.cons_ne_nil _ _, by simp⟩
    · rintro ⟨first, hf, hne, rfl⟩
      obtain ⟨n, first, rfl⟩ := List.exists_cons_of_ne_nil hne
      rw [List.cons_prefix_cons] at hf
      obtain ⟨rfl, hf⟩ := hf
      by_cases e : first = []
      · exact Or.inl (by rw [e])
      · exact Or.inr ⟨first, hf, e, by simp⟩

/-- Each place on a walk, and its end, holds the start or was entered. -/
theorem prefix_of_walk {names : List String} (h : q ∈ stops p names ∨ q = names.foldl step p) :
    q <+: p ∨ q ∈ entered p names := by
  induction names generalizing p with
  | nil =>
    rcases h with h | rfl
    · cases h
    · exact Or.inl (List.prefix_refl _)
  | cons name names ih =>
    have further : q <+: step p name ∨ q ∈ entered (step p name) names → q <+: p ∨ q ∈ entered p (name :: names) := by
      rw [entered]
      by_cases e : name = ".."
      · rw [e, step_up, if_pos rfl]
        exact Or.imp_left fun hq => hq.trans (List.dropLast_prefix p)
      · rw [step_of_ne e, if_neg e, List.mem_cons]
        rintro (hq | hq)
        · rcases List.prefix_concat_iff.1 hq with rfl | hq
          · exact Or.inr (Or.inl rfl)
          · exact Or.inl hq
        · exact Or.inr (Or.inr hq)
    rw [stops, List.mem_cons, List.foldl_cons] at h
    rcases h with (rfl | h) | h
    · exact Or.inl (List.prefix_refl _)
    · exact further (ih (Or.inl h))
    · exact further (ih (Or.inr h))

/-! ## Following paths -/

/-- The file system takes the path, whatever it leads to. -/
def Passable (path : FilePath) : Prop := pathFault? path = none ∧ ∀ name ∈ path.names, isLongName name = false

theorem isLongName_up : isLongName ".." = false := by decide

theorem locateFrom_eq_ok {names : List String} : t.locateFrom p names = .ok q ↔
    (∀ v ∈ stops p names, t.find? v = some .directory) ∧ (∀ name ∈ names, isLongName name = false) ∧
      q = names.foldl step p := by
  induction names generalizing p with
  | nil =>
    rw [locateFrom]
    constructor
    · intro h
      cases h
      simp [stops]
    · rintro ⟨-, -, rfl⟩
      rfl
  | cons name names ih =>
    rw [locateFrom, stops, List.forall_mem_cons, List.forall_mem_cons, List.foldl_cons]
    rcases hf : t.find? p with _ | (_ | text)
    · simp
    · by_cases e : name = ".."
      · simp only [e, if_pos, ih, isLongName_up, step_up, true_and]
      · simp only [if_neg e, step_of_ne e]
        by_cases long : isLongName name
        · simp [long]
        · simp only [long, ih, true_and, Bool.false_eq_true, if_false]
    · simp

theorem locate_eq_ok {path : FilePath} : t.locate path = .ok q ↔
    Passable path ∧ (∀ v ∈ stops (t.start path) path.names, t.find? v = some .directory) ∧ q = t.place path := by
  unfold locate Passable
  cases pathFault? path with
  | some fault => simp
  | none =>
    simp only [locateFrom_eq_ok, true_and]
    exact ⟨fun ⟨h, hn, e⟩ => ⟨hn, h, e⟩, fun ⟨hn, h, e⟩ => ⟨h, hn, e⟩⟩

theorem node_eq_directory {path : FilePath} :
    t.node path = .ok .directory ↔ ∃ p, t.locate path = .ok p ∧ t.find? p = some .directory := by
  unfold node
  refine Iff.trans bind_eq_ok (exists_congr fun p => and_congr_right fun _ => ?_)
  rcases t.find? p with _ | n
  · exact ⟨fun h => (by cases h), fun h => (by cases h)⟩
  · exact ⟨fun h => congrArg _ (Except.ok.inj h), fun h => congrArg _ (Option.some.inj h)⟩

/-- Trees with one view see one place behind a path. -/
theorem locate_congr {s : FileTree} (working : s.workingDirectory = t.workingDirectory)
    (view : ∀ q, s.find? q = t.find? q) {path : FilePath} : s.locate path = .ok p ↔ t.locate path = .ok p := by
  rw [locate_eq_ok, locate_eq_ok]
  simp only [view, place, start, working]

/-- A walk starts in a directory that is in use. -/
theorem Sound.find?_start (h : t.Sound) {path : FilePath} (hp : p <+: t.start path) :
    t.find? p = some .directory := by
  unfold start at hp
  split at hp
  · exact h.find?_used hp
  · rw [List.prefix_nil.1 hp]
    exact find?_root t

/-- What a walk enters decides whether all on the way is there. -/
theorem Sound.find?_walk (h : t.Sound) {path : FilePath}
    (entered : ∀ v ∈ entered (t.start path) path.names, t.find? v = some .directory)
    (hq : q ∈ stops (t.start path) path.names ∨ q = t.place path) : t.find? q = some .directory := by
  rcases prefix_of_walk hq with hq | hq
  · exact h.find?_start hq
  · exact entered q hq

end ShapeExport.FileTree
