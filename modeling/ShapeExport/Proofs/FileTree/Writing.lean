import ShapeExport.Output
import ShapeExport.Proofs.FileTree.View

/-!
# Writing files

* `FileTree.Opens` : what is different when the directories on a walk have been created;
* `FileTree.write_eq_ok`, `FileTree.exists_write` : when a file is written, and the view afterwards;
* `FileTree.WritesAll`, `FileTree.writesAll_of_ok` : the view when several files were written;
* `FileTree.exists_writeAll` : files are written whose directories are there.
-/

namespace ShapeExport.FileTree

variable {t t' : FileTree} {p q : Place} {path : FilePath} {atomic : Bool} {text : String}

/-! ## Creating directories -/

/-- The directories that a path passes through, and the one that it leads to. -/
def way (t : FileTree) (path : FilePath) : List Place := entered (t.start path) path.names

/-- Some places have become directories. None of them was a file. -/
structure Opens (t t' : FileTree) (places : List Place) : Prop where
  free : ∀ v ∈ places, ∀ text, t.find? v ≠ some (.file text)
  view : ∀ q, t'.find? q = if q ∈ places then some .directory else t.find? q
  working : t'.workingDirectory = t.workingDirectory

theorem Opens.refl (t : FileTree) : t.Opens t [] :=
  ⟨fun _ hv => absurd hv List.not_mem_nil, fun _ => (if_neg List.not_mem_nil).symm, rfl⟩

/-- A directory that is there already. -/
theorem Opens.cons_there {places : List Place} (h : t.Opens t' places) (hp : t.find? p = some .directory) :
    t.Opens t' (p :: places) := by
  refine ⟨?_, fun q => ?_, h.working⟩
  · rw [List.forall_mem_cons]
    exact ⟨fun text e => by simp [hp] at e, h.free⟩
  · rw [h.view]
    by_cases hq : q = p
    · simp [hq, hp]
    · simp [hq]

/-- A directory that is created before the others. -/
theorem Opens.cons_new {places : List Place} (h : (t.set p .directory).Opens t' places)
    (hp : t.find? p = none) : t.Opens t' (p :: places) := by
  have hne : p ≠ [] := by
    rintro rfl
    rw [find?_root] at hp
    cases hp
  refine ⟨?_, fun q => ?_, h.working⟩
  · rw [List.forall_mem_cons]
    refine ⟨fun text e => by simp [hp] at e, fun v hv text e => ?_⟩
    apply h.free v hv text
    rw [find?_set _ _ _ _ hne, if_neg (fun e' => ?_), e]
    rw [e', hp] at e
    cases e
  · rw [h.view, find?_set _ _ _ _ hne]
    by_cases hq : q = p
    · simp [hq]
    · simp [hq]

theorem opens_of_ok {names : List String} (h : t.makeDirectoriesFrom p names = (t', .ok ())) :
    t.Opens t' (entered p names) ∧ ∀ name ∈ names, isLongName name = false := by
  induction names generalizing t p with
  | nil =>
    cases h
    exact ⟨.refl _, List.forall_mem_nil _⟩
  | cons name names ih =>
    rw [makeDirectoriesFrom] at h
    rw [entered, List.forall_mem_cons]
    by_cases up : name = ".."
    · rw [if_pos up] at h ⊢
      exact ⟨(ih h).1, by rw [up]; exact isLongName_up, (ih h).2⟩
    · rw [if_neg up] at h ⊢
      by_cases long : isLongName name
      · rw [if_pos long] at h
        cases h
      · rw [if_neg long] at h
        refine ⟨?_, by simpa using long, ?_⟩
        all_goals split at h
        · next there => exact (ih h).1.cons_there there
        · cases h
        · next free => exact (ih h).1.cons_new free
        · exact (ih h).2
        · cases h
        · exact (ih h).2

theorem sound_of_ok {names : List String} (sound : t.Sound) (hp : t.find? p = some .directory)
    (h : t.makeDirectoriesFrom p names = (t', .ok ())) : t'.Sound := by
  induction names generalizing t p with
  | nil =>
    cases h
    exact sound
  | cons name names ih =>
    rw [makeDirectoriesFrom] at h
    by_cases up : name = ".."
    · rw [if_pos up] at h
      exact ih sound (sound.find?_above hp) h
    · rw [if_neg up] at h
      by_cases long : isLongName name
      · rw [if_pos long] at h
        cases h
      · rw [if_neg long] at h
        split at h
        · next there => exact ih sound there h
        · cases h
        · next free =>
          refine ih (sound.set hp up (Or.inl rfl)) ?_ h
          rw [find?_set _ _ _ _ (by simp), if_pos rfl]

theorem exists_makeDirectoriesFrom {names : List String} (short : ∀ name ∈ names, isLongName name = false)
    (free : ∀ v ∈ entered p names, ∀ text, t.find? v ≠ some (.file text)) :
    ∃ t', t.makeDirectoriesFrom p names = (t', .ok ()) := by
  induction names generalizing t p with
  | nil => exact ⟨t, rfl⟩
  | cons name names ih =>
    rw [List.forall_mem_cons] at short
    rw [entered] at free
    rw [makeDirectoriesFrom]
    by_cases up : name = ".."
    · rw [if_pos up] at free ⊢
      exact ih short.2 free
    · rw [if_neg up] at free ⊢
      rw [List.forall_mem_cons] at free
      rw [short.1, if_neg (by simp)]
      rcases hf : t.find? (p ++ [name]) with _ | (_ | text)
      · refine ih short.2 fun v hv text e => ?_
        rw [find?_set _ _ _ _ (by simp)] at e
        split at e
        · cases e
        · exact free.2 v hv text e
      · exact ih short.2 free.2
      · exact absurd hf (free.1 text)

/-- Nothing is missing where all is there. -/
theorem missingLevels_eq_zero {names : List String}
    (h : ∀ v ∈ entered p names, t.find? v = some .directory) : t.missingLevels p names = 0 := by
  induction names generalizing p with
  | nil => rfl
  | cons name names ih =>
    rw [missingLevels]
    rw [entered] at h
    by_cases up : name = ".."
    · rw [if_pos up] at h ⊢
      exact ih h
    · rw [if_neg up, List.forall_mem_cons] at h
      rw [if_neg up, h.1]
      exact ih h.2

/-! ## Writing a file -/

/-- The file system takes all paths that a file is written through. -/
structure Accepts (atomic : Bool) (path : FilePath) : Prop where
  parent : Passable path.parent
  whole : Passable path
  draft : atomic → Passable (draft path)

/-- A tree has room for a file. -/
structure Room (t : FileTree) (path : FilePath) : Prop where
  levels : t.missingLevels (t.start path.parent) path.parent.names ≤ maxLevels
  free : ∀ v ∈ t.way path.parent, ∀ text, t.find? v ≠ some (.file text)
  off : t.place path ∉ t.way path.parent
  target : t.find? (t.place path) ≠ some .directory

/-- A file has been written, and the directories on the way to it created. -/
structure Writes (t t' : FileTree) (path : FilePath) (text : String) : Prop where
  view : ∀ q, t'.find? q = if q = t.place path then some (.file text)
    else if q ∈ t.way path.parent then some .directory else t.find? q
  working : t'.workingDirectory = t.workingDirectory
  sound : t'.Sound

theorem stops_concat (t : FileTree) (path : FilePath) (name : String) :
    stops (t.start path) (path.names ++ [name]) = stops (t.start path) path.names ++ [t.place path] :=
  stops_append _ _ _

/-- The file lies in the directory that is created for it, unless its path leads up. -/
theorem place_eq_step {name : String} (h : path.names = path.parent.names ++ [name]) :
    t.place path = step (t.place path.parent) name := by
  rw [place, h, List.foldl_append]
  rfl

theorem names_eq_concat (h : path.names ≠ []) : ∃ name, path.names = path.parent.names ++ [name] :=
  ⟨_, (List.dropLast_append_getLast h).symm⟩

/-- A path of which nothing is left, or that leads up, leads to a directory. -/
theorem Sound.find?_target (sound : t.Sound) (there : ∀ v ∈ t.way path.parent, t.find? v = some .directory) :
    t.find? (t.place path) = some .directory ∨ ∃ name, name ≠ ".." ∧ path.names = path.parent.names ++ [name] := by
  by_cases empty : path.names = []
  · left
    rw [place, empty]
    exact sound.find?_start (List.prefix_refl _)
  · obtain ⟨name, hname⟩ := names_eq_concat empty
    by_cases up : name = ".."
    · left
      rw [place_eq_step hname, up, step_up]
      exact sound.find?_above (sound.find?_walk there (Or.inr rfl))
    · exact Or.inr ⟨name, up, hname⟩

/-- Without a draft, a file is put where nothing or a file is. -/
theorem put_plain (t : FileTree) (path : FilePath) (text : String) :
    t.put false path text = t.locate path >>= fun p =>
      if t.find? p = some .directory then .error .isADirectory else .ok (t.set p (.file text)) := by
  unfold put
  rw [if_neg Bool.false_ne_true]
  refine congrArg (t.locate path >>= ·) (funext fun p => ?_)
  rcases t.find? p with _ | (_ | _)
  all_goals rfl

/-- With a draft, its path has to lead to a place as well. -/
theorem put_atomic (t : FileTree) (path : FilePath) (text : String) :
    t.put true path text = t.locate (draft path) >>= fun _ => t.put false path text := by
  unfold put
  cases t.locate (draft path) <;> rfl

theorem put_eq_ok : t.put atomic path text = .ok t' ↔
    (atomic → ∃ d, t.locate (draft path) = .ok d) ∧
      ∃ p, t.locate path = .ok p ∧ t.find? p ≠ some .directory ∧ t' = t.set p (.file text) := by
  have plain : t.put false path text = .ok t' ↔
      ∃ p, t.locate path = .ok p ∧ t.find? p ≠ some .directory ∧ t' = t.set p (.file text) := by
    rw [put_plain, bind_eq_ok]
    refine exists_congr fun p => and_congr_right fun _ => ?_
    split
    · next directory => simp [directory]
    · next free => simp [free, eq_comm]
  cases atomic with
  | false => simpa using plain
  | true =>
    rw [put_atomic, bind_eq_ok, plain]
    simp

theorem start_parent (t : FileTree) (path : FilePath) : t.start path.parent = t.start path := rfl

theorem start_congr (h : t'.workingDirectory = t.workingDirectory) (path : FilePath) :
    t'.start path = t.start path := by
  unfold start
  rw [h]

theorem place_congr (h : t'.workingDirectory = t.workingDirectory) (path : FilePath) :
    t'.place path = t.place path := by
  unfold place
  rw [start_congr h]

theorem way_congr (h : t'.workingDirectory = t.workingDirectory) (path : FilePath) :
    t'.way path = t.way path := by
  unfold way
  rw [start_congr h]

theorem makeDirectories_eq_ok (h : t.makeDirectories path = (t', .ok ())) :
    Passable path ∧ t.missingLevels (t.start path) path.names ≤ maxLevels ∧ t.Opens t' (t.way path) ∧
      t.makeDirectoriesFrom (t.start path) path.names = (t', .ok ()) := by
  unfold makeDirectories at h
  split at h
  · cases h
  · next fault =>
    split at h
    · cases h
    · next levels =>
      obtain ⟨opens, short⟩ := opens_of_ok h
      exact ⟨⟨fault, short⟩, Nat.not_lt.1 levels, opens, h⟩

/-- What a path leads to once the directories on the way are there. -/
theorem Sound.locate_of_way (sound : t.Sound) (there : ∀ v ∈ t.way path.parent, t.find? v = some .directory)
    (passable : Passable path) : t.locate path = .ok (t.place path) := by
  refine locate_eq_ok.2 ⟨passable, fun v hv => ?_, rfl⟩
  by_cases empty : path.names = []
  · rw [empty] at hv
    cases hv
  · obtain ⟨name, hname⟩ := names_eq_concat empty
    rw [hname, ← start_parent, stops_concat, List.mem_append, List.mem_singleton] at hv
    exact sound.find?_walk there hv

/-- What the draft leads to then. -/
theorem Sound.locate_draft (sound : t.Sound) (there : ∀ v ∈ t.way path.parent, t.find? v = some .directory)
    (passable : Passable (draft path)) : t.locate (draft path) = .ok (t.place (draft path)) := by
  refine locate_eq_ok.2 ⟨passable, fun v hv => ?_, rfl⟩
  have hv : v ∈ stops (t.start path.parent) (path.parent.names ++ ["." ++ path.name ++ ".--------.tmp"]) := hv
  rw [stops_concat, List.mem_append, List.mem_singleton] at hv
  exact sound.find?_walk there hv

theorem write_eq_ok (sound : t.Sound) (h : t.write atomic path text = (t', .ok ())) :
    Accepts atomic path ∧ t.Room path ∧ t.Writes t' path text := by
  unfold write at h
  split at h
  · cases h
  next u _ made =>
  split at h
  · cases h
  next put =>
  cases h
  obtain ⟨parent, levels, opens, made⟩ := makeDirectories_eq_ok made
  have usound : u.Sound := sound_of_ok sound (sound.find?_start (List.prefix_refl _)) made
  obtain ⟨draft, p, located, target, rfl⟩ := put_eq_ok.1 put
  obtain ⟨whole, -, rfl⟩ := locate_eq_ok.1 located
  have there : ∀ v ∈ u.way path.parent, u.find? v = some .directory := by
    intro v hv
    rw [way_congr opens.working] at hv
    rw [opens.view, if_pos hv]
  -- The target is no directory, so the path ends with a name of its own.
  obtain directory | ⟨name, up, hname⟩ := usound.find?_target there
  · exact absurd directory target
  have inside : u.place path = u.place path.parent ++ [name] := by
    rw [place_eq_step hname, step_of_ne up]
  have nonempty : u.place path ≠ [] := by
    rw [inside]
    exact List.append_ne_nil_of_right_ne_nil _ (List.cons_ne_nil _ _)
  have same : u.place path = t.place path := place_congr opens.working path
  rw [same] at target inside nonempty ⊢
  rw [opens.view] at target
  refine ⟨⟨parent, whole, fun ha => ?_⟩, ⟨levels, opens.free, ?_, ?_⟩, ⟨fun q => ?_, opens.working, ?_⟩⟩
  · obtain ⟨d, hd⟩ := draft ha
    exact (locate_eq_ok.1 hd).1
  · intro hm
    rw [if_pos hm] at target
    exact target rfl
  · intro e
    split at target
    · exact target rfl
    · exact target e
  · rw [find?_set _ _ _ _ nonempty, opens.view]
  · have room : u.find? (t.place path) ≠ some .directory := by
      rw [opens.view]
      exact target
    rw [inside] at room ⊢
    exact usound.set (usound.find?_walk there (Or.inr rfl)) up (Or.inr room)

theorem exists_write (sound : t.Sound) (accepts : Accepts atomic path) (room : t.Room path) (text : String) :
    ∃ t', t.write atomic path text = (t', .ok ()) := by
  obtain ⟨u, made⟩ := exists_makeDirectoriesFrom accepts.parent.2 room.free
  have opens : t.Opens u (t.way path.parent) := (opens_of_ok made).1
  have usound : u.Sound := sound_of_ok sound (sound.find?_start (List.prefix_refl _)) made
  have made : t.makeDirectories path.parent = (u, .ok ()) := by
    unfold makeDirectories
    rw [accepts.parent.1]
    show (if maxLevels < t.missingLevels (t.start path.parent) path.parent.names then _ else _) = _
    rw [if_neg (Nat.not_lt.2 room.levels)]
    exact made
  have there : ∀ v ∈ u.way path.parent, u.find? v = some .directory := by
    intro v hv
    rw [way_congr opens.working] at hv
    rw [opens.view, if_pos hv]
  have put : u.put atomic path text = .ok (u.set (u.place path) (.file text)) := by
    refine put_eq_ok.2 ⟨fun ha => ⟨_, usound.locate_draft there (accepts.draft ha)⟩, _,
      usound.locate_of_way there accepts.whole, ?_, rfl⟩
    rw [place_congr opens.working, opens.view, if_neg room.off]
    exact room.target
  refine ⟨u.set (u.place path) (.file text), ?_⟩
  unfold write
  rw [made]
  dsimp only
  rw [put]

/-- Nothing is changed when too many directories are missing. -/
theorem write_of_levels (h : maxLevels < t.missingLevels (t.start path.parent) path.parent.names) :
    ∃ fault, t.write atomic path text = (t, .error fault) := by
  have made : ∃ fault, t.makeDirectories path.parent = (t, .error fault) := by
    unfold makeDirectories
    split
    · exact ⟨_, rfl⟩
    · exact ⟨_, if_pos h⟩
  obtain ⟨fault, made⟩ := made
  refine ⟨fault, ?_⟩
  unfold write
  rw [made]

/-! ## Writing several files -/

theorem writeFile_eq_ok :
    t.writeFile atomic path text = (t', .ok ()) ↔ t.write atomic path text = (t', .ok ()) := by
  unfold writeFile
  obtain ⟨u, fault | _⟩ := t.write atomic path text
  · constructor
    · intro h
      cases h
    · intro h
      cases h
  · constructor
    · intro h
      cases h
      rfl
    · intro h
      cases h
      rfl

variable {files : List (FilePath × String)}

/-- Files have been written, to different places. -/
structure WritesAll (t t' : FileTree) (atomic : Bool) (files : List (FilePath × String)) : Prop where
  accepts : ∀ file ∈ files, Accepts atomic file.1
  texts : ∀ file ∈ files, t'.find? (t.place file.1) = some (.file file.2)
  targets : ∀ file ∈ files, t.find? (t.place file.1) ≠ some .directory
  there : ∀ file ∈ files, ∀ v ∈ t.way file.1.parent, t'.find? v = some .directory
  free : ∀ file ∈ files, ∀ v ∈ t.way file.1.parent, ∀ text, t.find? v ≠ some (.file text)
  others : ∀ q, (∀ file ∈ files, q ≠ t.place file.1 ∧ q ∉ t.way file.1.parent) → t'.find? q = t.find? q
  working : t'.workingDirectory = t.workingDirectory
  sound : t'.Sound

theorem writeAll_cons_eq_ok {file : FilePath × String} : t.writeAll atomic (file :: files) = (t', .ok ()) ↔
    ∃ u, t.write atomic file.1 file.2 = (u, .ok ()) ∧ u.writeAll atomic files = (t', .ok ()) := by
  obtain ⟨path, text⟩ := file
  rw [writeAll]
  constructor
  · intro h
    split at h
    · cases h
    · next u _ hu => exact ⟨u, writeFile_eq_ok.1 hu, h⟩
  · rintro ⟨u, hu, h⟩
    rw [writeFile_eq_ok.2 hu]
    exact h

theorem writesAll_of_ok (sound : t.Sound) (distinct : (files.map fun file => t.place file.1).Nodup)
    (h : t.writeAll atomic files = (t', .ok ())) : t.WritesAll t' atomic files := by
  induction files generalizing t with
  | nil =>
    cases h
    refine ⟨?_, ?_, ?_, ?_, ?_, fun _ _ => rfl, rfl, sound⟩
    all_goals exact List.forall_mem_nil _
  | cons file files ih =>
    obtain ⟨u, written, h⟩ := writeAll_cons_eq_ok.1 h
    obtain ⟨accepts, room, writes⟩ := write_eq_ok sound written
    rw [List.map_cons, List.nodup_cons] at distinct
    have apart : ∀ other ∈ files, t.place other.1 ≠ t.place file.1 := by
      intro other ho e
      exact distinct.1 (List.mem_map.2 ⟨other, ho, e⟩)
    have rest : u.WritesAll t' atomic files := by
      refine ih writes.sound ?_ h
      simp only [place_congr writes.working]
      exact distinct.2
    have places := place_congr writes.working
    have ways := way_congr writes.working
    obtain ⟨raccepts, rtexts, rtargets, rthere, rfree, rothers, rworking, rsound⟩ := rest
    simp only [places, ways] at rtexts rtargets rthere rfree rothers
    have own : u.find? (t.place file.1) = some (.file file.2) := by
      rw [writes.view, if_pos rfl]
    have onWay : ∀ v ∈ t.way file.1.parent, u.find? v = some .directory := by
      intro v hv
      have off : v ≠ t.place file.1 := by
        rintro rfl
        exact room.off hv
      rw [writes.view, if_neg off, if_pos hv]
    refine ⟨?_, ?_, ?_, ?_, ?_, ?_, rworking.trans writes.working, rsound⟩
    · exact List.forall_mem_cons.2 ⟨accepts, raccepts⟩
    · -- The first file stays: the others have different places, and it is on the way to none of them.
      refine List.forall_mem_cons.2 ⟨?_, rtexts⟩
      rw [rothers _ fun other ho => ⟨(apart other ho).symm, fun hv => rfree other ho _ hv _ own⟩, own]
    · refine List.forall_mem_cons.2 ⟨room.target, fun other ho e => rtargets other ho ?_⟩
      rw [writes.view, if_neg (apart other ho), e]
      split <;> rfl
    · refine List.forall_mem_cons.2 ⟨fun v hv => ?_, rthere⟩
      -- A directory on the way may be on the way of a later file too, but it is never its place.
      by_cases again : ∃ other ∈ files, v ∈ t.way other.1.parent
      · obtain ⟨other, ho, hw⟩ := again
        exact rthere other ho v hw
      · have off : ∀ other ∈ files, v ≠ t.place other.1 := by
          rintro other ho rfl
          exact rtargets other ho (onWay _ hv)
        rw [rothers v fun other ho => ⟨off other ho, fun hw => again ⟨other, ho, hw⟩⟩]
        exact onWay v hv
    · refine List.forall_mem_cons.2 ⟨room.free, fun other ho v hv text e => ?_⟩
      have := rfree other ho v hv
      rw [writes.view] at this
      split at this
      · exact this _ rfl
      · split at this
        · next hw => exact room.free v hw text e
        · exact this text e
    · intro q hq
      rw [List.forall_mem_cons] at hq
      rw [rothers q hq.2, writes.view, if_neg hq.1.1, if_neg hq.1.2]

/-- Files can be written where their directories are there. -/
theorem exists_writeAll (sound : t.Sound) (distinct : (files.map fun file => t.place file.1).Nodup)
    (accepts : ∀ file ∈ files, Accepts atomic file.1)
    (there : ∀ file ∈ files, ∀ v ∈ t.way file.1.parent, t.find? v = some .directory)
    (targets : ∀ file ∈ files, t.find? (t.place file.1) ≠ some .directory) :
    ∃ t', t.writeAll atomic files = (t', .ok ()) := by
  induction files generalizing t with
  | nil => exact ⟨t, rfl⟩
  | cons file files ih =>
    rw [List.forall_mem_cons] at accepts there targets
    rw [List.map_cons, List.nodup_cons] at distinct
    have room : t.Room file.1 := by
      refine ⟨?_, fun v hv text e => ?_, fun hv => targets.1 (there.1 _ hv), targets.1⟩
      · rw [missingLevels_eq_zero there.1]
        exact Nat.zero_le _
      · rw [there.1 v hv] at e
        cases e
    obtain ⟨u, written⟩ := exists_write sound accepts.1 room file.2
    obtain ⟨-, -, writes⟩ := write_eq_ok sound written
    have places := place_congr writes.working
    have ways := way_congr writes.working
    obtain ⟨t', rest⟩ : ∃ t', u.writeAll atomic files = (t', .ok ()) := by
      refine ih writes.sound ?_ accepts.2 ?_ ?_
      · simp only [places]
        exact distinct.2
      · intro other ho v hv
        rw [ways] at hv
        have e := there.2 other ho v hv
        have off : v ≠ t.place file.1 := by
          rintro rfl
          exact targets.1 e
        rw [writes.view, if_neg off, e]
        split <;> rfl
      · intro other ho
        rw [places, writes.view, if_neg fun e => distinct.1 (List.mem_map.2 ⟨other, ho, e⟩)]
        split
        · next hw => exact fun _ => targets.2 other ho (there.1 _ hw)
        · exact targets.2 other ho
    exact ⟨t', writeAll_cons_eq_ok.2 ⟨u, written, rest⟩⟩

end ShapeExport.FileTree
