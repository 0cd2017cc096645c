import Mathlib.Data.List.Induction
import ShapeExport.FilePath
import ShapeExport.Proofs.Text.Pieces

/-!
# Ways between directories

* `FilePath.IsStep` : a name that leads down one level when a path is walked;
* `FilePath.ofText_intercalate`, `FilePath.ofPieces_of_steps` : names that are joined, by slashes or to a
  path, are read back;
* `FilePath.ofText_text`, `FilePath.text_inj` : a path that was made of texts is read back from its text;
* `FilePath.anchor_ofPieces`, `FilePath.exists_of_mem_names` : pieces that are joined start at a root if one of
  them does, and their names are pieces of these pieces;
* `FilePath.IsBelow` : a path that leads down from a directory;
* `FilePath.wayBetween_eq` : a way leads up from what is not shared, and then down;
* `FilePath.relativeTo_of_steps` : between relative paths, the working directory makes no difference;
* `FilePath.normalize_of_steps`, `FilePath.normalize_way` : a path of steps is in normal form already, and
  a way that is walked from its start leads to its end.
-/

namespace ShapeExport.FilePath

/-- The name is neither empty nor dots, and it is one piece. -/
structure IsStep (n : String) : Prop where
  isName : isName n
  ne_up : n ≠ ".."
  no_slash : '/' ∉ n.toList

theorem IsStep.ne_empty {n : String} (h : IsStep n) : n ≠ "" := by
  rintro rfl
  exact absurd h.isName (by decide)

/-! ## Texts of paths -/

theorem ofChars_eq_relative {cs : List Char} (h : cs.head? ≠ some '/') :
    PathAnchor.ofChars cs = .relative := by
  unfold PathAnchor.ofChars
  split <;> simp at h ⊢

theorem head?_intercalate {n : String} (hn : n ≠ "") (ns : List String) :
    ("/".intercalate (n :: ns)).toList.head? = n.toList.head? := by
  have hne : n.toList ≠ [] := fun e => hn (String.toList_eq_nil_iff.1 e)
  cases ns with
  | nil => rw [String.intercalate_singleton]
  | cons m ms =>
    obtain ⟨c, cs, hc⟩ := List.exists_cons_of_ne_nil hne
    rw [String.intercalate_cons_cons, String.append_assoc, String.toList_append, hc]
    rfl

/-- Names that are joined by slashes are read back, apart from single dots. -/
theorem ofText_intercalate {n : String} {ns : List String} (hn : n ≠ "")
    (h : ∀ m ∈ n :: ns, '/' ∉ m.toList) :
    ofText ("/".intercalate (n :: ns)) = ⟨.relative, (n :: ns).filter FilePath.isName⟩ := by
  have pieces : Text.split '/' ("/".intercalate (n :: ns)) = n :: ns :=
    Text.split_intercalate (List.cons_ne_nil _ _) h
  have first : ("/".intercalate (n :: ns)).toList.head? ≠ some '/' := by
    rw [head?_intercalate hn]
    intro e
    exact h n List.mem_cons_self (List.mem_of_mem_head? e)
  rw [ofText, pieces, ofChars_eq_relative first]

theorem ofText_of_step {n : String} (h : IsStep n) : ofText n = ⟨.relative, [n]⟩ := by
  have e : ofText ("/".intercalate [n]) = ⟨.relative, [n].filter FilePath.isName⟩ :=
    ofText_intercalate h.ne_empty fun m hm => List.mem_singleton.1 hm ▸ h.no_slash
  rw [String.intercalate_singleton] at e
  rw [e, List.filter_cons_of_pos h.isName, List.filter_nil]

theorem foldl_join_of_steps {names : List String} (h : ∀ n ∈ names, IsStep n) (ns : List String) :
    (names.map ofText).foldl join ⟨.relative, ns⟩ = ⟨.relative, ns ++ names⟩ := by
  induction names generalizing ns with
  | nil => rw [List.append_nil]; rfl
  | cons n names ih =>
    rw [List.map_cons, List.foldl_cons, ofText_of_step (h n List.mem_cons_self), join, if_pos rfl,
      ih fun m hm => h m (List.mem_cons_of_mem _ hm), List.append_assoc, List.singleton_append]

theorem ofPieces_of_steps {names : List String} (h : ∀ n ∈ names, IsStep n) :
    ofPieces names = ⟨.relative, names⟩ :=
  foldl_join_of_steps h []

/-! ## Paths that are read back -/

theorem ofChars_text_append {anchor : PathAnchor} {s : String} (h : s.toList.head? ≠ some '/') :
    PathAnchor.ofChars (anchor.text ++ s).toList = anchor := by
  cases hs : s.toList with
  | nil => cases anchor <;> simp [PathAnchor.text, hs, PathAnchor.ofChars]
  | cons c cs =>
    have hc : c ≠ '/' := by simpa [hs] using h
    cases anchor <;> simp [PathAnchor.text, hs, PathAnchor.ofChars, hc]

/-- An anchor has no names. -/
theorem filter_split_text_append (anchor : PathAnchor) (s : String) :
    (Text.split '/' (anchor.text ++ s)).filter isName = (Text.split '/' s).filter isName := by
  have slash : ∀ t : String, (Text.split '/' ("/" ++ t)).filter isName = (Text.split '/' t).filter isName := by
    intro t
    have cut : Text.split '/' ("" ++ (String.singleton '/' ++ t)) = "" :: Text.split '/' t :=
      Text.split_append (by decide)
    rw [String.empty_append] at cut
    show (Text.split '/' (String.singleton '/' ++ t)).filter isName = _
    rw [cut, List.filter_cons_of_neg (by decide)]
  cases anchor with
  | relative => rw [PathAnchor.text, String.empty_append]
  | root => exact slash s
  | doubleRoot =>
    have twice : "//" = "/" ++ "/" := by decide
    rw [PathAnchor.text, twice, String.append_assoc, slash, slash]

/-- The names are pieces between slashes that count. -/
def IsCut (p : FilePath) : Prop := ∀ n ∈ p.names, isName n ∧ '/' ∉ n.toList

theorem isCut_ofText (s : String) : IsCut (ofText s) := fun _ hn =>
  ⟨(List.mem_filter.1 hn).2, Text.not_mem_of_mem_split (List.mem_filter.1 hn).1⟩

theorem IsCut.join {p q : FilePath} (hp : p.IsCut) (hq : q.IsCut) : (p.join q).IsCut := by
  unfold FilePath.join
  split
  · exact fun n hn => (List.mem_append.1 hn).elim (hp n) (hq n)
  · exact hq

theorem isCut_ofPieces (pieces : List String) : IsCut (ofPieces pieces) := by
  have all : ∀ p : FilePath, p.IsCut → ((pieces.map ofText).foldl FilePath.join p).IsCut := by
    induction pieces with
    | nil => exact fun p hp => hp
    | cons s pieces ih => exact fun p hp => ih _ (hp.join (isCut_ofText s))
  exact all {} (List.forall_mem_nil _)

/-- The text of a path is read back. -/
theorem ofText_text {p : FilePath} (h : p.IsCut) : ofText p.text = p := by
  obtain ⟨anchor, names⟩ := p
  cases names with
  | nil => cases anchor <;> decide
  | cons n ns =>
    have ne_empty : n ≠ "" := by
      rintro rfl
      exact absurd (h "" List.mem_cons_self).1 (by decide)
    have kept : (n :: ns).filter isName = n :: ns := List.filter_eq_self.2 fun m hm => (h m hm).1
    have cut : Text.split '/' ("/".intercalate (n :: ns)) = n :: ns :=
      Text.split_intercalate (List.cons_ne_nil _ _) fun m hm => (h m hm).2
    have text : FilePath.text ⟨anchor, n :: ns⟩ = anchor.text ++ "/".intercalate (n :: ns) :=
      if_neg fun e => Bool.false_ne_true e.2
    have first : ("/".intercalate (n :: ns)).toList.head? ≠ some '/' := by
      rw [head?_intercalate ne_empty]
      exact fun e => (h n List.mem_cons_self).2 (List.mem_of_mem_head? e)
    rw [text, ofText, ofChars_text_append first, filter_split_text_append, cut, kept]

theorem text_inj {p q : FilePath} (hp : p.IsCut) (hq : q.IsCut) : p.text = q.text ↔ p = q := by
  constructor
  · intro e
    rw [← ofText_text hp, e, ofText_text hq]
  · exact fun e => congrArg text e

/-! ## Pieces that are joined -/

theorem ofChars_eq_relative_iff {cs : List Char} : PathAnchor.ofChars cs = .relative ↔ cs.head? ≠ some '/' := by
  refine ⟨fun h first => ?_, ofChars_eq_relative⟩
  obtain ⟨rest, rfl⟩ := List.head?_eq_some_iff.1 first
  unfold PathAnchor.ofChars at h
  split at h
  · cases h
  · cases h
  · cases h
  · next none => exact none rest rfl

theorem anchor_join {p q : FilePath} :
    (p.join q).anchor = .relative ↔ p.anchor = .relative ∧ q.anchor = .relative := by
  unfold join
  split
  · next relative => exact (and_iff_left relative).symm
  · next rooted => exact iff_of_false rooted fun both => rooted both.2

/-- Pieces that are joined start at a root if one of them does. -/
theorem anchor_ofPieces {pieces : List String} :
    (ofPieces pieces).anchor = .relative ↔ ∀ piece ∈ pieces, piece.toList.head? ≠ some '/' := by
  have all (p : FilePath) : ((pieces.map ofText).foldl join p).anchor = .relative ↔
      p.anchor = .relative ∧ ∀ piece ∈ pieces, piece.toList.head? ≠ some '/' := by
    induction pieces generalizing p with
    | nil => simp
    | cons piece pieces ih =>
      rw [List.map_cons, List.foldl_cons, ih, anchor_join, List.forall_mem_cons, and_assoc, ofText,
        ofChars_eq_relative_iff]
  exact (all {}).trans (and_iff_right rfl)

/-- The names of pieces that are joined lie between slashes of the pieces. -/
theorem exists_of_mem_names {pieces : List String} {n : String} (h : n ∈ (ofPieces pieces).names) :
    ∃ piece ∈ pieces, n ∈ Text.split '/' piece := by
  have all (pieces : List String) (p : FilePath) (h : n ∈ ((pieces.map ofText).foldl join p).names) :
      n ∈ p.names ∨ ∃ piece ∈ pieces, n ∈ Text.split '/' piece := by
    induction pieces generalizing p with
    | nil => exact Or.inl h
    | cons piece pieces ih =>
      rcases ih _ h with h | ⟨later, hl, h⟩
      · have either : n ∈ p.names ∨ n ∈ (ofText piece).names := by
          unfold join at h
          split at h
          · exact List.mem_append.1 h
          · exact Or.inr h
        exact either.imp_right fun h => ⟨piece, List.mem_cons_self, (List.mem_filter.1 h).1⟩
      · exact Or.inr ⟨later, List.mem_cons_of_mem _ hl, h⟩
  rcases all pieces {} h with h | h
  · cases h
  · exact h

/-! ## Below a directory -/

/-- The path leads down from the directory, by one name or more and never up. -/
def IsBelow (p dir : FilePath) : Prop :=
  ∃ down, down ≠ [] ∧ ".." ∉ down ∧ p = ⟨dir.anchor, dir.names ++ down⟩

theorem isBelow_join {p : FilePath} (relative : p.anchor = .relative) (some : p.names ≠ []) (up : ".." ∉ p.names)
    (dir : FilePath) : (dir.join p).IsBelow dir :=
  ⟨p.names, some, up, if_pos relative⟩

/-- A path that starts at a root stays where it is. -/
theorem join_of_rooted {p : FilePath} (rooted : p.anchor ≠ .relative) (dir : FilePath) : dir.join p = p :=
  if_neg rooted

/-! ## Walks -/

theorem foldl_step_of_steps {anchor : PathAnchor} {names : List String} (h : ∀ n ∈ names, n ≠ "..")
    (place : List String) : names.foldl (step anchor) place = place ++ names := by
  induction names generalizing place with
  | nil => rw [List.append_nil]; rfl
  | cons n names ih =>
    rw [List.foldl_cons, step, if_pos (h n List.mem_cons_self),
      ih fun m hm => h m (List.mem_cons_of_mem _ hm), List.append_assoc, List.singleton_append]

/-- Two dots for each name lead up again. -/
theorem foldl_step_up {anchor : PathAnchor} {names : List String} (h : ∀ n ∈ names, n ≠ "..")
    (place : List String) :
    (List.replicate names.length "..").foldl (step anchor) (place ++ names) = place := by
  induction names using List.reverseRecOn with
  | nil => rw [List.append_nil]; rfl
  | append_singleton names last ih =>
    have hl : last ≠ ".." := h last (List.mem_append_right _ (List.mem_singleton_self _))
    have up : step anchor (place ++ (names ++ [last])) ".." = place ++ names := by
      rw [← List.append_assoc, step, if_neg (not_not_intro rfl), List.getLast?_concat]
      show (if last = ".." then _ else _) = _
      rw [if_neg hl, List.dropLast_concat]
    rw [List.length_append, List.length_singleton, List.replicate_succ, List.foldl_cons, up]
    exact ih fun n hn => h n (List.mem_append_left _ hn)

theorem normalize_of_steps {anchor : PathAnchor} {names : List String} (h : ∀ n ∈ names, n ≠ "..") :
    normalize ⟨anchor, names⟩ = ⟨anchor, names⟩ := by
  rw [normalize, foldl_step_of_steps h, List.nil_append]

/-- A way leads up from each name that is not shared, and then down. It does not lead down when the path
is above its start. -/
theorem wayBetween_eq (start path : List String) :
    ∃ shared up down, start = shared ++ up ∧ path = shared ++ down ∧
      wayBetween start path = List.replicate up.length ".." ++ down ∧ (down = [] ↔ path <+: start) := by
  fun_induction wayBetween start path with
  | case1 start p path ih =>
    obtain ⟨shared, up, down, rfl, rfl, hw, hd⟩ := ih
    refine ⟨p :: shared, up, down, rfl, rfl, hw, hd.trans ?_⟩
    rw [List.prefix_cons_inj]
  | case2 s start p path hne =>
    refine ⟨[], s :: start, p :: path, rfl, rfl, by rw [List.map_const'], ?_⟩
    constructor
    · intro e
      cases e
    · intro e
      exact absurd (List.cons_prefix_cons.1 e).1.symm hne
  | case3 start path h =>
    refine ⟨[], start, path, rfl, rfl, by rw [List.map_const'], ?_⟩
    constructor
    · rintro rfl
      exact List.nil_prefix
    · intro e
      cases path with
      | nil => rfl
      | cons p path =>
        cases start with
        | nil => exact absurd (List.prefix_nil.1 e) (List.cons_ne_nil _ _)
        | cons s start => exact (h _ _ _ _ rfl rfl).elim

/-- What two paths share first makes no difference to the way between them. -/
theorem wayBetween_append (shared start path : List String) :
    wayBetween (shared ++ start) (shared ++ path) = wayBetween start path := by
  induction shared with
  | nil => rfl
  | cons s shared ih => rw [List.cons_append, List.cons_append, wayBetween, if_pos rfl, ih]

theorem absolute_of_steps {directory names : List String} (hd : ∀ n ∈ directory, n ≠ "..")
    (hn : ∀ n ∈ names, n ≠ "..") : absolute directory ⟨.relative, names⟩ = directory ++ names := by
  rw [absolute, if_pos rfl, normalize_of_steps (List.forall_mem_append.2 ⟨hd, hn⟩)]

/-- The way between relative paths of steps is the same from any working directory. -/
theorem relativeTo_of_steps {directory start path : List String} (hd : ∀ n ∈ directory, n ≠ "..")
    (hs : ∀ n ∈ start, n ≠ "..") (hp : ∀ n ∈ path, n ≠ "..") :
    relativeTo ⟨.relative, path⟩ ⟨.relative, start⟩ directory = ⟨.relative, wayBetween start path⟩ := by
  rw [relativeTo, absolute_of_steps hd hs, absolute_of_steps hd hp, wayBetween_append]

/-- A way that leads down, with another last name, is walked from its start. -/
theorem normalize_way {shared up down : List String} (hs : ∀ n ∈ shared ++ up, n ≠ "..")
    (hd : ∀ n ∈ down, n ≠ "..") :
    normalize ⟨.relative, (shared ++ up) ++ (List.replicate up.length ".." ++ down)⟩ =
      ⟨.relative, shared ++ down⟩ := by
  have hup : ∀ n ∈ up, n ≠ ".." := fun n hn => hs n (List.mem_append_right _ hn)
  rw [normalize, List.foldl_append, foldl_step_of_steps hs, List.nil_append, List.foldl_append,
    foldl_step_up hup, foldl_step_of_steps hd]

end ShapeExport.FilePath
