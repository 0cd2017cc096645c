import ShapeExport.JsonSchema.Render
import ShapeExport.Proofs.Export.Names
import ShapeExport.Proofs.FilePath

/-!
# Specifiers and the files that they name

* `Record.modules` : the directories above the file of a record;
* `Export.filePath_eq`, `Export.specifier_eq` : the file of a record, and how another file names it, by
  their names;
* `Export.filePath_eq_concat` : the file of a record, whatever its module path is;
* `Export.exists_specifier` : so other files can name it, if its own name was checked;
* `Export.Leads` : a specifier, with the suffix of files behind it, leads to the file of a record;
* `Export.Encloses` : the path of a file, without the suffix, is that of a directory above another file;
* `Export.specifier_leads_iff` : a specifier leads to its file just when that is not so.
-/

namespace ShapeExport
open FilePath

/-- The names in the module path of a record. -/
def Record.modules (r : Record) : List String := (Text.split '.' r.modulePath).filter (!·.isEmpty)

/-- One name without a dot in it. -/
structure FilePath.IsPlain (n : String) : Prop where
  ne_empty : n ≠ ""
  no_dot : '.' ∉ n.toList
  no_slash : '/' ∉ n.toList

theorem FilePath.IsPlain.ne_dots {n : String} (h : IsPlain n) : n ≠ "." ∧ n ≠ ".." := by
  constructor
  · rintro rfl
    exact h.no_dot (by decide)
  · rintro rfl
    exact h.no_dot (by decide)

theorem FilePath.IsPlain.isStep {n : String} (h : IsPlain n) : IsStep n :=
  ⟨by simp [FilePath.isName, h.ne_empty, h.ne_dots.1], h.ne_dots.2, h.no_slash⟩

theorem isPlain_of_isTypeName {s : String} (h : isTypeName s) : IsPlain s := by
  have word := fun {c : Char} (hc : c ∈ s.toList) => isWordChar_of_isTypeName h hc
  refine ⟨?_, ?_, ?_⟩
  · rintro rfl
    exact absurd h (by decide)
  · intro hm
    exact absurd (word hm) (by decide)
  · intro hm
    exact absurd (word hm) (by decide)

theorem Record.isPlain_of_mem_modules {r : Record} (h : '/' ∉ r.modulePath.toList) {n : String}
    (hn : n ∈ r.modules) : IsPlain n := by
  obtain ⟨hm, he⟩ := List.mem_filter.1 hn
  refine ⟨?_, Text.not_mem_of_mem_split hm, fun hs => h (Text.mem_of_mem_split hm hs)⟩
  rintro rfl
  exact absurd he (by decide)

/-! ## Suffixes -/

namespace Language

theorem isStep_append_fileSuffix (l : Language) {n : String} (h : '/' ∉ n.toList) :
    IsStep (n ++ l.fileSuffix) := by
  have long : 2 < (n ++ l.fileSuffix).length := by
    have : 2 < l.fileSuffix.length := by cases l <;> decide
    rw [String.length_append]
    omega
  have short : ∀ s : String, s.length ≤ 2 → n ++ l.fileSuffix ≠ s := by
    rintro s hs rfl
    omega
  refine ⟨?_, short ".." (by decide), ?_⟩
  · simp only [FilePath.isName, Bool.and_eq_true, bne_iff_ne, ne_eq]
    exact ⟨short "" (by decide), short "." (by decide)⟩
  · rw [String.toList_append, List.mem_append, not_or]
    exact ⟨h, by cases l <;> decide⟩

end Language

namespace Export

variable {x : Export} {source target : Record}

theorem dropSuffix_append (l : Language) (name : String) : dropSuffix l (name ++ l.fileSuffix) = name := by
  have length : (name ++ l.fileSuffix).length - l.fileSuffix.length = name.toList.length := by
    rw [String.length_append, Nat.add_sub_cancel, String.length_toList]
  rw [dropSuffix, length, String.toList_append, List.take_left', String.ofList_toList]
  rfl

theorem filePath_eq {r : Record} (hn : isTypeName (x.displayName r)) (hm : '/' ∉ r.modulePath.toList) :
    x.filePath r = ⟨.relative, r.modules ++ [x.displayName r ++ x.config.language.fileSuffix]⟩ := by
  apply ofPieces_of_steps
  intro n h
  rcases List.mem_append.1 h with h | h
  · exact (Record.isPlain_of_mem_modules hm h).isStep
  · rw [List.mem_singleton.1 h]
    exact Language.isStep_append_fileSuffix _ (isPlain_of_isTypeName hn).no_slash

/-- The file of a record lies where its module path leads. -/
theorem filePath_eq_concat {r : Record} (hn : isTypeName (x.displayName r)) :
    x.filePath r = ⟨(ofPieces r.modules).anchor,
      (ofPieces r.modules).names ++ [x.displayName r ++ x.config.language.fileSuffix]⟩ := by
  have step := Language.isStep_append_fileSuffix x.config.language (isPlain_of_isTypeName hn).no_slash
  rw [filePath, ofPieces, List.map_append, List.foldl_append, List.map_singleton, List.foldl_cons, List.foldl_nil,
    ofText_of_step step, join, if_pos rfl]
  rfl

/-! ## Texts of ways -/

/-- A way that starts with a dot or two: one dot is put in front of a way that leads down only. -/
def anchored (way : List String) : List String := if way.head? = some ".." then way else "." :: way

theorem startsWith_dot_iff {s : String} : s.startsWith "." ↔ s.toList.head? = some '.' := by
  rw [String.startsWith_string_iff]
  cases s.toList with
  | nil => simp
  | cons c cs => simp [eq_comm]

/-- The text of a way, with a dot in front unless it starts with one. -/
theorem text_anchored {way : List String} (h : ∀ n ∈ way, n = ".." ∨ IsPlain n) :
    (if (FilePath.text ⟨.relative, way⟩).startsWith "." then FilePath.text ⟨.relative, way⟩
      else "./" ++ FilePath.text ⟨.relative, way⟩) = "/".intercalate (anchored way) := by
  cases way with
  | nil =>
    have text : FilePath.text ⟨.relative, []⟩ = "." := by simp [FilePath.text]
    have dots : ".".startsWith "." := startsWith_dot_iff.2 (by decide)
    rw [text, if_pos dots, anchored, if_neg (by decide), String.intercalate_singleton]
  | cons n ns =>
    have text : FilePath.text ⟨.relative, n :: ns⟩ = "/".intercalate (n :: ns) := by
      simp [FilePath.text, PathAnchor.text]
    rw [text]
    rcases h n List.mem_cons_self with rfl | hn
    · have dots : ("/".intercalate (".." :: ns)).startsWith "." := by
        rw [startsWith_dot_iff, head?_intercalate (by decide)]
        decide
      rw [if_pos dots, anchored, if_pos (show (".." :: ns).head? = some ".." from rfl)]
    · have plain : ¬ ("/".intercalate (n :: ns)).startsWith "." := by
        rw [startsWith_dot_iff, head?_intercalate hn.ne_empty]
        intro e
        exact hn.no_dot (List.mem_of_mem_head? e)
      have down : ¬ (n :: ns).head? = some ".." := by
        intro e
        exact hn.ne_dots.2 (Option.some.inj e)
      rw [if_neg plain, anchored, if_neg down, String.intercalate_cons_cons]
      rfl

theorem intercalate_append_text (names : List String) (last text : String) :
    "/".intercalate (names ++ [last]) ++ text = "/".intercalate (names ++ [last ++ text]) := by
  cases names with
  | nil => simp
  | cons n ns =>
    rw [String.intercalate_append_of_ne_nil (List.cons_ne_nil _ _) (List.cons_ne_nil _ _),
      String.intercalate_append_of_ne_nil (List.cons_ne_nil _ _) (List.cons_ne_nil _ _),
      String.intercalate_singleton, String.intercalate_singleton, String.append_assoc]

/-- A way with a suffix behind it is read back, and the suffix is part of its last name. -/
theorem ofText_anchored {names : List String} {last : String} (l : Language)
    (h : ∀ n ∈ names ++ [last], n = ".." ∨ IsPlain n) :
    ofText ("/".intercalate (anchored (names ++ [last])) ++ l.fileSuffix) =
      ⟨.relative, names ++ [last ++ l.fileSuffix]⟩ := by
  have no_slash : ∀ n ∈ names ++ [last], '/' ∉ n.toList := by
    intro n hn
    rcases h n hn with rfl | hp
    · decide
    · exact hp.no_slash
  have file := l.isStep_append_fileSuffix
    (no_slash last (List.mem_append_right _ (List.mem_singleton_self _)))
  have pieces : ∀ n ∈ names ++ [last ++ l.fileSuffix], FilePath.isName n ∧ '/' ∉ n.toList := by
    intro n hn
    rcases List.mem_append.1 hn with hn | hn
    · have hm := List.mem_append_left [last] hn
      refine ⟨?_, no_slash n hm⟩
      rcases h n hm with rfl | hp
      · decide
      · exact hp.isStep.isName
    · rw [List.mem_singleton.1 hn]
      exact ⟨file.isName, file.no_slash⟩
  have kept : (names ++ [last ++ l.fileSuffix]).filter FilePath.isName = names ++ [last ++ l.fileSuffix] :=
    List.filter_eq_self.2 fun n hn => (pieces n hn).1
  -- A way that leads up is anchored by its first name, every other one by a dot that reading drops.
  unfold anchored
  split
  · rw [intercalate_append_text]
    cases hn : names ++ [last ++ l.fileSuffix] with
    | nil => exact absurd hn (by simp)
    | cons n ns =>
      rw [hn] at pieces kept
      have ne_empty : n ≠ "" := by
        rintro rfl
        exact absurd (pieces "" List.mem_cons_self).1 (by decide)
      rw [ofText_intercalate ne_empty fun m hm => (pieces m hm).2, kept]
  · rw [← List.cons_append, intercalate_append_text, List.cons_append, ofText_intercalate (by decide),
      List.filter_cons_of_neg (by decide), kept]
    intro m hm
    rcases List.mem_cons.1 hm with rfl | hm
    · decide
    · exact (pieces m hm).2

/-! ## Specifiers -/

/-- The way to the file of a record, less the suffix, from the directory of another. -/
def way (x : Export) (source target : Record) : List String :=
  wayBetween source.modules (target.modules ++ [x.displayName target])

theorem isPlain_of_mem_path {r : Record} (hn : isTypeName (x.displayName r))
    (hm : '/' ∉ r.modulePath.toList) : ∀ n ∈ r.modules ++ [x.displayName r], IsPlain n := by
  intro n h
  rcases List.mem_append.1 h with h | h
  · exact Record.isPlain_of_mem_modules hm h
  · rw [List.mem_singleton.1 h]
    exact isPlain_of_isTypeName hn

theorem mem_way (ht : isTypeName (x.displayName target)) (htm : '/' ∉ target.modulePath.toList) :
    ∀ n ∈ x.way source target, n = ".." ∨ IsPlain n := by
  obtain ⟨shared, up, down, -, hp, hw, -⟩ := wayBetween_eq source.modules
    (target.modules ++ [x.displayName target])
  intro n hn
  rw [way, hw] at hn
  rcases List.mem_append.1 hn with hn | hn
  · exact Or.inl (List.eq_of_mem_replicate hn)
  · exact Or.inr (isPlain_of_mem_path ht htm n (hp ▸ List.mem_append_right _ hn))

/-- The file of a record has its name, with the suffix of files behind it. -/
theorem name_filePath {r : Record} (hn : isTypeName (x.displayName r)) :
    (x.filePath r).name = x.displayName r ++ x.config.language.fileSuffix := by
  rw [filePath_eq_concat hn, FilePath.name, List.getLast?_concat, Option.getD_some]

/-- Without the suffix, the name of the file is still one of a file. -/
theorem withName?_filePath (ht : isTypeName (x.displayName target)) :
    (x.filePath target).withName? (x.displayName target) =
      some ⟨(x.filePath target).anchor, (x.filePath target).names.dropLast ++ [x.displayName target]⟩ := by
  have plain := isPlain_of_isTypeName ht
  have isFile : isFileName (x.displayName target) := by
    simp [isFileName, plain.isStep.isName, plain.no_slash]
  rw [withName?, if_pos isFile]

/-- A file that has a name that was checked can be named by other files. -/
theorem exists_specifier (source : Record) (ht : isTypeName (x.displayName target)) :
    ∃ text, x.specifier source target = .ok text := by
  unfold specifier
  dsimp only
  rw [name_filePath ht, dropSuffix_append, withName?_filePath ht]
  exact ⟨_, rfl⟩

theorem specifier_eq (hs : isTypeName (x.displayName source)) (ht : isTypeName (x.displayName target))
    (hsm : '/' ∉ source.modulePath.toList) (htm : '/' ∉ target.modulePath.toList) :
    x.specifier source target = .ok ("/".intercalate (anchored (x.way source target))) := by
  have name : dropSuffix x.config.language (x.filePath target).name = x.displayName target := by
    rw [name_filePath ht, dropSuffix_append]
  have bare : (x.filePath target).withName? (x.displayName target) =
      some ⟨.relative, target.modules ++ [x.displayName target]⟩ := by
    rw [withName?_filePath ht, filePath_eq ht htm, List.dropLast_concat]
  have relative : FilePath.relativeTo ⟨.relative, target.modules ++ [x.displayName target]⟩
      (x.filePath source).parent workingDirectory = ⟨.relative, x.way source target⟩ := by
    rw [filePath_eq hs hsm, parent, List.dropLast_concat]
    apply relativeTo_of_steps
    · decide
    · exact fun n hn => (Record.isPlain_of_mem_modules hsm hn).ne_dots.2
    · exact fun n hn => (isPlain_of_mem_path ht htm n hn).ne_dots.2
  rw [specifier, name, bare]
  show Except.ok _ = _
  rw [relative, text_anchored (mem_way ht htm)]

/-! ## Where a specifier leads -/

/-- The specifier, with the suffix of files behind it, leads from the directory of one file to another. -/
def Leads (x : Export) (source target : Record) (specifier : String) : Prop :=
  ((x.filePath source).parent.join (.ofText (specifier ++ x.config.language.fileSuffix))).normalize =
    x.filePath target

/-- The path of the target's file, less the suffix, is that of a directory which holds the source. -/
def Encloses (x : Export) (target source : Record) : Prop :=
  target.modules ++ [x.displayName target] <+: source.modules

instance : Decidable (x.Encloses target source) :=
  inferInstanceAs (Decidable (target.modules ++ [x.displayName target] <+: source.modules))

/-- A way whose last name is not two dots leads to that name. -/
theorem getLast?_normalize {anchor : PathAnchor} {names : List String} {last : String}
    (h : last ≠ "..") : (FilePath.normalize ⟨anchor, names ++ [last]⟩).names.getLast? = some last := by
  rw [FilePath.normalize, List.foldl_append, List.foldl_cons, List.foldl_nil, step, if_pos h,
    List.getLast?_concat]

/-- A way that ends with dots does not lead to the file of a record. -/
theorem not_leads_of_dots (hs : isTypeName (x.displayName source))
    (ht : isTypeName (x.displayName target)) (hsm : '/' ∉ source.modulePath.toList)
    (htm : '/' ∉ target.modulePath.toList) {s dots : String} (hd : dots ∈ [".", ".."])
    {names : List String} (h : ofText (s ++ x.config.language.fileSuffix) =
      ⟨.relative, names ++ [dots ++ x.config.language.fileSuffix]⟩) : ¬ x.Leads source target s := by
  intro lead
  have no_slash : '/' ∉ dots.toList := by
    simp only [List.mem_cons, List.not_mem_nil, or_false] at hd
    rcases hd with rfl | rfl <;> decide
  have file := x.config.language.isStep_append_fileSuffix no_slash
  rw [Leads, h, filePath_eq hs hsm, filePath_eq ht htm, join, if_pos rfl, ← List.append_assoc] at lead
  have last := congrArg (fun p : FilePath => p.names.getLast?) lead
  simp only [getLast?_normalize file.ne_up, List.getLast?_concat, Option.some.injEq] at last
  have name : dots = x.displayName target := String.append_left_inj _ |>.1 last
  have plain := isPlain_of_isTypeName ht
  rw [← name] at plain
  simp only [List.mem_cons, List.not_mem_nil, or_false] at hd
  rcases hd with rfl | rfl
  · exact plain.ne_dots.1 rfl
  · exact plain.ne_dots.2 rfl

theorem startsWith_anchored {names : List String} {last : String} (h : last ≠ "..") :
    ("/".intercalate (anchored (names ++ [last]))).startsWith "./" ∨
      ("/".intercalate (anchored (names ++ [last]))).startsWith "../" := by
  have start : ∀ (n : String) (ns : List String), ns ≠ [] →
      ("/".intercalate (n :: ns)).startsWith (n ++ "/") := by
    intro n ns hne
    rw [String.startsWith_string_iff, String.intercalate_cons_of_ne_nil hne]
    simp only [String.toList_append]
    exact List.prefix_append _ _
  unfold anchored
  split
  · next up =>
    right
    cases names with
    | nil => exact absurd (Option.some.inj up) h
    | cons n ns =>
      obtain rfl : n = ".." := Option.some.inj up
      exact start ".." _ (by simp)
  · left
    exact start "." _ (by simp)

theorem way_of_encloses (he : x.Encloses target source) :
    ∃ k, x.way source target = List.replicate k ".." := by
  obtain ⟨shared, up, down, -, -, hw, hd⟩ := wayBetween_eq source.modules
    (target.modules ++ [x.displayName target])
  refine ⟨up.length, ?_⟩
  rw [way, hw, hd.2 he, List.append_nil]

theorem way_of_not_encloses (he : ¬ x.Encloses target source) :
    ∃ shared up inner, source.modules = shared ++ up ∧ target.modules = shared ++ inner ∧
      x.way source target = (List.replicate up.length ".." ++ inner) ++ [x.displayName target] := by
  obtain ⟨shared, up, down, hu, hp, hw, hd⟩ := wayBetween_eq source.modules
    (target.modules ++ [x.displayName target])
  obtain ⟨inner, last, rfl⟩ := (List.eq_nil_or_concat down).resolve_left fun e => he (hd.1 e)
  rw [List.concat_eq_append, ← List.append_assoc] at hp
  obtain ⟨hm, hl⟩ := List.append_inj' hp rfl
  refine ⟨shared, up, inner, hu, hm, ?_⟩
  rw [way, hw, List.singleton_inj.1 hl, List.concat_eq_append, List.append_assoc]

theorem not_leads_of_encloses (hs : isTypeName (x.displayName source))
    (ht : isTypeName (x.displayName target)) (hsm : '/' ∉ source.modulePath.toList)
    (htm : '/' ∉ target.modulePath.toList) (he : x.Encloses target source) :
    ¬ x.Leads source target ("/".intercalate (anchored (x.way source target))) := by
  have names : ∀ n ∈ x.way source target, n = ".." ∨ IsPlain n := mem_way ht htm
  obtain ⟨k, hk⟩ := way_of_encloses he
  rw [hk] at names ⊢
  cases k with
  | zero =>
    have read : ofText ("." ++ x.config.language.fileSuffix) =
        ⟨.relative, [] ++ ["." ++ x.config.language.fileSuffix]⟩ :=
      ofText_of_step (Language.isStep_append_fileSuffix _ (by decide))
    exact not_leads_of_dots hs ht hsm htm (by decide) read
  | succ k =>
    rw [List.replicate_succ'] at names ⊢
    exact not_leads_of_dots hs ht hsm htm (by decide) (ofText_anchored _ names)

theorem leads_of_not_encloses (hs : isTypeName (x.displayName source))
    (ht : isTypeName (x.displayName target)) (hsm : '/' ∉ source.modulePath.toList)
    (htm : '/' ∉ target.modulePath.toList) (he : ¬ x.Encloses target source) :
    x.Leads source target ("/".intercalate (anchored (x.way source target))) := by
  have names : ∀ n ∈ x.way source target, n = ".." ∨ IsPlain n := mem_way ht htm
  obtain ⟨shared, up, inner, hu, hm, hw⟩ := way_of_not_encloses he
  have outer : ∀ n ∈ shared ++ up, n ≠ ".." := fun n hn =>
    (Record.isPlain_of_mem_modules hsm (hu ▸ hn)).ne_dots.2
  have file := x.config.language.isStep_append_fileSuffix (isPlain_of_isTypeName ht).no_slash
  have below : ∀ n ∈ inner ++ [x.displayName target ++ x.config.language.fileSuffix], n ≠ ".." := by
    intro n hn
    rcases List.mem_append.1 hn with hn | hn
    · exact (Record.isPlain_of_mem_modules htm (hm ▸ List.mem_append_right _ hn)).ne_dots.2
    · rw [List.mem_singleton.1 hn]
      exact file.ne_up
  rw [hw] at names ⊢
  rw [Leads, ofText_anchored _ names, filePath_eq hs hsm, filePath_eq ht htm, parent,
    List.dropLast_concat, join, if_pos rfl, hu, hm, List.append_assoc (List.replicate _ _),
    normalize_way outer below, List.append_assoc]

/-- **Where a specifier leads.** It leads to the file of its target unless the path of that file, less the
suffix, is that of a directory which holds the source. Then it starts with a dot or two and a slash, and a
JSON schema refers to the file by it. -/
theorem specifier_leads_iff (x : Export) {source target : Record}
    (hs : isTypeName (x.displayName source)) (ht : isTypeName (x.displayName target))
    (hsm : '/' ∉ source.modulePath.toList) (htm : '/' ∉ target.modulePath.toList) :
    ∃ s, x.specifier source target = .ok s ∧ (x.Leads source target s ↔ ¬ x.Encloses target source) ∧
      (¬ x.Encloses target source → s.startsWith "./" ∨ s.startsWith "../") ∧
      JsonSchema.Context.uri { toExport := x, linking := .file source } target =
        .ok (s ++ x.config.language.fileSuffix) := by
  have spec := specifier_eq hs ht hsm htm
  refine ⟨_, spec, ?_, ?_, ?_⟩
  · constructor
    · intro lead he
      exact not_leads_of_encloses hs ht hsm htm he lead
    · exact leads_of_not_encloses hs ht hsm htm
  · intro he
    obtain ⟨shared, up, inner, -, -, hw⟩ := way_of_not_encloses he
    rw [hw]
    exact startsWith_anchored (isPlain_of_isTypeName ht).ne_dots.2
  · show Except.map _ (x.specifier source target) = _
    rw [spec]
    rfl

/-! ## A module beside a file -/

namespace Nested

/-- A record without contents, in a module. -/
def plainRecord (hash : Nat) (name modulePath : String) : Record :=
  { id := ⟨⟨.static, hash⟩, name⟩, name, shape := .struct name .unit, modulePath }

def point : Record := plainRecord 1 "Point" "geo"

def line : Record := plainRecord 2 "Line" "geo.shapes"

/-- A record in a module with the path of the file of `point`. -/
def origin : Record := plainRecord 3 "Origin" "geo.Point"

def files : Export := ⟨{ layout := .perTypeFile }, .ofRecords [point, line, origin]⟩

theorem specifier_leads_line :
    isTypeName (files.displayName line) ∧ isTypeName (files.displayName point) ∧
      '/' ∉ line.modulePath.toList ∧ '/' ∉ point.modulePath.toList ∧ ¬ files.Encloses point line ∧
      ∃ s, files.specifier line point = .ok s ∧ files.Leads line point s ∧
        (s.startsWith "./" ∨ s.startsWith "../") := by
  have hl : isTypeName (files.displayName line) := by decide
  have hp : isTypeName (files.displayName point) := by decide
  have he : ¬ files.Encloses point line := by decide
  obtain ⟨s, hs, lead, dots, -⟩ := specifier_leads_iff files hl hp (by decide) (by decide)
  exact ⟨hl, hp, by decide, by decide, he, s, hs, lead.2 he, dots he⟩

/-- From the directory that is named like the file of `point` the specifier is a dot, which leads to no
file. -/
theorem origin_specifier_lost :
    isTypeName (files.displayName origin) ∧ isTypeName (files.displayName point) ∧
      '/' ∉ origin.modulePath.toList ∧ '/' ∉ point.modulePath.toList ∧
      files.specifier origin point = .ok "." ∧ ¬ files.Leads origin point "." ∧
      ¬ ".".startsWith "./" ∧ ¬ ".".startsWith "../" := by
  have ho : isTypeName (files.displayName origin) := by decide
  have hp : isTypeName (files.displayName point) := by decide
  have spec : files.specifier origin point =
      .ok ("/".intercalate (anchored (files.way origin point))) :=
    specifier_eq ho hp (by decide) (by decide)
  have lost : ¬ files.Leads origin point ("/".intercalate (anchored (files.way origin point))) :=
    not_leads_of_encloses ho hp (by decide) (by decide) (by decide)
  have way : files.way origin point = [] := by decide
  rw [way] at spec lost
  refine ⟨ho, hp, by decide, by decide, spec, lost, ?_, ?_⟩
  · rw [String.startsWith_string_iff]
    decide
  · rw [String.startsWith_string_iff]
    decide

end Nested

end Export

end ShapeExport
