import ShapeExport.Text.Pieces

/-!
# Pieces of texts

* `Text.splitChars_of_not_mem`, `Text.splitChars_append` : cutting takes one piece after another;
* `Text.split_append`, `Text.split_intercalate` : the same for texts, and for texts that were joined;
* `Text.mem_of_mem_split` : the characters of the pieces;
* `Text.endsWith_iff` : the end of a text, by its characters;
* `Text.replaceFrom_singleton` : one character is replaced by another wherever it stands;
* `Text.mem_of_mem_distinctBy`, `Text.mem_map_distinctBy`, `Text.nodup_distinctBy`,
  `Text.distinctBy_of_nodup`, `Text.distinctBy_map` : what is left when each key counts once.
-/

namespace ShapeExport.Text

variable {sep : Char}

theorem splitChars_of_not_mem {cs : List Char} (h : sep ∉ cs) : splitChars sep cs = [cs] := by
  induction cs with
  | nil => rfl
  | cons c cs ih =>
    rw [List.mem_cons, not_or] at h
    rw [splitChars, if_neg (Ne.symm h.1), ih h.2]

theorem splitChars_append {cs rest : List Char} (h : sep ∉ cs) :
    splitChars sep (cs ++ sep :: rest) = cs :: splitChars sep rest := by
  induction cs with
  | nil => rw [List.nil_append, splitChars, if_pos rfl]
  | cons c cs ih =>
    rw [List.mem_cons, not_or] at h
    rw [List.cons_append, splitChars, if_neg (Ne.symm h.1), ih h.2]

/-- A front without separators stays with the first piece. -/
theorem exists_splitChars_append {front : List Char} (h : sep ∉ front) (cs : List Char) :
    ∃ first pieces, splitChars sep cs = first :: pieces ∧
      splitChars sep (front ++ cs) = (front ++ first) :: pieces := by
  induction front with
  | nil =>
    cases e : splitChars sep cs with
    | nil => exact absurd e (splitChars_ne_nil sep cs)
    | cons first pieces => exact ⟨first, pieces, rfl, e⟩
  | cons c front ih =>
    rw [List.mem_cons, not_or] at h
    obtain ⟨first, pieces, e, e'⟩ := ih h.2
    refine ⟨first, pieces, e, ?_⟩
    rw [List.cons_append, splitChars, if_neg (Ne.symm h.1), e']
    rfl

/-- Cutting at one separator does not change what is cut at the others. -/
theorem splitChars_append_sep (sep : Char) (cs rest : List Char) :
    splitChars sep (cs ++ sep :: rest) = splitChars sep cs ++ splitChars sep rest := by
  induction cs with
  | nil => exact if_pos rfl
  | cons c cs ih =>
    rw [List.cons_append, splitChars, splitChars, ih]
    split
    · rfl
    · cases h : splitChars sep cs with
      | nil => exact absurd h (splitChars_ne_nil sep cs)
      | cons first pieces => rfl

theorem split_of_not_mem {s : String} (h : sep ∉ s.toList) : split sep s = [s] := by
  rw [split, splitChars_of_not_mem h, List.map_singleton, String.ofList_toList]

theorem split_append {s rest : String} (h : sep ∉ s.toList) :
    split sep (s ++ (String.singleton sep ++ rest)) = s :: split sep rest := by
  have e : (s ++ (String.singleton sep ++ rest)).toList = s.toList ++ sep :: rest.toList := by simp
  rw [split, e, splitChars_append h, List.map_cons, String.ofList_toList, split]

/-- Texts that were joined with a separator are cut apart again. -/
theorem split_intercalate {ss : List String} (hne : ss ≠ []) (h : ∀ s ∈ ss, sep ∉ s.toList) :
    split sep ((String.singleton sep).intercalate ss) = ss := by
  induction ss with
  | nil => exact absurd rfl hne
  | cons s ss ih =>
    have hs := h s List.mem_cons_self
    cases ss with
    | nil => rw [String.intercalate_singleton, split_of_not_mem hs]
    | cons t ts =>
      rw [String.intercalate_cons_cons, String.append_assoc, split_append hs,
        ih (List.cons_ne_nil _ _) fun u hu => h u (List.mem_cons_of_mem _ hu)]

theorem mem_of_mem_splitChars {cs piece : List Char} (h : piece ∈ splitChars sep cs) {c : Char}
    (hc : c ∈ piece) : c ∈ cs := by
  induction cs generalizing piece with
  | nil =>
    rw [splitChars, List.mem_singleton] at h
    rwa [h] at hc
  | cons d cs ih =>
    by_cases hd : d = sep
    · rw [splitChars, if_pos hd, List.mem_cons] at h
      rcases h with rfl | h
      · cases hc
      · exact List.mem_cons_of_mem _ (ih h hc)
    · rw [splitChars, if_neg hd] at h
      split at h
      · next e => exact absurd e (splitChars_ne_nil sep cs)
      · next first rest e =>
        rcases List.mem_cons.1 h with rfl | h
        · rcases List.mem_cons.1 hc with rfl | hc
          · exact List.mem_cons_self
          · exact List.mem_cons_of_mem _ (ih (e ▸ List.mem_cons_self) hc)
        · exact List.mem_cons_of_mem _ (ih (e ▸ List.mem_cons_of_mem _ h) hc)

theorem mem_of_mem_split {s piece : String} (h : piece ∈ split sep s) {c : Char}
    (hc : c ∈ piece.toList) : c ∈ s.toList := by
  obtain ⟨p, hp, rfl⟩ := List.mem_map.1 h
  rw [String.toList_ofList] at hc
  exact mem_of_mem_splitChars hp hc

theorem not_mem_of_mem_split {s piece : String} (h : piece ∈ split sep s) : sep ∉ piece.toList := by
  obtain ⟨p, hp, rfl⟩ := List.mem_map.1 h
  rw [String.toList_ofList]
  exact not_mem_of_mem_splitChars hp

theorem endsWith_iff {s suffix : String} : s.endsWith suffix ↔ suffix.toList <:+ s.toList := by
  rw [String.endsWith_eq_endsWith_toSlice, String.Slice.endsWith_string_iff]
  simp

theorem replaceFrom_singleton (old new : Char) (cs : List Char) :
    replaceFrom [old] [new] 0 cs = cs.map fun c => if c = old then new else c := by
  induction cs with
  | nil => rfl
  | cons c cs ih =>
    rw [replaceFrom, List.map_cons]
    by_cases h : c = old
    · simp [h, ih]
    · simp [h, ih, Ne.symm h]

/-! ## One element for each key -/

section Distinct

variable {α κ : Type} [BEq κ] {key : α → κ}

theorem mem_of_mem_distinctFrom {seen : List κ} {xs : List α} {x : α} (h : x ∈ distinctFrom key seen xs) :
    x ∈ xs := by
  induction xs generalizing seen with
  | nil => exact h
  | cons y ys ih =>
    rw [distinctFrom] at h
    split at h
    · exact List.mem_cons_of_mem _ (ih h)
    · rcases List.mem_cons.1 h with rfl | h
      · exact List.mem_cons_self
      · exact List.mem_cons_of_mem _ (ih h)

theorem mem_of_mem_distinctBy {xs : List α} {x : α} (h : x ∈ distinctBy key xs) : x ∈ xs :=
  mem_of_mem_distinctFrom h

variable [LawfulBEq κ]

/-- A key that has not been seen keeps an element. -/
theorem exists_of_distinctFrom {seen : List κ} {xs : List α} {x : α} (h : x ∈ xs) (hs : key x ∉ seen) :
    ∃ y ∈ distinctFrom key seen xs, key y = key x := by
  induction xs generalizing seen with
  | nil => cases h
  | cons z zs ih =>
    rw [distinctFrom]
    split
    · next hz =>
      rw [List.contains_iff_mem] at hz
      rcases List.mem_cons.1 h with rfl | h
      · exact absurd hz hs
      · exact ih h hs
    · by_cases e : key x = key z
      · exact ⟨z, List.mem_cons_self, e.symm⟩
      · rcases List.mem_cons.1 h with rfl | h
        · exact absurd rfl e
        · obtain ⟨y, hy, k⟩ := ih h fun hm => (List.mem_cons.1 hm).elim e hs
          exact ⟨y, List.mem_cons_of_mem _ hy, k⟩

theorem exists_of_distinctBy {xs : List α} {x : α} (h : x ∈ xs) : ∃ y ∈ distinctBy key xs, key y = key x :=
  exists_of_distinctFrom h List.not_mem_nil

/-- The keys are those of all elements. -/
theorem mem_map_distinctBy {xs : List α} {k : κ} : k ∈ (distinctBy key xs).map key ↔ k ∈ xs.map key := by
  constructor
  · intro h
    obtain ⟨y, hy, rfl⟩ := List.mem_map.1 h
    exact List.mem_map_of_mem (mem_of_mem_distinctBy hy)
  · intro h
    obtain ⟨x, hx, rfl⟩ := List.mem_map.1 h
    exact List.mem_map.2 (exists_of_distinctBy hx)

theorem nodup_distinctFrom (seen : List κ) (xs : List α) :
    ((distinctFrom key seen xs).map key).Nodup ∧ ∀ y ∈ distinctFrom key seen xs, key y ∉ seen := by
  induction xs generalizing seen with
  | nil => exact ⟨List.nodup_nil, List.forall_mem_nil _⟩
  | cons x xs ih =>
    rw [distinctFrom]
    split
    · exact ih seen
    · next hx =>
      rw [List.contains_iff_mem] at hx
      obtain ⟨hn, hs⟩ := ih (key x :: seen)
      refine ⟨List.nodup_cons.2 ⟨fun hm => ?_, hn⟩, List.forall_mem_cons.2 ⟨hx, fun y hy hm => ?_⟩⟩
      · obtain ⟨y, hy, e⟩ := List.mem_map.1 hm
        exact hs y hy (e ▸ List.mem_cons_self)
      · exact hs y hy (List.mem_cons_of_mem _ hm)

theorem nodup_distinctBy (xs : List α) : ((distinctBy key xs).map key).Nodup :=
  (nodup_distinctFrom [] xs).1

/-- Nothing is left out when no key comes twice. -/
theorem distinctBy_of_nodup {xs : List α} (h : (xs.map key).Nodup) : distinctBy key xs = xs := by
  have fresh : ∀ {ys : List α} {seen : List κ}, (ys.map key).Nodup → (∀ y ∈ ys, key y ∉ seen) →
      distinctFrom key seen ys = ys := by
    intro ys
    induction ys with
    | nil => exact fun _ _ => rfl
    | cons y ys ih =>
      intro seen hn hs
      rw [List.map_cons, List.nodup_cons] at hn
      rw [List.forall_mem_cons] at hs
      rw [distinctFrom, if_neg (by rw [List.contains_iff_mem]; exact hs.1), ih hn.2]
      intro z hz hm
      rcases List.mem_cons.1 hm with e | hm
      · exact hn.1 (e ▸ List.mem_map_of_mem hz)
      · exact hs.2 z hz hm
  exact fresh h fun _ _ => List.not_mem_nil

/-- Elements with different keys are kept as what they were made of. -/
theorem distinctFrom_map {β : Type} [BEq β] [LawfulBEq β] {f : β → α} (seen bs : List β)
    (inj : ∀ b ∈ bs, ∀ d, d ∈ seen ∨ d ∈ bs → key (f b) = key (f d) → b = d) :
    distinctFrom key (seen.map fun b => key (f b)) (bs.map f) = (distinctFrom id seen bs).map f := by
  induction bs generalizing seen with
  | nil => rfl
  | cons b bs ih =>
    have known : (seen.map fun b => key (f b)).contains (key (f b)) = seen.contains (id b) := by
      rw [Bool.eq_iff_iff, List.contains_iff_mem, List.contains_iff_mem, List.mem_map]
      constructor
      · rintro ⟨d, hd, e⟩
        exact inj b List.mem_cons_self d (Or.inl hd) e.symm ▸ hd
      · exact fun hb => ⟨b, hb, rfl⟩
    rw [List.map_cons, distinctFrom, distinctFrom, known]
    split
    · refine ih seen fun c hc d hd => inj c (List.mem_cons_of_mem _ hc) d ?_
      exact hd.imp_right (List.mem_cons_of_mem _)
    · rw [List.map_cons]
      refine congrArg (f b :: ·) (ih (b :: seen) fun c hc d hd => inj c (List.mem_cons_of_mem _ hc) d ?_)
      rcases hd with hd | hd
      · exact (List.mem_cons.1 hd).elim (fun e => Or.inr (e ▸ List.mem_cons_self)) Or.inl
      · exact Or.inr (List.mem_cons_of_mem _ hd)

theorem distinctBy_map {β : Type} [BEq β] [LawfulBEq β] {f : β → α} {bs : List β}
    (inj : ∀ b ∈ bs, ∀ d ∈ bs, key (f b) = key (f d) → b = d) :
    distinctBy key (bs.map f) = (distinctBy id bs).map f :=
  distinctFrom_map [] bs fun b hb d hd => inj b hb d (hd.resolve_left List.not_mem_nil)

/-- A search that looks at keys only finds the same element. -/
theorem find?_distinctBy {p : α → Bool} (hp : ∀ x y, key x = key y → p x = p y) (xs : List α) :
    (distinctBy key xs).find? p = xs.find? p := by
  have search : ∀ (xs : List α) (seen : List κ), (∀ x ∈ xs, key x ∈ seen → p x = false) →
      (distinctFrom key seen xs).find? p = xs.find? p := by
    intro xs
    induction xs with
    | nil => exact fun _ _ => rfl
    | cons x xs ih =>
      intro seen hs
      rw [List.forall_mem_cons] at hs
      rw [distinctFrom]
      split
      · next hx =>
        rw [List.contains_iff_mem] at hx
        rw [ih seen hs.2, List.find?_cons_of_neg (by simp [hs.1 hx])]
      · rw [List.find?_cons, List.find?_cons]
        split
        · rfl
        · next hx =>
          refine ih (key x :: seen) fun y hy hm => ?_
          rcases List.mem_cons.1 hm with e | hm
          · rw [hp y x e, hx]
          · exact hs.2 y hy hm
  exact search xs [] fun _ _ h => absurd h List.not_mem_nil

end Distinct

end ShapeExport.Text
