import ShapeExport.Scope

/-!
# Kept positions

A position of a shape is kept unless it lies in a skipped field or variant. Renderers and the validator
look at kept positions only.

* `Shape.kept` : the children at kept positions;
* `Shape.Holds` : a shape holds another one at a kept position, at any depth;
* `Shape.Holds.substitute`, `Shape.Holds.of_substitute` : what a shape holds once parameters are bound
  is what it held before, or lies in an argument;
* `Shape.Replaces` : one kept child is replaced by another shape.
-/

namespace ShapeExport

variable {ν σ τ : Type}

/-! ## Kept children -/

theorem not_length_le_one {l : List σ} (nil : l = [] → False) (single : ∀ a, l = [a] → False) :
    ¬ l.length ≤ 1 := by
  intro h
  rcases l with - | ⟨a, - | ⟨b, l⟩⟩
  · exact nil rfl
  · exact single a rfl
  · simp at h

theorem Field.kept_map (fs : List (Field ν σ)) (g : σ → τ) :
    Field.kept (fs.map (·.map g)) = (Field.kept fs).map (·.map g) := by
  unfold Field.kept
  rw [List.filter_map]
  rfl

theorem Variant.kept_map (vs : List (Variant σ)) (g : σ → τ) :
    Variant.kept (vs.map (·.map g)) = (Variant.kept vs).map (·.map g) := by
  unfold Variant.kept
  rw [List.filter_map]
  rfl

theorem Field.kept_cons_of_skip {f : Field ν σ} {fs : List (Field ν σ)} (h : f.skip = true) :
    Field.kept (f :: fs) = Field.kept fs := by
  simp [Field.kept, h]

theorem Field.kept_cons_of_not_skip {f : Field ν σ} {fs : List (Field ν σ)} (h : ¬ f.skip = true) :
    Field.kept (f :: fs) = f :: Field.kept fs := by
  simp [Field.kept, h]

theorem Variant.kept_cons_of_skip {v : Variant σ} {vs : List (Variant σ)} (h : v.skip = true) :
    Variant.kept (v :: vs) = Variant.kept vs := by
  simp [Variant.kept, h]

theorem Variant.kept_cons_of_not_skip {v : Variant σ} {vs : List (Variant σ)} (h : ¬ v.skip = true) :
    Variant.kept (v :: vs) = v :: Variant.kept vs := by
  simp [Variant.kept, h]

@[simp] theorem Variant.body_map (v : Variant σ) (g : σ → τ) : (v.map g).body = v.body.map g := rfl

theorem Field.mem_kept {fs : List (Field ν σ)} {f : Field ν σ} :
    f ∈ Field.kept fs ↔ f ∈ fs ∧ f.skip = false := by
  simp [Field.kept]

theorem Variant.mem_kept {vs : List (Variant σ)} {v : Variant σ} :
    v ∈ Variant.kept vs ↔ v ∈ vs ∧ v.skip = false := by
  simp [Variant.kept]

namespace Body

/-- The types of the fields that are not skipped. -/
def kept : Body σ → List σ
  | unit => []
  | positional fields => (Field.kept fields).map (·.ty)
  | named _ fields => (Field.kept fields).map (·.ty)

theorem kept_map (b : Body σ) (g : σ → τ) : (b.map g).kept = b.kept.map g := by
  cases b with
  | unit => rfl
  | positional fields =>
    simp only [map, kept, Field.kept_map, List.map_map]
    rfl
  | named tag fields =>
    simp only [map, kept, Field.kept_map, List.map_map]
    rfl

def isPositional : Body σ → Bool
  | positional _ => true
  | _ => false

@[simp] theorem isUnit_map (b : Body σ) (g : σ → τ) : (b.map g).isUnit = b.isUnit := by
  cases b <;> rfl

@[simp] theorem isPositional_map (b : Body σ) (g : σ → τ) :
    (b.map g).isPositional = b.isPositional := by
  cases b <;> rfl

theorem mem_types_of_mem_kept {b : Body σ} {t : σ} (h : t ∈ b.kept) : t ∈ b.types := by
  cases b with
  | unit => exact h
  | positional fields =>
    obtain ⟨f, hf, rfl⟩ := List.mem_map.1 h
    exact List.mem_map.2 ⟨f, (Field.mem_kept.1 hf).1, rfl⟩
  | named tag fields =>
    obtain ⟨f, hf, rfl⟩ := List.mem_map.1 h
    exact List.mem_map.2 ⟨f, (Field.mem_kept.1 hf).1, rfl⟩

end Body

namespace Shape

/-- The children at kept positions. -/
def kept : Shape → List Shape
  | struct _ body => body.kept
  | enum _ variants _ => (Variant.kept variants).flatMap (·.body.kept)
  | s => s.children

theorem mem_children_of_mem_kept {s c : Shape} (h : c ∈ s.kept) : c ∈ s.children := by
  cases s with
  | struct name body => exact Body.mem_types_of_mem_kept h
  | enum name variants tagging =>
    obtain ⟨v, hv, ht⟩ := List.mem_flatMap.1 h
    exact List.mem_flatMap.2 ⟨v, (Variant.mem_kept.1 hv).1, Body.mem_types_of_mem_kept ht⟩
  | _ => exact h

theorem mem_children_enum {name : String} {vs : List (Variant Shape)} {tagging : Option Tagging}
    {v : Variant Shape} {t : Shape} (hv : v ∈ Variant.kept vs) (ht : t ∈ v.body.kept) :
    t ∈ (enum name vs tagging).children := by
  have kept : t ∈ (enum name vs tagging).kept := List.mem_flatMap.2 ⟨v, hv, ht⟩
  exact mem_children_of_mem_kept kept

theorem exists_mem_variant {name : String} {vs : List (Variant Shape)} {tagging : Option Tagging}
    {P : Shape → Prop} (h : ∃ c ∈ (enum name vs tagging).kept, P c) :
    ∃ v ∈ Variant.kept vs, ∃ c ∈ v.body.kept, P c := by
  obtain ⟨c, hc, hp⟩ := h
  obtain ⟨v, hv, hc⟩ := List.mem_flatMap.1 hc
  exact ⟨v, hv, c, hc, hp⟩

theorem kept_mapChildren (s : Shape) (g : Shape → Shape) : (s.mapChildren g).kept = s.kept.map g := by
  cases s with
  | struct name body => exact Body.kept_map body g
  | enum name variants tagging =>
    simp only [mapChildren, kept, Variant.kept_map, List.flatMap_map, List.map_flatMap]
    congr 1
    funext v
    exact Body.kept_map v.body g
  | _ => simp [mapChildren, kept, children]

theorem kept_substitute {s : Shape} (b : Binding) (h : ∀ name, s ≠ placeholder name) :
    (s.substitute b).kept = s.kept.map (substitute b) := by
  rw [substitute_eq_mapChildren b h, kept_mapChildren]

/-! ## Substitution by constructor -/

@[simp] theorem substitute_primitive (b : Binding) (kind : Primitive) :
    (primitive kind).substitute b = primitive kind :=
  substitute_eq_mapChildren b (fun _ => nofun)

@[simp] theorem substitute_literal (b : Binding) (value : Literal) :
    (literal value).substitute b = literal value :=
  substitute_eq_mapChildren b (fun _ => nofun)

@[simp] theorem substitute_foreign (b : Binding) (value : Foreign) :
    (foreign value).substitute b = foreign value :=
  substitute_eq_mapChildren b (fun _ => nofun)

@[simp] theorem substitute_list (b : Binding) (element : Shape) (length : Option Int) (unique : Bool) :
    (list element length unique).substitute b = list (element.substitute b) length unique :=
  substitute_eq_mapChildren b (fun _ => nofun)

@[simp] theorem substitute_map (b : Binding) (key value : Shape) :
    (map key value).substitute b = map (key.substitute b) (value.substitute b) :=
  substitute_eq_mapChildren b (fun _ => nofun)

@[simp] theorem substitute_nullable (b : Binding) (inner : Shape) :
    (nullable inner).substitute b = nullable (inner.substitute b) :=
  substitute_eq_mapChildren b (fun _ => nofun)

@[simp] theorem substitute_tuple (b : Binding) (elements : List Shape) :
    (tuple elements).substitute b = tuple (elements.map (substitute b)) :=
  substitute_eq_mapChildren b (fun _ => nofun)

@[simp] theorem substitute_struct (b : Binding) (name : String) (body : Body Shape) :
    (struct name body).substitute b = struct name (body.map (substitute b)) :=
  substitute_eq_mapChildren b (fun _ => nofun)

@[simp] theorem substitute_enum (b : Binding) (name : String) (variants : List (Variant Shape))
    (tagging : Option Tagging) :
    (enum name variants tagging).substitute b =
      enum name (variants.map (·.map (substitute b))) tagging :=
  substitute_eq_mapChildren b (fun _ => nofun)

@[simp] theorem substitute_reference (b : Binding) (id : TypeId) (arguments : List Shape) :
    (reference id arguments).substitute b = reference id (arguments.map (substitute b)) :=
  substitute_eq_mapChildren b (fun _ => nofun)

/-! ## Shapes at kept positions -/

/-- The first shape holds the second at a kept position, or is the second. -/
inductive Holds : Shape → Shape → Prop
  | here (s : Shape) : Holds s s
  | child {s c t : Shape} : c ∈ s.kept → Holds c t → Holds s t

theorem Holds.trans {s t u : Shape} (h : s.Holds t) (h' : t.Holds u) : s.Holds u := by
  induction h with
  | here s => exact h'
  | child hc _ ih => exact .child hc (ih h')

theorem Holds.of_mem {s c : Shape} (h : c ∈ s.kept) : s.Holds c := .child h (.here c)

theorem holds_placeholder {name : String} {t : Shape} (h : (placeholder name).Holds t) :
    t = placeholder name := by
  cases h with
  | here => rfl
  | child hc _ => cases hc

theorem Holds.substitute {s t : Shape} (b : Binding) (h : s.Holds t) :
    (s.substitute b).Holds (t.substitute b) := by
  induction h with
  | here s => exact .here _
  | @child s c t hc _ ih =>
    have hs : ∀ name, s ≠ placeholder name := by
      rintro name rfl
      cases hc
    refine .child ?_ ih
    rw [kept_substitute b hs]
    exact List.mem_map.2 ⟨c, hc, rfl⟩

/-- What a shape holds after a substitution it held before, up to the children, or it lies in a shape that
a parameter was bound to. -/
theorem Holds.of_substitute {b : Binding} {s x : Shape} (h : (s.substitute b).Holds x) :
    (∃ y, s.Holds y ∧ x = y.mapChildren (Shape.substitute b)) ∨
      ∃ name a, s.Holds (placeholder name) ∧ b name = some a ∧ a.Holds x := by
  induction s using childInduction with
  | step s ih =>
    by_cases hs : ∃ name, s = placeholder name
    · obtain ⟨name, rfl⟩ := hs
      rw [substitute_placeholder] at h
      cases hb : b name with
      | none =>
        rw [hb, Option.getD_none] at h
        exact Or.inl ⟨placeholder name, .here _, holds_placeholder h⟩
      | some a =>
        rw [hb, Option.getD_some] at h
        exact Or.inr ⟨name, a, .here _, hb, h⟩
    · have hs' : ∀ name, s ≠ placeholder name := fun name e => hs ⟨name, e⟩
      cases h with
      | here => exact Or.inl ⟨s, .here s, substitute_eq_mapChildren b hs'⟩
      | @child _ d _ hd hx =>
        rw [kept_substitute b hs'] at hd
        obtain ⟨c, hc, rfl⟩ := List.mem_map.1 hd
        rcases ih c (mem_children_of_mem_kept hc) hx with ⟨y, hy, ht⟩ | ⟨name, a, hn, ht⟩
        · exact Or.inl ⟨y, .child hc hy, ht⟩
        · exact Or.inr ⟨name, a, .child hc hn, ht⟩

end Shape

/-! ## Replacing one kept child -/

/-- The second body is the first with one kept field's type replaced. -/
inductive Body.Replaces (t t' : σ) : Body σ → Body σ → Prop
  | positional {l r : List (Field (Option String) σ)} {f : Field (Option String) σ} :
      f.skip = false → f.ty = t →
      Replaces t t' (.positional (l ++ f :: r)) (.positional (l ++ f.withType t' :: r))
  | named {tag : Option String} {l r : List (Field String σ)} {f : Field String σ} :
      f.skip = false → f.ty = t →
      Replaces t t' (.named tag (l ++ f :: r)) (.named tag (l ++ f.withType t' :: r))

theorem Field.kept_append_cons {l r : List (Field ν σ)} {f : Field ν σ} (h : f.skip = false) :
    Field.kept (l ++ f :: r) = Field.kept l ++ f :: Field.kept r := by
  simp [Field.kept, h]

theorem Variant.kept_append_cons {l r : List (Variant σ)} {v : Variant σ} (h : v.skip = false) :
    Variant.kept (l ++ v :: r) = Variant.kept l ++ v :: Variant.kept r := by
  simp [Variant.kept, h]

/-- With a new body for one variant, the kept variants are the ones from before and that one. -/
theorem Variant.mem_kept_replace {l r : List (Variant σ)} {v w : Variant σ} {b : Body σ}
    (hv : v.skip = false) (h : w ∈ Variant.kept (l ++ v.withBody b :: r)) :
    w ∈ Variant.kept (l ++ v :: r) ∨ w = v.withBody b ∧ v ∈ Variant.kept (l ++ v :: r) := by
  rw [kept_append_cons (v := v.withBody b) hv, List.mem_append, List.mem_cons] at h
  rw [kept_append_cons hv]
  rcases h with h | rfl | h
  · exact Or.inl (List.mem_append_left _ h)
  · exact Or.inr ⟨rfl, List.mem_append_right _ List.mem_cons_self⟩
  · exact Or.inl (List.mem_append_right _ (List.mem_cons_of_mem _ h))

theorem Body.Replaces.kept {t t' : σ} {b b' : Body σ} (h : b.Replaces t t' b') :
    ∃ l r, b.kept = l ++ t :: r ∧ b'.kept = l ++ t' :: r := by
  cases h with
  | @positional l r f hf ht =>
    refine ⟨(Field.kept l).map (·.ty), (Field.kept r).map (·.ty), ?_, ?_⟩
    · simp [Body.kept, Field.kept_append_cons hf, ht]
    · rw [Body.kept, Field.kept_append_cons (f := f.withType t') hf, List.map_append]
      rfl
  | @named tag l r f hf ht =>
    refine ⟨(Field.kept l).map (·.ty), (Field.kept r).map (·.ty), ?_, ?_⟩
    · simp [Body.kept, Field.kept_append_cons hf, ht]
    · rw [Body.kept, Field.kept_append_cons (f := f.withType t') hf, List.map_append]
      rfl

theorem Body.Replaces.isUnit {t t' : σ} {b b' : Body σ} (h : b.Replaces t t' b') :
    b'.isUnit = b.isUnit := by
  cases h <;> rfl

theorem Body.Replaces.isPositional {t t' : σ} {b b' : Body σ} (h : b.Replaces t t' b') :
    b'.isPositional = b.isPositional := by
  cases h <;> rfl

/-- Any kept type can be replaced. -/
theorem Body.exists_replaces {b : Body σ} {t : σ} (h : t ∈ b.kept) (t' : σ) :
    ∃ b', b.Replaces t t' b' := by
  cases b with
  | unit => cases h
  | positional fields =>
    obtain ⟨f, hf, rfl⟩ := List.mem_map.1 h
    obtain ⟨hm, hs⟩ := Field.mem_kept.1 hf
    obtain ⟨l, r, rfl⟩ := List.append_of_mem hm
    exact ⟨_, .positional hs rfl⟩
  | named tag fields =>
    obtain ⟨f, hf, rfl⟩ := List.mem_map.1 h
    obtain ⟨hm, hs⟩ := Field.mem_kept.1 hf
    obtain ⟨l, r, rfl⟩ := List.append_of_mem hm
    exact ⟨_, .named hs rfl⟩

namespace Shape

/-- The second shape is the first with one kept child `c` replaced by `c'`. -/
inductive Replaces (c c' : Shape) : Shape → Shape → Prop
  | element {length : Option Int} {unique : Bool} :
      Replaces c c' (.list c length unique) (.list c' length unique)
  | key {value : Shape} : Replaces c c' (.map c value) (.map c' value)
  | value {key : Shape} : Replaces c c' (.map key c) (.map key c')
  | inner : Replaces c c' (.nullable c) (.nullable c')
  | item {l r : List Shape} : Replaces c c' (.tuple (l ++ c :: r)) (.tuple (l ++ c' :: r))
  | argument {id : TypeId} {l r : List Shape} :
      Replaces c c' (.reference id (l ++ c :: r)) (.reference id (l ++ c' :: r))
  | field {name : String} {b b' : Body Shape} :
      b.Replaces c c' b' → Replaces c c' (.struct name b) (.struct name b')
  | variant {name : String} {tagging : Option Tagging} {l r : List (Variant Shape)}
      {v : Variant Shape} {b : Body Shape} : v.skip = false → v.body.Replaces c c' b →
      Replaces c c' (.enum name (l ++ v :: r) tagging) (.enum name (l ++ v.withBody b :: r) tagging)

theorem Replaces.kept {c c' s s' : Shape} (h : Replaces c c' s s') :
    ∃ l r, s.kept = l ++ c :: r ∧ s'.kept = l ++ c' :: r := by
  cases h with
  | element => exact ⟨[], [], rfl, rfl⟩
  | @key value => exact ⟨[], [value], rfl, rfl⟩
  | @value key => exact ⟨[key], [], rfl, rfl⟩
  | inner => exact ⟨[], [], rfl, rfl⟩
  | @item l r => exact ⟨l, r, rfl, rfl⟩
  | @argument id l r => exact ⟨l, r, rfl, rfl⟩
  | field hb => exact hb.kept
  | @variant name tagging l r v b hv hb =>
    obtain ⟨m, n, h, h'⟩ := hb.kept
    refine ⟨(Variant.kept l).flatMap (·.body.kept) ++ m, n ++ (Variant.kept r).flatMap (·.body.kept),
      ?_, ?_⟩
    · simp [Shape.kept, Variant.kept_append_cons hv, h]
    · rw [Shape.kept, Variant.kept_append_cons (v := v.withBody b) hv, List.flatMap_append,
        List.flatMap_cons, show (v.withBody b).body.kept = m ++ c' :: n from h']
      simp

theorem Replaces.mem {c c' s s' : Shape} (h : Replaces c c' s s') : c ∈ s.kept ∧ c' ∈ s'.kept := by
  obtain ⟨l, r, e, e'⟩ := h.kept
  rw [e, e']
  exact ⟨List.mem_append_right _ List.mem_cons_self, List.mem_append_right _ List.mem_cons_self⟩

/-- The kept children are the ones from before and the new one. -/
theorem Replaces.mem_or {c c' s s' d : Shape} (h : Replaces c c' s s') (hd : d ∈ s'.kept) :
    d = c' ∨ d ∈ s.kept := by
  obtain ⟨l, r, e, e'⟩ := h.kept
  rw [e'] at hd
  rw [e]
  rcases List.mem_append.1 hd with hd | hd
  · exact Or.inr (List.mem_append_left _ hd)
  · rcases List.mem_cons.1 hd with rfl | hd
    · exact Or.inl rfl
    · exact Or.inr (List.mem_append_right _ (List.mem_cons_of_mem _ hd))

/-- Any kept child can be replaced. -/
theorem exists_replaces {s c : Shape} (h : c ∈ s.kept) (c' : Shape) : ∃ s', Replaces c c' s s' := by
  cases s with
  | primitive | literal | foreign | placeholder => cases h
  | list element length unique =>
    rw [List.mem_singleton.1 h]
    exact ⟨_, .element⟩
  | nullable inner =>
    rw [List.mem_singleton.1 h]
    exact ⟨_, .inner⟩
  | map key value =>
    simp only [kept, children, List.mem_cons, List.not_mem_nil, or_false] at h
    rcases h with rfl | rfl
    · exact ⟨_, .key⟩
    · exact ⟨_, .value⟩
  | tuple elements =>
    obtain ⟨l, r, rfl⟩ := List.append_of_mem (show c ∈ elements from h)
    exact ⟨_, .item⟩
  | reference id arguments =>
    obtain ⟨l, r, rfl⟩ := List.append_of_mem (show c ∈ arguments from h)
    exact ⟨_, .argument⟩
  | struct name body =>
    obtain ⟨b, hb⟩ := Body.exists_replaces h c'
    exact ⟨_, .field hb⟩
  | enum name variants tagging =>
    obtain ⟨v, hv, ht⟩ := List.mem_flatMap.1 h
    obtain ⟨hm, hs⟩ := Variant.mem_kept.1 hv
    obtain ⟨l, r, rfl⟩ := List.append_of_mem hm
    obtain ⟨b, hb⟩ := Body.exists_replaces ht c'
    exact ⟨_, .variant hs hb⟩

end Shape

end ShapeExport
