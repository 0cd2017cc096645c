import ShapeExport.Proofs.Outcome
import ShapeExport.Proofs.Scope.Unfolding
import ShapeExport.Validation.MapKey
import ShapeExport.Shape.References

/-!
# Shapes that are map keys

* `Scope.IsKey` : the check takes a shape for a key;
* `Scope.isKey_enum`, `Scope.isKey_reference` and the like : the check by constructor;
* `Scope.IsKey.mono` : with fewer records on the way the check accepts more;
* `Scope.IsKey.substitute` : the check does not tell shapes apart whose parameters are bound to shapes
  that it does not tell apart;
* `Scope.IsKey.unfolds` : a key is still a key when a reference in it is unfolded.
-/

namespace ShapeExport

/-- Whether a body is a key: a unit by its constant, and an untagged positional body by its only field, for which `key`
answers. -/
def Body.isMapKey (untagged : Bool) (key : Shape → Except Error Bool) : Body Shape → Except Error Bool
  | .unit => .ok true
  | .named .. => .ok false
  | .positional fields =>
    if !untagged then .ok false
    else match Field.kept fields with
      | [] => .ok true
      | [f] => key f.ty
      | _ => .ok false

namespace Scope

variable {scope : Scope} {free : Bool} {seen : List TypeKey}

/-- The check takes the shape for a key, where `seen` holds the records on the way. -/
def IsKey (scope : Scope) (free : Bool) (seen : List TypeKey) (s : Shape) : Prop :=
  scope.isMapKey free seen s = .ok true

/-! ## The check by constructor -/

theorem isKey_primitive {kind : Primitive} :
    scope.IsKey free seen (.primitive kind) ↔ (kind.isNumber || kind.isStringLike) := by
  unfold IsKey
  rw [isMapKey]
  simp

theorem isKey_literal {value : Literal} : scope.IsKey free seen (.literal value) ↔ value.isKey := by
  unfold IsKey
  rw [isMapKey]
  simp

theorem isKey_nullable {inner : Shape} :
    scope.IsKey free seen (.nullable inner) ↔ scope.IsKey free seen inner := by
  unfold IsKey
  rw [isMapKey]

theorem isKey_stripNullable {s : Shape} :
    scope.IsKey free seen s.stripNullable ↔ scope.IsKey free seen s := by
  fun_induction Shape.stripNullable s with
  | case1 inner ih => rw [ih, isKey_nullable]
  | case2 => exact Iff.rfl

theorem isKey_placeholder {name : String} :
    scope.IsKey free seen (.placeholder name) ↔ free = true := by
  unfold IsKey
  rw [isMapKey]
  simp

theorem isKey_foreign {value : Foreign} : scope.IsKey free seen (.foreign value) := by
  unfold IsKey
  rw [isMapKey]

theorem not_isKey_list {element : Shape} {length : Option Int} {unique : Bool} :
    ¬ scope.IsKey free seen (.list element length unique) := by
  unfold IsKey
  rw [isMapKey]
  simp

theorem not_isKey_map {key value : Shape} : ¬ scope.IsKey free seen (.map key value) := by
  unfold IsKey
  rw [isMapKey]
  simp

theorem not_isKey_tuple {elements : List Shape} : ¬ scope.IsKey free seen (.tuple elements) := by
  unfold IsKey
  rw [isMapKey]
  simp

theorem not_isKey_struct {name : String} {body : Body Shape} :
    ¬ scope.IsKey free seen (.struct name body) := by
  unfold IsKey
  rw [isMapKey]
  simp

theorem isKey_reference {id : TypeId} {arguments : List Shape} :
    scope.IsKey free seen (.reference id arguments) ↔ id.key ∉ seen ∧
      ∃ r, scope.types.resolve id.key = some r ∧
        scope.IsKey free (id.key :: seen) (r.expand arguments) := by
  unfold IsKey
  rw [isMapKey]
  split
  · next h => simp [h]
  · next h =>
    split
    · next hr => simp [hr]
    · next r hr => simp [h, hr]

/-- A reference is a key as the body of its record is. -/
theorem isKey_reference_of_resolve {id : TypeId} {arguments : List Shape} {r : Record}
    (hr : scope.types.resolve id.key = some r) : scope.IsKey free seen (.reference id arguments) ↔
      id.key ∉ seen ∧ scope.IsKey free (id.key :: seen) (r.expand arguments) := by
  rw [isKey_reference, hr]
  simp only [Option.some.injEq, exists_eq_left']

/-- A unit is a key. A variant of an untagged enum is one if it keeps one positional key at most. -/
def IsKeyBody (scope : Scope) (free : Bool) (seen : List TypeKey) (untagged : Bool)
    (b : Body Shape) : Prop :=
  b.isUnit ∨ untagged ∧ b.isPositional ∧ b.kept.length ≤ 1 ∧ ∀ t ∈ b.kept, scope.IsKey free seen t

theorem isKeyBody_unit {untagged : Bool} : scope.IsKeyBody free seen untagged .unit :=
  Or.inl rfl

theorem not_isKeyBody_named {untagged : Bool} {tag : Option String}
    {fields : List (Field String Shape)} : ¬ scope.IsKeyBody free seen untagged (.named tag fields) := by
  simp [IsKeyBody, Body.isUnit, Body.isPositional]

theorem isKeyBody_positional {untagged : Bool} {fields : List (Field (Option String) Shape)} :
    scope.IsKeyBody free seen untagged (.positional fields) ↔ untagged ∧
      (Field.kept fields).length ≤ 1 ∧ ∀ f ∈ Field.kept fields, scope.IsKey free seen f.ty := by
  simp [IsKeyBody, Body.isUnit, Body.isPositional, Body.kept]

theorem areMapKeys_eq_allM {untagged : Bool} (vs : List (Variant Shape)) : scope.areMapKeys free seen untagged vs =
    (Variant.kept vs).allM fun v => v.body.isMapKey untagged (scope.isMapKey free seen) := by
  refine eq_allM_filter (by rw [areMapKeys]) (fun v vs => ?_) vs
  rw [areMapKeys]
  by_cases hv : v.skip
  · rw [if_pos hv, if_pos hv]
  · rw [if_neg hv, if_neg hv]
    split
    · next hb => rw [hb]; rfl
    · next hb => rw [hb]; rfl
    · next fields hb =>
      rw [hb, Body.isMapKey]
      split
      · rfl
      · split
        · next hf => rw [hf]; rfl
        · next hf => rw [hf]; rfl
        · next h0 h1 =>
          split
          · next h => exact absurd h h0
          · next f h => exact absurd h (h1 f)
          · rfl

theorem isMapKey_body_eq_true {untagged : Bool} {b : Body Shape} :
    b.isMapKey untagged (scope.isMapKey free seen) = .ok true ↔ scope.IsKeyBody free seen untagged b := by
  cases b with
  | unit => exact iff_of_true rfl isKeyBody_unit
  | named tag fields => simp [Body.isMapKey, not_isKeyBody_named]
  | positional fields =>
    rw [isKeyBody_positional, Body.isMapKey]
    split
    · next hu => simp_all
    · next hu =>
      rw [and_iff_right (by simpa using hu)]
      split
      · next hf => simp [hf]
      · next f hf => simp [hf, IsKey]
      · next h0 h1 => simp [not_length_le_one h0 h1]

theorem areMapKeys_eq_true {untagged : Bool} {vs : List (Variant Shape)} :
    scope.areMapKeys free seen untagged vs = .ok true ↔
      ∀ v ∈ Variant.kept vs, scope.IsKeyBody free seen untagged v.body := by
  rw [areMapKeys_eq_allM, allM_eq_true]
  exact forall₂_congr fun v _ => isMapKey_body_eq_true

theorem isKey_enum {name : String} {variants : List (Variant Shape)} {tagging : Option Tagging} :
    scope.IsKey free seen (.enum name variants tagging) ↔ ∀ v ∈ Variant.kept variants,
      scope.IsKeyBody free seen (scope.overrides.effective name tagging).isUntagged v.body := by
  unfold IsKey
  rw [isMapKey, areMapKeys_eq_true]

/-! ## Fewer records on the way -/

theorem IsKeyBody.imp {seen' : List TypeKey} {untagged : Bool} {b : Body Shape}
    (h : ∀ t ∈ b.kept, scope.IsKey free seen t → scope.IsKey free seen' t)
    (hb : scope.IsKeyBody free seen untagged b) : scope.IsKeyBody free seen' untagged b := by
  rcases hb with hb | ⟨hu, hp, hl, hk⟩
  · exact Or.inl hb
  · exact Or.inr ⟨hu, hp, hl, fun t ht => h t ht (hk t ht)⟩

theorem IsKey.mono {s : Shape} {seen' : List TypeKey} (hs : seen' ⊆ seen)
    (h : scope.IsKey free seen s) : scope.IsKey free seen' s := by
  induction seen', s using Collection.followInduction (c := scope.types) generalizing seen with
  | step seen' s ih it =>
    cases s with
    | primitive kind => exact isKey_primitive.2 (isKey_primitive.1 h)
    | literal value => exact isKey_literal.2 (isKey_literal.1 h)
    | placeholder name => exact isKey_placeholder.2 (isKey_placeholder.1 h)
    | foreign value => exact isKey_foreign
    | list => exact absurd h not_isKey_list
    | map => exact absurd h not_isKey_map
    | tuple => exact absurd h not_isKey_tuple
    | struct => exact absurd h not_isKey_struct
    | nullable inner => exact isKey_nullable.2 (ih inner List.mem_cons_self hs (isKey_nullable.1 h))
    | enum name variants tagging =>
      refine isKey_enum.2 fun v hv => (isKey_enum.1 h v hv).imp fun t ht => ?_
      exact ih t (Shape.mem_children_enum hv ht) hs
    | reference id arguments =>
      obtain ⟨hn, r, hr, hk⟩ := isKey_reference.1 h
      have hn' : id.key ∉ seen' := fun hm => hn (hs hm)
      exact isKey_reference.2 ⟨hn', r, hr, it id arguments r rfl hn' hr (List.cons_subset_cons _ hs) hk⟩

/-! ## Substitution -/

theorem IsKeyBody.map {untagged : Bool} {b : Body Shape} {g g' : Shape → Shape}
    (h : ∀ t ∈ b.kept, scope.IsKey free seen (g t) → scope.IsKey free seen (g' t))
    (hb : scope.IsKeyBody free seen untagged (b.map g)) :
    scope.IsKeyBody free seen untagged (b.map g') := by
  unfold IsKeyBody at hb ⊢
  rw [Body.isUnit_map, Body.isPositional_map, Body.kept_map, List.length_map, List.forall_mem_map] at hb ⊢
  rcases hb with hb | ⟨hu, hp, hl, hk⟩
  · exact Or.inl hb
  · exact Or.inr ⟨hu, hp, hl, fun t ht => h t ht (hk t ht)⟩

/-- Below a bound on the records that are left, a key is still a key when its parameters are bound to
other shapes. Arguments of a reference are such shapes for the body of its record, where one record less
is left. -/
theorem IsKey.substitute_of_unseen_lt (n : Nat) {b b' : Binding}
    (hb : ∀ name seen, scope.types.unseen seen < n →
      scope.IsKey free seen ((Shape.placeholder name).substitute b) →
      scope.IsKey free seen ((Shape.placeholder name).substitute b'))
    {s : Shape} (hn : scope.types.unseen seen < n) (h : scope.IsKey free seen (s.substitute b)) :
    scope.IsKey free seen (s.substitute b') := by
  induction n generalizing b b' s seen with
  | zero => exact absurd hn (Nat.not_lt_zero _)
  | succ n ih =>
    induction s using Shape.childInduction with
    | step s is =>
      cases s with
      | placeholder name => exact hb name seen hn h
      | primitive | literal | foreign => simpa using h
      | list => exact absurd (by simpa using h) not_isKey_list
      | map => exact absurd (by simpa using h) not_isKey_map
      | tuple => exact absurd (by simpa using h) not_isKey_tuple
      | struct => exact absurd (by simpa using h) not_isKey_struct
      | nullable inner =>
        rw [Shape.substitute_nullable, isKey_nullable] at h ⊢
        exact is inner List.mem_cons_self h
      | enum name variants tagging =>
        rw [Shape.substitute_enum, isKey_enum, Variant.kept_map, List.forall_mem_map] at h ⊢
        intro v hv
        exact (h v hv).map fun t ht => is t (Shape.mem_children_enum hv ht)
      | reference id arguments =>
        rw [Shape.substitute_reference, isKey_reference] at h ⊢
        obtain ⟨hs, r, hr, hk⟩ := h
        have hlt : scope.types.unseen (id.key :: seen) < n := by
          have := Collection.unseen_cons_lt hr hs
          omega
        refine ⟨hs, r, hr, ?_⟩
        rw [Record.expand_map] at hk ⊢
        refine ih ?_ hlt hk
        intro name seen' hn' ha
        rw [Shape.substitute_placeholder] at ha ⊢
        cases hx : Binding.ofLists r.parameters arguments name with
        | none => simpa [hx] using ha
        | some a =>
          simp only [hx, Option.map_some, Option.getD_some] at ha ⊢
          exact ih (fun name seen'' hl => hb name seen'' (by omega)) hn' ha

/-- A key is still a key when its parameters are bound to other shapes that the check takes for keys
where it took the former ones. -/
theorem IsKey.substitute {b b' : Binding} (hb : ∀ name seen,
      scope.IsKey free seen ((Shape.placeholder name).substitute b) →
      scope.IsKey free seen ((Shape.placeholder name).substitute b'))
    {s : Shape} (h : scope.IsKey free seen (s.substitute b)) :
    scope.IsKey free seen (s.substitute b') :=
  h.substitute_of_unseen_lt _ (fun name seen' _ => hb name seen') (Nat.lt_succ_self _)

/-- A key that needs no parameter to be taken for one is a key whatever its parameters are bound to. -/
theorem IsKey.settled {s : Shape} (b : Binding) (h : scope.IsKey false seen s) :
    scope.IsKey false seen (s.substitute b) := by
  rw [← s.substitute_none] at h
  refine h.substitute fun name seen' hp => ?_
  rw [Shape.substitute_none, isKey_placeholder] at hp
  cases hp

/-- The body of a record is a key as it stands if it is one for some arguments. -/
theorem IsKey.of_expand {r : Record} {arguments : List Shape} (h : scope.IsKey true seen (r.expand arguments)) :
    scope.IsKey true seen r.shape := by
  have alone : scope.IsKey true seen (r.shape.substitute fun _ => none) :=
    IsKey.substitute (fun _ _ _ => by rw [Shape.substitute_none]; exact isKey_placeholder.2 rfl) h
  rwa [Shape.substitute_none] at alone

/-! ## Unfolding -/

theorem IsKeyBody.replaces {untagged : Bool} {c c' : Shape} {b b' : Body Shape}
    (hr : b.Replaces c c' b') (h : scope.IsKey free seen c → scope.IsKey free seen c')
    (hb : scope.IsKeyBody free seen untagged b) : scope.IsKeyBody free seen untagged b' := by
  obtain ⟨l, r, e, e'⟩ := hr.kept
  unfold IsKeyBody at hb ⊢
  rw [hr.isUnit, hr.isPositional, e']
  rw [e] at hb
  simp only [List.length_append, List.length_cons, List.forall_mem_append, List.forall_mem_cons] at hb ⊢
  rcases hb with hb | ⟨hu, hp, hl, hkl, hk, hkr⟩
  · exact Or.inl hb
  · exact Or.inr ⟨hu, hp, hl, hkl, h hk, hkr⟩

theorem IsKey.unfolds {s s' : Shape} (hu : scope.Unfolds s s') (h : scope.IsKey free seen s) :
    scope.IsKey free seen s' := by
  induction hu generalizing seen with
  | @target id arguments r hr =>
    exact ((isKey_reference_of_resolve hr).1 h).2.mono (List.subset_cons_self _ _)
  | @inside c c' s s' hu hr ih =>
    cases hr with
    | element => exact absurd h not_isKey_list
    | key => exact absurd h not_isKey_map
    | value => exact absurd h not_isKey_map
    | item => exact absurd h not_isKey_tuple
    | field => exact absurd h not_isKey_struct
    | inner => exact isKey_nullable.2 (ih (isKey_nullable.1 h))
    | @argument id l r =>
      obtain ⟨hs, t, ht, hk⟩ := isKey_reference.1 h
      refine isKey_reference.2 ⟨hs, t, ht, hk.substitute fun name seen' ha => ?_⟩
      exact Binding.placeholder_replace ih t.parameters l r ha
    | @variant name tagging l r v b hv hb =>
      rw [isKey_enum] at h ⊢
      rw [Variant.kept_append_cons hv, List.forall_mem_append, List.forall_mem_cons] at h
      rw [Variant.kept_append_cons (v := v.withBody b) hv, List.forall_mem_append, List.forall_mem_cons]
      exact ⟨h.1, h.2.1.replaces hb ih, h.2.2⟩

end Scope

end ShapeExport
