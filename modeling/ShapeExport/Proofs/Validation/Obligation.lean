import ShapeExport.Proofs.Shape.Position
import ShapeExport.Validation.Obligation

/-!
# Obligations of a body

What the walk of validation through a body leaves to do is said once here. Whether the walk passes, what it fails with
and where are read off from that.

* `Body.Labels`, `Shape.Labels` : one step to a kept child, with the labels that error paths have for it;
* `Scope.argumentObligations_eq_flatMap` and the like : a list is walked item by item;
* `Scope.Owes` : the obligations at a shape itself;
* `Scope.mem_obligations` : what is left to do is owed at the shape itself, or left by the walk through a kept child.
-/

namespace ShapeExport

/-! ## Steps to kept children -/

namespace Body

/-- A kept field has the label: its name, or else its position. -/
inductive Labels : Body Shape → String → Shape → Prop
  | positional {fields : List (Field (Option String) Shape)} {i : Nat} {f : Field (Option String) Shape} :
      fields[i]? = some f → f.skip = false → Labels (.positional fields) (f.name.getD (toString i)) f.ty
  | named {tag : Option String} {fields : List (Field String Shape)} {f : Field String Shape} :
      f ∈ fields → f.skip = false → Labels (.named tag fields) f.name f.ty

theorem Labels.mem_kept {b : Body Shape} {label : String} {t : Shape} (h : b.Labels label t) : t ∈ b.kept := by
  cases h with
  | positional hi hs => exact List.mem_map.2 ⟨_, Field.mem_kept.2 ⟨List.mem_of_getElem? hi, hs⟩, rfl⟩
  | named hm hs => exact List.mem_map.2 ⟨_, Field.mem_kept.2 ⟨hm, hs⟩, rfl⟩

theorem exists_labels {b : Body Shape} {t : Shape} (h : t ∈ b.kept) : ∃ label, b.Labels label t := by
  cases b with
  | unit => cases h
  | positional fields =>
    obtain ⟨f, hf, rfl⟩ := List.mem_map.1 h
    obtain ⟨hm, hs⟩ := Field.mem_kept.1 hf
    obtain ⟨i, hi⟩ := List.mem_iff_getElem?.1 hm
    exact ⟨_, .positional hi hs⟩
  | named tag fields =>
    obtain ⟨f, hf, rfl⟩ := List.mem_map.1 h
    obtain ⟨hm, hs⟩ := Field.mem_kept.1 hf
    exact ⟨_, .named hm hs⟩

/-- The single field of a positional body is skipped. -/
def losesOnlyField {σ : Type} : Body σ → Bool
  | positional [f] => f.skip
  | _ => false

end Body

namespace Shape

/-- One step to a kept child. Elements, fields and variants have labels, all else has none. -/
inductive Labels : Shape → Path → Shape → Prop
  | element {element : Shape} {length : Option Int} {unique : Bool} : Labels (.list element length unique) [] element
  | key {key value : Shape} : Labels (.map key value) [] key
  | value {key value : Shape} : Labels (.map key value) [] value
  | inner {inner : Shape} : Labels (.nullable inner) [] inner
  | item {elements : List Shape} {i : Nat} {t : Shape} : elements[i]? = some t →
      Labels (.tuple elements) [toString i] t
  | argument {id : TypeId} {arguments : List Shape} {a : Shape} : a ∈ arguments →
      Labels (.reference id arguments) [] a
  | field {name label : String} {body : Body Shape} {t : Shape} : body.Labels label t →
      Labels (.struct name body) [label] t
  | payload {name label : String} {vs : List (Variant Shape)} {tagging : Option Tagging} {v : Variant Shape}
      {t : Shape} : v ∈ Variant.kept vs → v.body.Labels label t → Labels (.enum name vs tagging) [v.name, label] t

theorem Labels.mem_kept {s t : Shape} {front : Path} (h : s.Labels front t) : t ∈ s.kept := by
  cases h with
  | element | key | inner => exact List.mem_cons_self
  | value => exact List.mem_cons_of_mem _ List.mem_cons_self
  | item hi => exact List.mem_of_getElem? hi
  | argument hm => exact hm
  | field hb => exact hb.mem_kept
  | payload hv hb => exact List.mem_flatMap.2 ⟨_, hv, hb.mem_kept⟩

theorem exists_labels {s t : Shape} (h : t ∈ s.kept) : ∃ front, s.Labels front t := by
  cases s with
  | primitive | literal | foreign | placeholder => cases h
  | list element =>
    obtain rfl := List.mem_singleton.1 h
    exact ⟨_, .element⟩
  | nullable inner =>
    obtain rfl := List.mem_singleton.1 h
    exact ⟨_, .inner⟩
  | map key value =>
    rcases List.mem_cons.1 h with rfl | h
    · exact ⟨_, .key⟩
    · obtain rfl := List.mem_singleton.1 h
      exact ⟨_, .value⟩
  | tuple elements =>
    obtain ⟨i, hi⟩ := List.mem_iff_getElem?.1 h
    exact ⟨_, .item hi⟩
  | struct name body =>
    obtain ⟨label, hl⟩ := Body.exists_labels h
    exact ⟨_, .field hl⟩
  | enum name vs tagging =>
    obtain ⟨v, hv, ht⟩ := List.mem_flatMap.1 h
    obtain ⟨label, hl⟩ := Body.exists_labels ht
    exact ⟨_, .payload hv hl⟩
  | reference id arguments => exact ⟨_, .argument h⟩

end Shape

namespace Scope

variable {scope : Scope}

/-! ## Lists -/

section Lists

variable (scope) (path : Path)

theorem argumentObligations_eq_flatMap (ss : List Shape) :
    scope.argumentObligations path ss = ss.flatMap (scope.obligations path) := by
  induction ss with
  | nil => rw [argumentObligations]; rfl
  | cons s ss ih => rw [argumentObligations, List.flatMap_cons, ih]

theorem elementObligations_eq_flatMap (i : Nat) (ss : List Shape) : scope.elementObligations path i ss =
    (ss.zipIdx i).flatMap fun s => scope.obligations (path ++ [toString s.2]) s.1 := by
  induction ss generalizing i with
  | nil => rw [elementObligations]; rfl
  | cons s ss ih => rw [elementObligations, List.zipIdx_cons, List.flatMap_cons, ih]

/-- Fields that are skipped count for the positions of those behind them. -/
theorem positionalObligations_eq_flatMap (i : Nat) (fs : List (Field (Option String) Shape)) :
    scope.positionalObligations path i fs = (fs.zipIdx i).flatMap fun f =>
      if f.1.skip then [] else scope.obligations (path ++ [f.1.name.getD (toString f.2)]) f.1.ty := by
  induction fs generalizing i with
  | nil => rw [positionalObligations]; rfl
  | cons f fs ih => rw [positionalObligations, List.zipIdx_cons, List.flatMap_cons, ih]

theorem namedObligations_eq_flatMap (fs : List (Field String Shape)) : scope.namedObligations path fs =
    fs.flatMap fun f => if f.skip then [] else scope.obligations (path ++ [f.name]) f.ty := by
  induction fs with
  | nil => rw [namedObligations]; rfl
  | cons f fs ih => rw [namedObligations, List.flatMap_cons, ih]

theorem variantObligations_eq_flatMap (vs : List (Variant Shape)) : scope.variantObligations path vs =
    vs.flatMap fun v => if v.skip then [] else scope.bodyObligations (path ++ [v.name]) v.body := by
  induction vs with
  | nil => rw [variantObligations]; rfl
  | cons v vs ih => rw [variantObligations, List.flatMap_cons, ih]

end Lists

variable {path : Path} {o : Obligation scope.types}

theorem mem_elementObligations {ss : List Shape} : o ∈ scope.elementObligations path 0 ss ↔
    ∃ (i : Nat) (s : Shape), ss[i]? = some s ∧ o ∈ scope.obligations (path ++ [toString i]) s := by
  rw [elementObligations_eq_flatMap, List.mem_flatMap]
  constructor
  · rintro ⟨⟨s, i⟩, hs, ho⟩
    exact ⟨i, s, List.mem_zipIdx_iff_getElem?.1 hs, ho⟩
  · rintro ⟨i, s, hs, ho⟩
    exact ⟨(s, i), List.mem_zipIdx_iff_getElem?.2 hs, ho⟩

theorem mem_positionalObligations {fs : List (Field (Option String) Shape)} :
    o ∈ scope.positionalObligations path 0 fs ↔ ∃ label t, (Body.positional fs).Labels label t ∧
      o ∈ scope.obligations (path ++ [label]) t := by
  rw [positionalObligations_eq_flatMap, List.mem_flatMap]
  constructor
  · rintro ⟨⟨f, i⟩, hf, ho⟩
    rw [List.mem_ite_nil_left, Bool.not_eq_true] at ho
    exact ⟨_, f.ty, .positional (List.mem_zipIdx_iff_getElem?.1 hf) ho.1, ho.2⟩
  · rintro ⟨_, _, hl, ho⟩
    cases hl with
    | @positional _ i f hf hs =>
      refine ⟨(f, i), List.mem_zipIdx_iff_getElem?.2 hf, ?_⟩
      rw [List.mem_ite_nil_left, Bool.not_eq_true]
      exact ⟨hs, ho⟩

theorem mem_namedObligations {fs : List (Field String Shape)} (tag : Option String) :
    o ∈ scope.namedObligations path fs ↔ ∃ label t, (Body.named tag fs).Labels label t ∧
      o ∈ scope.obligations (path ++ [label]) t := by
  rw [namedObligations_eq_flatMap, List.mem_flatMap]
  constructor
  · rintro ⟨f, hf, ho⟩
    rw [List.mem_ite_nil_left, Bool.not_eq_true] at ho
    exact ⟨_, f.ty, .named hf ho.1, ho.2⟩
  · rintro ⟨_, _, hl, ho⟩
    cases hl with
    | @named _ _ f hf hs =>
      refine ⟨f, hf, ?_⟩
      rw [List.mem_ite_nil_left, Bool.not_eq_true]
      exact ⟨hs, ho⟩

theorem mem_variantObligations {vs : List (Variant Shape)} : o ∈ scope.variantObligations path vs ↔
    ∃ v ∈ Variant.kept vs, o ∈ scope.bodyObligations (path ++ [v.name]) v.body := by
  rw [variantObligations_eq_flatMap, List.mem_flatMap]
  refine exists_congr fun v => ?_
  rw [List.mem_ite_nil_left, Bool.not_eq_true, Variant.mem_kept, and_assoc]

/-! ## The walk -/

/-- The walk through a body stumbles over its only field, or goes on into a kept one. -/
theorem mem_bodyObligations {b : Body Shape} : o ∈ scope.bodyObligations path b ↔
    (b.losesOnlyField ∧ o = .fail (.invalidSkip (path ++ ["0"]) .onlyPositionalField)) ∨
      ∃ label t, b.Labels label t ∧ o ∈ scope.obligations (path ++ [label]) t := by
  cases b with
  | unit =>
    rw [bodyObligations]
    refine iff_of_false List.not_mem_nil ?_
    rintro (⟨h, -⟩ | ⟨_, _, hl, -⟩)
    · cases h
    · cases hl
  | positional fields =>
    unfold bodyObligations
    rw [List.mem_append, mem_positionalObligations]
    refine or_congr ?_ .rfl
    split
    · next f => simp [Body.losesOnlyField]
    · next several =>
      refine iff_of_false List.not_mem_nil ?_
      rintro ⟨h, -⟩
      unfold Body.losesOnlyField at h
      split at h
      · next f e => exact several f (Body.positional.inj e)
      · cases h
  | named tag fields =>
    rw [bodyObligations, mem_namedObligations tag]
    refine (or_iff_right ?_).symm
    rintro ⟨h, -⟩
    cases h

/-- The walk leaves the obligation at the shape itself. -/
inductive Owes (scope : Scope) (path : Path) : Shape → Obligation scope.types → Prop
  | key {key value : Shape} {o : Obligation scope.types} : o ∈ failure (scope.requireKey path none key) →
      Owes scope path (.map key value) o
  | onlyField {name : String} {body : Body Shape} : body.losesOnlyField →
      Owes scope path (.struct name body) (.fail (.invalidSkip (path ++ ["0"]) .onlyPositionalField))
  | checks {name : String} {vs : List (Variant Shape)} {tagging : Option Tagging} {o : Obligation scope.types} :
      o ∈ scope.enumChecks path name vs tagging → Owes scope path (.enum name vs tagging) o
  | onlyVariantField {name : String} {vs : List (Variant Shape)} {tagging : Option Tagging} {v : Variant Shape} :
      v ∈ Variant.kept vs → v.body.losesOnlyField →
      Owes scope path (.enum name vs tagging) (.fail (.invalidSkip (path ++ [v.name, "0"]) .onlyPositionalField))
  | missing {id : TypeId} {arguments : List Shape} : scope.types.resolve id.key = none →
      Owes scope path (.reference id arguments) (.fail (.invalidReference path id))
  | arguments {id : TypeId} {arguments : List Shape} {r : Record} {o : Obligation scope.types} :
      scope.types.resolve id.key = some r → o ∈ scope.keyArguments path r arguments →
      Owes scope path (.reference id arguments) o
  | visit {id : TypeId} {arguments : List Shape} {r : Record} {mem : r ∈ scope.types.members} :
      scope.types.resolve id.key = some r → Owes scope path (.reference id arguments) (.visit r mem)

/-- The walk goes on into the kept children, unless the shape is a reference without a record. -/
def GoesOn (scope : Scope) : Shape → Prop
  | .reference id _ => ∃ r, scope.types.resolve id.key = some r
  | _ => True

/-- The walk goes on to the child without a label. -/
theorem mem_obligations_child {s t : Shape} (h : s.Labels [] t) (ho : o ∈ scope.obligations path t) :
    ∃ front t, s.Labels front t ∧ o ∈ scope.obligations (path ++ front) t :=
  ⟨[], t, h, by rwa [List.append_nil]⟩

theorem mem_obligations_enum {name : String} {vs : List (Variant Shape)} {tagging : Option Tagging} :
    o ∈ scope.obligations path (.enum name vs tagging) ↔ scope.Owes path (.enum name vs tagging) o ∨
      ∃ front t, (Shape.enum name vs tagging).Labels front t ∧ o ∈ scope.obligations (path ++ front) t := by
  rw [obligations, List.mem_append, mem_variantObligations]
  constructor
  · rintro (h | ⟨v, hv, h⟩)
    · exact Or.inl (.checks h)
    · rcases mem_bodyObligations.1 h with ⟨hl, rfl⟩ | ⟨label, t, hl, ho⟩
      · rw [List.append_assoc]
        exact Or.inl (.onlyVariantField hv hl)
      · rw [List.append_assoc] at ho
        exact Or.inr ⟨_, t, .payload hv hl, ho⟩
  · rintro (h | ⟨_, t, h, ho⟩)
    · cases h with
      | checks h => exact Or.inl h
      | @onlyVariantField _ _ _ v hv hl =>
        refine Or.inr ⟨v, hv, mem_bodyObligations.2 (Or.inl ⟨hl, ?_⟩)⟩
        rw [List.append_assoc]
        rfl
    · cases h with
      | @payload _ label _ _ v _ hv hl =>
        refine Or.inr ⟨v, hv, mem_bodyObligations.2 (Or.inr ⟨label, t, hl, ?_⟩)⟩
        rwa [List.append_assoc]

/-- Arguments are walked only where the record is there. -/
theorem mem_obligations_reference {id : TypeId} {arguments : List Shape} :
    o ∈ scope.obligations path (.reference id arguments) ↔ scope.Owes path (.reference id arguments) o ∨
      (∃ r, scope.types.resolve id.key = some r) ∧ ∃ front t, (Shape.reference id arguments).Labels front t ∧
        o ∈ scope.obligations (path ++ front) t := by
  rw [obligations]
  split
  · next hn =>
    rw [List.mem_singleton]
    constructor
    · rintro rfl
      exact Or.inl (.missing hn)
    · rintro (h | ⟨⟨r, hr⟩, -⟩)
      · cases h with
        | missing => rfl
        | arguments hr | visit hr =>
          rw [hn] at hr
          cases hr
      · rw [hn] at hr
        cases hr
  · next r hr =>
    rw [List.mem_append, List.mem_append, List.mem_singleton, argumentObligations_eq_flatMap, List.mem_flatMap]
    constructor
    · rintro (⟨a, ha, ho⟩ | h | rfl)
      · exact Or.inr ⟨⟨r, hr⟩, mem_obligations_child (.argument ha) ho⟩
      · exact Or.inl (.arguments hr h)
      · exact Or.inl (.visit hr)
    · rintro (h | ⟨-, _, a, h, ho⟩)
      · cases h with
        | missing hn =>
          rw [hr] at hn
          cases hn
        | arguments hq h =>
          obtain rfl := Option.some.inj (hr.symm.trans hq)
          exact Or.inr (Or.inl h)
        | visit hq =>
          obtain rfl := Option.some.inj (hr.symm.trans hq)
          exact Or.inr (Or.inr rfl)
      · cases h with
        | argument ha =>
          rw [List.append_nil] at ho
          exact Or.inl ⟨a, ha, ho⟩

/-- What is left to do is owed at the shape itself, or left by the walk through a kept child. -/
theorem mem_obligations {s : Shape} : o ∈ scope.obligations path s ↔ scope.Owes path s o ∨
    scope.GoesOn s ∧ ∃ front t, s.Labels front t ∧ o ∈ scope.obligations (path ++ front) t := by
  cases s with
  | primitive | literal | foreign | placeholder =>
    rw [obligations]
    refine iff_of_false List.not_mem_nil ?_
    rintro (h | ⟨-, _, _, h, -⟩) <;> cases h
  | list element | nullable inner =>
    rw [obligations]
    constructor
    · exact fun h => Or.inr ⟨trivial, mem_obligations_child (by constructor) h⟩
    · rintro (h | ⟨-, _, _, h, ho⟩)
      · cases h
      · cases h
        rwa [List.append_nil] at ho
  | map key value =>
    rw [obligations, List.mem_append, List.mem_append]
    constructor
    · rintro (h | h | h)
      · exact Or.inl (.key h)
      · exact Or.inr ⟨trivial, mem_obligations_child .key h⟩
      · exact Or.inr ⟨trivial, mem_obligations_child .value h⟩
    · rintro (h | ⟨-, _, _, h, ho⟩)
      · cases h with
        | key h => exact Or.inl h
      · cases h <;> rw [List.append_nil] at ho
        · exact Or.inr (Or.inl ho)
        · exact Or.inr (Or.inr ho)
  | tuple elements =>
    rw [obligations, mem_elementObligations]
    constructor
    · rintro ⟨i, t, hi, ho⟩
      exact Or.inr ⟨trivial, _, t, .item hi, ho⟩
    · rintro (h | ⟨-, _, t, h, ho⟩)
      · cases h
      · cases h with
        | item hi => exact ⟨_, t, hi, ho⟩
  | struct name body =>
    rw [obligations, mem_bodyObligations]
    constructor
    · rintro (⟨hl, rfl⟩ | ⟨label, t, hl, ho⟩)
      · exact Or.inl (.onlyField hl)
      · exact Or.inr ⟨trivial, _, t, .field hl, ho⟩
    · rintro (h | ⟨-, _, t, h, ho⟩)
      · cases h with
        | onlyField hl => exact Or.inl ⟨hl, rfl⟩
      · cases h with
        | field hl => exact Or.inr ⟨_, t, hl, ho⟩
  | enum name vs tagging =>
    rw [mem_obligations_enum]
    exact or_congr_right (and_iff_right trivial).symm
  | reference id arguments => exact mem_obligations_reference

end Scope

end ShapeExport
