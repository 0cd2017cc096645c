import Mathlib.Data.List.Forall2
import Mathlib.Logic.Relation
import ShapeExport.Proofs.OrderedMap
import ShapeExport.Proofs.Shape.Position

/-!
# Unfolding references

A reference is unfolded when the body of its record takes its place, with the arguments for the
parameters.

* `Binding.ofLists_map`, `Binding.mem_zip_of_ofLists` : the arguments that parameters are bound to;
* `Binding.placeholder_replace` : what holds of parameters when one argument is replaced;
* `Collection.seenInduction`, `Collection.followInduction` : induction over a walk that goes from a shape to
  its children, and from a reference to the body of its record unless the record was met before;
* `Scope.Unfolds` : one reference at a kept position is unfolded;
* `Scope.Unfolds.holds` : what a shape holds after that.
-/

namespace ShapeExport
open Relation

/-! ## Arguments of parameters -/

namespace Binding

theorem ofLists_map (parameters : List String) (arguments : List Shape) (g : Shape → Shape)
    (name : String) :
    ofLists parameters (arguments.map g) name = (ofLists parameters arguments name).map g := by
  unfold ofLists
  have zip : parameters.zip (arguments.map g) =
      (parameters.zip arguments).map fun q => (q.1, g q.2) := List.zip_map_right ..
  rw [zip, ← List.map_reverse, OrderedMap.lookup_map]

theorem mem_zip_of_ofLists {parameters : List String} {arguments : List Shape} {name : String}
    {a : Shape} (h : ofLists parameters arguments name = some a) :
    (name, a) ∈ parameters.zip arguments := by
  obtain ⟨l, r, e, -⟩ := List.lookup_eq_some_iff.1 h
  rw [← List.mem_reverse, e]
  simp

theorem mem_of_ofLists {parameters : List String} {arguments : List Shape} {name : String} {a : Shape}
    (h : ofLists parameters arguments name = some a) : a ∈ arguments :=
  (List.of_mem_zip (mem_zip_of_ofLists h)).2

theorem ofLists_cons (p : String) (a : Shape) (ps : List String) (as : List Shape) (name : String) :
    ofLists (p :: ps) (a :: as) name =
      (ofLists ps as name).or (if name == p then some a else none) := by
  unfold ofLists
  rw [List.zip_cons_cons, List.reverse_cons, List.lookup_append, List.lookup_cons, List.lookup_nil]
  cases name == p <;> rfl

theorem ofLists_forall₂ {R : Shape → Shape → Prop} {parameters : List String} {as as' : List Shape}
    (h : List.Forall₂ R as as') (name : String) :
    Option.Rel R (ofLists parameters as name) (ofLists parameters as' name) := by
  induction parameters generalizing as as' with
  | nil => exact .none
  | cons p ps ih =>
    cases h with
    | nil => exact .none
    | @cons a a' as as' ha hs =>
      have hr := ih hs
      rw [ofLists_cons, ofLists_cons]
      generalize ofLists ps as name = o at hr ⊢
      generalize ofLists ps as' name = o' at hr ⊢
      cases hr with
      | some hr => exact .some hr
      | none =>
        cases name == p with
        | true => exact .some ha
        | false => exact .none

/-- When one argument is replaced, a parameter keeps its argument or takes the new one. -/
theorem ofLists_replace (parameters : List String) (l r : List Shape) (c c' : Shape) (name : String) :
    Option.Rel (fun a a' => a' = a ∨ a = c ∧ a' = c') (ofLists parameters (l ++ c :: r) name)
      (ofLists parameters (l ++ c' :: r) name) := by
  have same : ∀ as, List.Forall₂ (fun a a' => a' = a ∨ a = c ∧ a' = c') as as :=
    fun as => List.forall₂_same.2 fun _ _ => Or.inl rfl
  apply ofLists_forall₂
  exact List.rel_append (same l) (.cons (Or.inr ⟨rfl, rfl⟩) (same r))

/-- What holds of a parameter still does when one argument is replaced by one of which it holds too. -/
theorem placeholder_replace {P : Shape → Prop} {c c' : Shape} (h : P c → P c')
    (parameters : List String) (l r : List Shape) {name : String}
    (hp : P ((Shape.placeholder name).substitute (ofLists parameters (l ++ c :: r)))) :
    P ((Shape.placeholder name).substitute (ofLists parameters (l ++ c' :: r))) := by
  rw [Shape.substitute_placeholder] at hp ⊢
  have hx := ofLists_replace parameters l r c c' name
  generalize ofLists parameters (l ++ c :: r) name = o at hx hp
  generalize ofLists parameters (l ++ c' :: r) name = o' at hx ⊢
  cases hx with
  | none => exact hp
  | some hx =>
    rcases hx with rfl | ⟨rfl, rfl⟩
    · exact hp
    · exact h hp

end Binding

/-- The body with arguments in which parameters are bound. -/
theorem Record.expand_map (r : Record) (arguments : List Shape) (b : Binding) :
    r.expand (arguments.map (Shape.substitute b)) =
      r.shape.substitute fun name =>
        (Binding.ofLists r.parameters arguments name).map (Shape.substitute b) := by
  unfold Record.expand
  congr 1
  funext name
  exact Binding.ofLists_map ..

theorem Record.expand_of_not_generic {r : Record} (h : r.parameters = []) (arguments : List Shape) :
    r.expand arguments = r.shape := by
  have e : Binding.ofLists r.parameters arguments = fun _ => none := by
    funext name
    rw [h]
    rfl
  rw [Record.expand, e, Shape.substitute_none]

/-! ## Walks along references -/

/-- Induction over walks that go from a shape to its children, and to anything once a record was met that
was not met before. -/
theorem Collection.seenInduction {c : Collection} {motive : List TypeKey → Shape → Prop}
    (step : ∀ seen s, (∀ t ∈ s.children, motive seen t) →
      (∀ k r, k ∉ seen → c.resolve k = some r → ∀ t, motive (k :: seen) t) → motive seen s)
    (seen : List TypeKey) (s : Shape) : motive seen s :=
  step seen s (fun t _ => seenInduction step seen t)
    fun k _ _ _ t => seenInduction step (k :: seen) t
termination_by (c.unseen seen, sizeOf s)
decreasing_by
  · exact Prod.Lex.right _ (Shape.sizeOf_child_lt ‹_›)
  · exact Prod.Lex.left _ _ (Collection.unseen_cons_lt ‹_› ‹_›)

theorem Collection.followInduction {c : Collection} {motive : List TypeKey → Shape → Prop}
    (step : ∀ seen s, (∀ t ∈ s.children, motive seen t) →
      (∀ id arguments r, s = .reference id arguments → id.key ∉ seen → c.resolve id.key = some r →
        motive (id.key :: seen) (r.expand arguments)) → motive seen s)
    (seen : List TypeKey) (s : Shape) : motive seen s := by
  induction seen, s using seenInduction (c := c) with
  | step seen s ih it =>
    exact step seen s ih fun id arguments r _ hn hr => it id.key r hn hr (r.expand arguments)

/-! ## Unfolding -/

namespace Scope

variable {scope : Scope}

/-- One reference at a kept position is replaced by the body of its record, with the arguments in the
place of the parameters. -/
inductive Unfolds (scope : Scope) : Shape → Shape → Prop
  | target {id : TypeId} {arguments : List Shape} {r : Record} :
      scope.types.resolve id.key = some r → Unfolds scope (.reference id arguments) (r.expand arguments)
  | inside {c c' s s' : Shape} : Unfolds scope c c' → Shape.Replaces c c' s s' → Unfolds scope s s'

/-- What is unfolded at a kept position is unfolded in the whole. -/
theorem Unfolds.lift {s c c' : Shape} (h : s.Holds c) (hc : scope.Unfolds c c') :
    ∃ s', scope.Unfolds s s' ∧ s'.Holds c' := by
  induction h with
  | here s => exact ⟨c', hc, .here c'⟩
  | @child s d c hd _ ih =>
    obtain ⟨d', hu, hh⟩ := ih hc
    obtain ⟨s', hr⟩ := Shape.exists_replaces hd d'
    exact ⟨s', .inside hu hr, .child hr.mem.2 hh⟩

theorem Unfolds.lift_all {s c c' : Shape} (h : s.Holds c) (hc : ReflTransGen scope.Unfolds c c') :
    ∃ s', ReflTransGen scope.Unfolds s s' ∧ s'.Holds c' := by
  induction hc with
  | refl => exact ⟨s, .refl, h⟩
  | tail _ hu ih =>
    obtain ⟨t, ht, hh⟩ := ih
    obtain ⟨t', hu', hh'⟩ := Unfolds.lift hh hu
    exact ⟨t', ht.tail hu', hh'⟩

/-- What a shape holds after unfolding it held before, or it has an unfolded kept child, or it lies in
the body that took the place of a reference. -/
theorem Unfolds.holds {s s' x : Shape} (h : scope.Unfolds s s') (hx : s'.Holds x) :
    s.Holds x ∨ (∃ y c c', s.Holds y ∧ scope.Unfolds c c' ∧ Shape.Replaces c c' y x) ∨
      ∃ id arguments r, s.Holds (.reference id arguments) ∧
        scope.types.resolve id.key = some r ∧ (r.expand arguments).Holds x := by
  induction h with
  | @target id arguments r hr => exact Or.inr (Or.inr ⟨id, arguments, r, .here _, hr, hx⟩)
  | @inside c c' s s' hu hr ih =>
    cases hx with
    | here => exact Or.inr (Or.inl ⟨s, c, c', .here s, hu, hr⟩)
    | @child _ d _ hd hx =>
      rcases hr.mem_or hd with rfl | hd
      · rcases ih hx with h | ⟨y, e, e', hy, ht⟩ | ⟨id, arguments, r, ha, ht⟩
        · exact Or.inl (.child hr.mem.1 h)
        · exact Or.inr (Or.inl ⟨y, e, e', .child hr.mem.1 hy, ht⟩)
        · exact Or.inr (Or.inr ⟨id, arguments, r, .child hr.mem.1 ha, ht⟩)
      · exact Or.inl (.child hd hx)

end Scope

end ShapeExport
