import Mathlib.Data.List.Basic
import ShapeExport.Shape.References
import ShapeExport.Shape.Substitution

/-!
# Laws of substitution

* `Shape.substituteInduction` : induction over a substitution, from type parameters and from children;
* `Binding.andThen`, `Shape.substitute_substitute` : one substitution after another is a single one;
* `Shape.placeholders`, `Shape.substitute_congr` : only the parameters in a shape matter;
* `Shape.idsUnder`, `Shape.ids_substitute` : the references after a substitution, read off the shape before it;
* `Shape.substitution_laws` : the three together.
-/

namespace ShapeExport

/-- Binds what the first binding binds, with the second one applied to it, and what only the second one
binds. -/
def Binding.andThen (b d : Binding) : Binding :=
  fun name => ((b name).map (Shape.substitute d)).or (d name)

namespace Shape

/-- A substitution replaces a type parameter, and otherwise goes on to the children. -/
theorem substituteInduction {motive : Shape → Prop} (parameter : ∀ name, motive (placeholder name))
    (inside : ∀ s, (∀ name, s ≠ placeholder name) → (∀ c ∈ s.children, motive c) → motive s) (s : Shape) :
    motive s := by
  induction s using childInduction with
  | step s ih =>
    by_cases h : ∃ name, s = placeholder name
    · obtain ⟨name, rfl⟩ := h
      exact parameter name
    · exact inside s (fun name e => h ⟨name, e⟩) ih

theorem mapChildren_ne_placeholder {s : Shape} (g : Shape → Shape) (h : ∀ name, s ≠ placeholder name)
    (name : String) : s.mapChildren g ≠ placeholder name := by
  intro e
  cases s with
  | placeholder m => exact h m rfl
  | _ => cases e

/-! ## One substitution after another -/

theorem substitute_substitute (s : Shape) (b d : Binding) :
    (s.substitute b).substitute d = s.substitute (b.andThen d) := by
  induction s using substituteInduction with
  | parameter name =>
    rw [substitute_placeholder, substitute_placeholder, Binding.andThen]
    cases b name with
    | none => exact substitute_placeholder d name
    | some a => rfl
  | inside s hs ih =>
    calc (s.substitute b).substitute d
        = (s.mapChildren (substitute b)).substitute d := by rw [substitute_eq_mapChildren b hs]
      _ = (s.mapChildren (substitute b)).mapChildren (substitute d) :=
          substitute_eq_mapChildren d (mapChildren_ne_placeholder _ hs)
      _ = s.mapChildren (substitute d ∘ substitute b) := mapChildren_mapChildren ..
      _ = s.mapChildren (substitute (b.andThen d)) := mapChildren_congr ih
      _ = s.substitute (b.andThen d) := (substitute_eq_mapChildren _ hs).symm

/-! ## The parameters in a shape -/

/-- The parameter that a shape is itself. -/
def ownPlaceholder : Shape → List String
  | placeholder name => [name]
  | _ => []

/-- The type parameters in a shape, in order, wherever they stand. -/
def placeholders (s : Shape) : List String :=
  s.ownPlaceholder ++ s.children.attach.flatMap fun ⟨c, _⟩ => placeholders c
termination_by sizeOf s
decreasing_by exact sizeOf_child_lt ‹_›

theorem placeholders_eq (s : Shape) :
    s.placeholders = s.ownPlaceholder ++ s.children.flatMap placeholders := by
  rw [placeholders]
  simp

theorem placeholders_subset_of_child {s c : Shape} (h : c ∈ s.children) : c.placeholders ⊆ s.placeholders := by
  intro name hn
  rw [placeholders_eq]
  exact List.mem_append_right _ (List.mem_flatMap.2 ⟨c, h, hn⟩)

theorem mem_placeholders_self (name : String) : name ∈ (placeholder name).placeholders := by
  rw [placeholders_eq]
  exact List.mem_cons_self

theorem substitute_congr {s : Shape} {b d : Binding} (h : ∀ name ∈ s.placeholders, b name = d name) :
    s.substitute b = s.substitute d := by
  induction s using substituteInduction with
  | parameter name =>
    rw [substitute_placeholder, substitute_placeholder, h name (mem_placeholders_self name)]
  | inside s hs ih =>
    rw [substitute_eq_mapChildren b hs, substitute_eq_mapChildren d hs]
    exact mapChildren_congr fun c hc => ih c hc fun name hn => h name (placeholders_subset_of_child hc hn)

/-- A shape without a bound parameter stays as it is. -/
theorem substitute_eq_self {s : Shape} {b : Binding} (h : ∀ name ∈ s.placeholders, b name = none) :
    s.substitute b = s :=
  (substitute_congr h).trans s.substitute_none

/-! ## References -/

/-- The ids of all references in a shape, in order. -/
def ids (s : Shape) : List TypeId := s.references.map (·.id)

theorem ids_eq (s : Shape) : s.ids = s.ownReference.map (·.id) ++ s.children.flatMap ids := by
  unfold ids
  rw [references_eq, List.map_append, List.map_flatMap]

/-- The walk over the references of a shape in which a bound parameter stands for the walk over the shape that
it is bound to. -/
def idsUnder (b : Binding) (s : Shape) : List TypeId :=
  match s with
  | placeholder name => ((b name).map ids).getD []
  | s => s.ownReference.map (·.id) ++ s.children.attach.flatMap fun ⟨c, _⟩ => idsUnder b c
termination_by sizeOf s
decreasing_by exact sizeOf_child_lt ‹_›

theorem idsUnder_placeholder (b : Binding) (name : String) :
    (placeholder name).idsUnder b = ((b name).map ids).getD [] := by
  rw [idsUnder]

theorem idsUnder_eq {s : Shape} (b : Binding) (h : ∀ name, s ≠ placeholder name) :
    s.idsUnder b = s.ownReference.map (·.id) ++ s.children.flatMap (idsUnder b) := by
  rw [idsUnder]
  · simp
  · exact fun name e => h name e

theorem ids_placeholder (name : String) : (placeholder name).ids = [] := by
  rw [ids_eq]
  rfl

theorem ownReference_mapChildren (s : Shape) (g : Shape → Shape) :
    (s.mapChildren g).ownReference.map (·.id) = s.ownReference.map (·.id) := by
  cases s <;> rfl

theorem ids_substitute (s : Shape) (b : Binding) : (s.substitute b).ids = s.idsUnder b := by
  induction s using substituteInduction with
  | parameter name =>
    rw [substitute_placeholder, idsUnder_placeholder]
    cases b name with
    | none => exact ids_placeholder name
    | some a => rfl
  | inside s hs ih =>
    have children : s.children.flatMap (ids ∘ substitute b) = s.children.flatMap (idsUnder b) :=
      List.flatMap_congr fun c hc => ih c hc
    rw [substitute_eq_mapChildren b hs, ids_eq, ownReference_mapChildren, children_mapChildren,
      List.flatMap_map, idsUnder_eq b hs, ← children]
    rfl

/-! ## The laws -/

/-- **Laws of substitution.** One substitution after another is the substitution by both bindings; the result
depends only on what the parameters in the shape are bound to, so that a shape without bound parameters stays as
it is; and the references of the result are those of the shape, with the references of the bound shapes in the
places of the parameters. -/
theorem substitution_laws (s : Shape) (b d : Binding) :
    (s.substitute b).substitute d = s.substitute (b.andThen d) ∧
      ((∀ name ∈ s.placeholders, b name = d name) → s.substitute b = s.substitute d) ∧
      ((∀ name ∈ s.placeholders, b name = none) → s.substitute b = s) ∧
      (s.substitute b).references.map (·.id) = s.idsUnder b :=
  ⟨s.substitute_substitute b d, substitute_congr, substitute_eq_self, s.ids_substitute b⟩

end Shape

end ShapeExport
