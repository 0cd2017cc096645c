import Mathlib
import ShapeExport.Proofs.Collection.Order
import ShapeExport.Proofs.JsonSchema.Expansion
import ShapeExport.Proofs.Shape.Substitution

/-!
# Type parameters in JSON Schema

A schema has no type parameters. Where each record mentions only parameters of its own, all of them are bound to
arguments before the body of a record is rendered, and the arguments mention none that is left.

* `Shape.HasNoParameter` : what is rendered mentions no type parameter;
* `Shape.HasNoParameter.substitute` : so it is where each parameter is bound to a shape that mentions none;
* `Context.schemaIn_bound` : the walk of the renderer stays among such shapes;
* `Context.definition_bound` : the definition of a record is not refused for a type parameter.
-/

namespace ShapeExport

/-! ## Shapes without type parameters -/

/-- As many arguments as parameters bind each parameter. -/
theorem Binding.exists_ofLists {parameters : List String} {arguments : List Shape}
    (hl : arguments.length = parameters.length) {name : String} (hn : name ∈ parameters) :
    ∃ a, ofLists parameters arguments name = some a := by
  have fst : (parameters.zip arguments).map Prod.fst = parameters := List.map_fst_zip hl.ge
  rw [← fst] at hn
  obtain ⟨⟨name, a⟩, hm, rfl⟩ := List.mem_map.1 hn
  refine Option.isSome_iff_exists.1 (List.lookup_isSome_iff.2 ⟨(name, a), List.mem_reverse.2 hm, ?_⟩)
  exact beq_self_eq_true name

namespace Shape

theorem Holds.placeholders_subset {s t : Shape} (h : s.Holds t) : t.placeholders ⊆ s.placeholders := by
  induction h with
  | here => exact List.Subset.refl _
  | child hc _ ih => exact List.Subset.trans ih (placeholders_subset_of_child (mem_children_of_mem_kept hc))

/-- No type parameter stands at a kept position. -/
def HasNoParameter (s : Shape) : Prop := ∀ name, ¬ s.Holds (placeholder name)

namespace HasNoParameter

theorem of_mem_kept {s t : Shape} (h : s.HasNoParameter) (ht : t ∈ s.kept) : t.HasNoParameter :=
  fun name hold => h name (.child ht hold)

theorem substitute {b : Binding} {s : Shape}
    (bound : ∀ name, s.Holds (placeholder name) → ∃ a, b name = some a ∧ a.HasNoParameter) :
    (s.substitute b).HasNoParameter := by
  induction s using substituteInduction with
  | parameter name =>
    obtain ⟨a, hb, ha⟩ := bound name (.here _)
    rw [substitute_placeholder, hb]
    exact ha
  | inside s hs ih =>
    intro name hold
    generalize e : placeholder name = x at hold
    cases hold with
    | here =>
      rw [substitute_eq_mapChildren b hs] at e
      exact mapChildren_ne_placeholder _ hs name e.symm
    | @child _ d _ hd hold =>
      subst e
      rw [kept_substitute b hs] at hd
      obtain ⟨t, ht, rfl⟩ := List.mem_map.1 hd
      exact ih t (mem_children_of_mem_kept ht) (fun name hn => bound name (.child ht hn)) name hold

/-- The body of a record mentions no parameter once its parameters stand for arguments that mention none. What the
parameters of the arguments were called does not matter. -/
theorem expand {r : Record} {id : TypeId} {arguments : List Shape} (h : (reference id arguments).HasNoParameter)
    (own : ∀ name, r.shape.Holds (placeholder name) → name ∈ r.parameters)
    (hl : arguments.length = r.parameters.length) : (r.expand arguments).HasNoParameter := by
  refine substitute fun name hold => ?_
  obtain ⟨a, hb⟩ := Binding.exists_ofLists hl (own name hold)
  exact ⟨a, hb, h.of_mem_kept (Binding.mem_of_ofLists hb)⟩

end HasNoParameter

end Shape

/-! ## Records with parameters of their own -/

/-- Each record mentions, at kept positions, only type parameters that it lists. -/
def Collection.HasOwnParameters (types : Collection) : Prop :=
  ∀ r ∈ types.members, ∀ name, r.shape.Holds (.placeholder name) → name ∈ r.parameters

theorem Collection.hasOwnParameters_of_placeholders {types : Collection}
    (h : ∀ r ∈ types.members, r.shape.placeholders ⊆ r.parameters) : types.HasOwnParameters :=
  fun r hr name hold => h r hr (hold.placeholders_subset (Shape.mem_placeholders_self name))

namespace JsonSchema.Context

variable {c : Context}

/-- The walk never meets a type parameter. A reference hands on arguments without parameters, and the body of its
record has none left. -/
theorem schemaIn_bound (own : c.types.HasOwnParameters) (stack : List TypeKey) {s : Shape}
    (closed : s.HasNoParameter) (path : Path) : FailsIn (¬ ·.IsUnbound) (c.schemaIn stack path s) := by
  induction stack, s using Collection.renderInduction (c := c.types) generalizing path with
  | reference stack id arguments ih =>
    intro e h
    rcases schemaIn_reference_eq_error h with ⟨-, hu⟩ | ⟨r, hr, -, ⟨-, rfl⟩ | ⟨hs, hl, hb⟩⟩
    · exact hu
    · exact not_false
    · exact ih r hs hr (closed.expand (own r (Collection.mem_members_of_resolve hr)) hl) _ e hb
  | parts stack s hs ih =>
    have admits : c.types.AdmitsLabels (¬ ·.IsUnbound) :=
      { own := fun _ he => he.not_isUnbound
        records := fun _ _ _ _ _ _ _ => not_false
        labels := fun _ he => he.not_isUnbound }
    have none : ∀ name, s = .placeholder name → ∀ e : Error, e.IsUnbound → ¬ e.IsUnbound := by
      rintro name rfl
      exact absurd (.here _) (closed name)
    refine failsIn_of_parts admits.toAdmits (fun _ _ _ _ _ => not_false) (admits.labelsIn _ s) (fun _ _ => not_false)
      none hs (fun t ht => ?_) path
    exact ih t ht (closed.of_mem_kept (Shape.mem_kept_of_mem_parts ht))

/-- **Type parameters are bound.** Where each record mentions only type parameters of its own, the definition of a
record without parameters is not refused for a type parameter that stands for nothing, however references to generic
records are nested in arguments and in bodies. -/
theorem definition_bound (own : c.types.HasOwnParameters) {r : Record} (hr : r ∈ c.types.members)
    (plain : r.parameters = []) (path : Path) (name : String) :
    c.definition r ≠ .error (.unsupportedShape path (.unboundParameter name)) := by
  have closed : r.shape.HasNoParameter := by
    intro name hold
    have listed := own r hr name hold
    rw [plain] at listed
    exact List.not_mem_nil listed
  intro h
  exact (schemaIn_bound own [] closed [r.name]).map _ _ h trivial

/-! ## Parameters of the same name

`Swap` hands its parameters on to `Pair`, whose parameters have the same names, the other way round and within further
types. -/

namespace Swaps

def pair : Record where
  id := ⟨⟨.static, 1⟩, "Pair"⟩
  name := "Pair"
  shape := .tuple [.placeholder "A", .placeholder "B"]
  parameters := ["A", "B"]

def swap : Record where
  id := ⟨⟨.static, 2⟩, "Swap"⟩
  name := "Swap"
  shape := .reference pair.id [.list (.placeholder "B") none false, .nullable (.placeholder "A")]
  parameters := ["A", "B"]

def flags : Record where
  id := ⟨⟨.static, 3⟩, "Flags"⟩
  name := "Flags"
  shape := .struct "Flags" (.named none [{ name := "v", ty := .reference swap.id [.primitive .bool, .primitive .i32] }])

def swaps : Context := { config := { language := .jsonschema }, types := .ofRecords [pair, swap, flags] }

theorem members_swaps : swaps.types.members = [pair, swap, flags] :=
  Collection.members_ofRecords (by decide)

theorem placeholders_swaps : pair.shape.placeholders = ["A", "B"] ∧ swap.shape.placeholders = ["B", "A"] ∧
    flags.shape.placeholders = [] := by
  refine ⟨?_, ?_, ?_⟩ <;> cbv

theorem hasOwnParameters_swaps : swaps.types.HasOwnParameters := by
  obtain ⟨hp, hs, hf⟩ := placeholders_swaps
  refine Collection.hasOwnParameters_of_placeholders ?_
  rw [members_swaps, List.forall_mem_cons, List.forall_mem_cons, List.forall_mem_singleton, hp, hs, hf]
  decide

/-- The definition of `Flags` is not refused for a parameter, and for nothing else either. -/
theorem bound_in_flags : swaps.types.HasOwnParameters ∧ flags ∈ swaps.types.members ∧ flags.parameters = [] ∧
    (∀ path name, swaps.definition flags ≠ .error (.unsupportedShape path (.unboundParameter name))) ∧
    (swaps.definition flags).isOk := by
  have member : flags ∈ swaps.types.members := by
    rw [members_swaps]
    exact List.mem_cons_of_mem _ (List.mem_cons_of_mem _ List.mem_cons_self)
  have bound := definition_bound hasOwnParameters_swaps member rfl
  exact ⟨hasOwnParameters_swaps, member, rfl, bound, by cbv⟩

end Swaps

end JsonSchema.Context

end ShapeExport
