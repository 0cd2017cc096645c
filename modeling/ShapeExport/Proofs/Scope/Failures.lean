import ShapeExport.Layout
import ShapeExport.Proofs.Outcome
import ShapeExport.Proofs.Validation.Payload
import ShapeExport.Representation

/-!
# What a walk along references fails with

Two errors depend on where references lead: a record is missing, or it would be expanded within itself. A third
one depends on the integers that are met on the way.

* `Error.IsMissing`, `Error.IsEndless`, `Error.IsWideInteger`, `Error.IsLocal` : these three kinds, and all others;
* `Error.IsUnbound`, `Error.IsOwn`, `Error.IsBadLabel` : among the local errors those for type parameters, those that a
  check or a rendering raises for anything else in a shape, and those for labels that cannot be written;
* `Error.IsRefusal` : the errors that the library raises for a shape;
* `Collection.Finds` : the records that a shape refers to at kept positions are there, or the refusal of one
  that is missing lies in a set of errors;
* `Collection.Admits`, `Collection.AdmitsLabels`, `Collection.Covers` : the records of a collection find theirs, and the
  set has all own errors, those of labels as well, or all local ones;
* `Collection.Finds.expand`, `Collection.Finds.followInduction` : so a walk that follows references stays
  among shapes that find their records;
* `Collection.Admits.represent` : a representation is refused with an error in the set;
* `Overrides.LabelsIn`, `Scope.labels_subset_of_represent` : the labels of one enum can be keys, or their refusals are
  in the set;
* `Representation.Fits`, `Scope.fits_of_represent` : what form the variants have that a representation is given
  to.
-/

namespace ShapeExport

namespace Error

/-- The refusal of a reference that leads to no record. -/
def IsMissing : Error → Prop
  | invalidReference .. => True
  | _ => False

/-- The refusal of a record that would be expanded within itself. -/
def IsEndless : Error → Prop
  | unsupportedShape _ (.endlessExpansion _) => True
  | _ => False

/-- The refusal of a type parameter that stands for nothing. -/
def IsUnbound : Error → Prop
  | unsupportedShape _ (.unboundParameter _) => True
  | _ => False

/-- The refusal of a wide integer. -/
def IsWideInteger : Error → Prop
  | bigIntForbidden _ => True
  | _ => False

/-- An error for which it matters neither where references lead nor which integers there are. -/
def IsLocal : Error → Prop
  | invalidReference .. => False
  | unsupportedShape _ (.endlessExpansion _) => False
  | bigIntForbidden _ => False
  | _ => True

/-- The refusal of a tagging, of a foreign shape, of a map key, or of a number of arguments. -/
def IsOwn : Error → Prop
  | invalidTagging .. | invalidTagged .. | invalidForeign .. => True
  | unsupportedShape _ .unusableMapKey | unsupportedShape _ (.argumentCount ..) => True
  | _ => False

/-- The refusal of a label that is no text. -/
def IsBadLabel : Error → Prop
  | unusableLabel label => ∀ text, label ≠ .string text
  | _ => False

/-- The errors that the library raises for a shape. -/
def IsRefusal : Error → Prop
  | invalidTagging .. | invalidTagged .. | invalidForeign .. | invalidReference .. => True
  | bigIntForbidden _ | unsupportedShape .. => True
  | _ => False

theorem IsOwn.isRefusal {e : Error} (h : e.IsOwn) : e.IsRefusal := by
  cases e <;> first | exact h | trivial

theorem IsUnbound.isRefusal {e : Error} (h : e.IsUnbound) : e.IsRefusal := by
  cases e <;> first | exact h | trivial

theorem IsEndless.isRefusal {e : Error} (h : e.IsEndless) : e.IsRefusal := by
  cases e <;> first | exact h | trivial

theorem IsUnbound.isLocal {e : Error} (h : e.IsUnbound) : e.IsLocal := by
  cases e with
  | unsupportedShape path fault => cases fault <;> first | exact h | trivial
  | _ => exact h.elim

theorem IsOwn.isLocal {e : Error} (h : e.IsOwn) : e.IsLocal := by
  cases e with
  | unsupportedShape path fault => cases fault <;> first | exact h | trivial
  | _ => first | exact h | trivial

theorem IsBadLabel.isLocal {e : Error} (h : e.IsBadLabel) : e.IsLocal := by
  cases e <;> first | exact h | trivial

theorem IsOwn.not_isUnbound {e : Error} (h : e.IsOwn) : ¬ e.IsUnbound := by
  intro hu
  cases e with
  | unsupportedShape path fault => cases fault <;> first | exact h | exact hu
  | _ => exact hu

theorem IsBadLabel.not_isUnbound {e : Error} (h : e.IsBadLabel) : ¬ e.IsUnbound := by
  intro hu
  cases e <;> first | exact h | exact hu

theorem IsLocal.not_isMissing {e : Error} (h : e.IsLocal) : ¬ e.IsMissing := by
  intro hm
  cases e <;> first | exact h | exact hm

theorem IsLocal.not_isEndless {e : Error} (h : e.IsLocal) : ¬ e.IsEndless := by
  intro he
  cases e with
  | unsupportedShape path fault => cases fault <;> first | exact h | exact he
  | _ => exact he

end Error

/-! ## Records that are there -/

namespace Collection

variable {c : Collection} {E : Error → Prop}

/-- Each reference at a kept position leads to a record, unless its refusal is in `E`. -/
def Finds (c : Collection) (E : Error → Prop) (s : Shape) : Prop :=
  ∀ id arguments, s.Holds (.reference id arguments) → c.resolve id.key = none →
    ∀ path, E (.invalidReference path id)

/-- `E` has all own errors, and those of missing records that records of the collection refer to. -/
structure Admits (c : Collection) (E : Error → Prop) : Prop where
  own : ∀ e, e.IsOwn → E e
  records : ∀ r ∈ c.members, c.Finds E r.shape

/-- Besides, `E` has the refusals of labels that are no texts. -/
structure AdmitsLabels (c : Collection) (E : Error → Prop) : Prop extends Admits c E where
  labels : ∀ e, e.IsBadLabel → E e

/-- `E` has all local errors, and those of missing records that records of the collection refer to. -/
structure Covers (c : Collection) (E : Error → Prop) : Prop where
  other : ∀ e, e.IsLocal → E e
  records : ∀ r ∈ c.members, c.Finds E r.shape

theorem Covers.admits (h : c.Covers E) : c.AdmitsLabels E where
  own e he := h.other e he.isLocal
  records := h.records
  labels e he := h.other e he.isLocal

theorem Finds.of_mem_kept {s t : Shape} (h : c.Finds E s) (ht : t ∈ s.kept) : c.Finds E t :=
  fun id arguments hold => h id arguments (.child ht hold)

/-- What the body of a record refers to stands in the record or in an argument. -/
theorem Finds.expand {id : TypeId} {arguments : List Shape} {r : Record}
    (h : c.Finds E (.reference id arguments)) (hr : c.Finds E r.shape) : c.Finds E (r.expand arguments) := by
  intro id' arguments' hold
  rcases hold.of_substitute with ⟨y, hy, e⟩ | ⟨name, a, -, hb, ha⟩
  · cases y <;> cases e
    exact hr _ _ hy
  · exact (h.of_mem_kept (Binding.mem_of_ofLists hb)) id' arguments' ha

/-- Induction over a walk from a shape to its kept children, and from a reference to the body of its record
unless the record was met before. -/
theorem Finds.followInduction {motive : List TypeKey → Shape → Prop} (records : ∀ r ∈ c.members, c.Finds E r.shape)
    (step : ∀ seen s, c.Finds E s → (∀ t ∈ s.kept, motive seen t) →
      (∀ id arguments r, s = .reference id arguments → id.key ∉ seen → c.resolve id.key = some r →
        motive (id.key :: seen) (r.expand arguments)) → motive seen s)
    (seen : List TypeKey) {s : Shape} (found : c.Finds E s) : motive seen s := by
  induction seen, s using Collection.followInduction (c := c) with
  | step seen s ih it =>
    apply step seen s found
    · intro t ht
      exact ih t (Shape.mem_children_of_mem_kept ht) (found.of_mem_kept ht)
    · rintro id arguments r rfl hn hr
      exact it id arguments r rfl hn hr (found.expand (records r (mem_members_of_resolve hr)))

/-- With all errors but those of endless expansions, nothing needs to be found. -/
theorem covers_of_not_isEndless (h : ∀ e, ¬ e.IsEndless → E e) : c.Covers E where
  other e he := h e he.not_isEndless
  records _ _ _ _ _ _ _ := h _ not_false

theorem finds_of_not_isEndless (h : ∀ e, ¬ e.IsEndless → E e) (s : Shape) : c.Finds E s :=
  fun _ _ _ _ _ => h _ not_false

/-- With all refusals and those of labels, nothing needs to be found. -/
theorem admitsLabels_of_refusals (h : ∀ e, e.IsRefusal ∨ e.IsBadLabel → E e) : c.AdmitsLabels E where
  own e he := h e (Or.inl he.isRefusal)
  records _ _ _ _ _ _ _ := h _ (Or.inl trivial)
  labels e he := h e (Or.inr he)

theorem finds_of_refusals (h : ∀ e, e.IsRefusal → E e) (s : Shape) : c.Finds E s :=
  fun _ _ _ _ _ => h _ trivial

end Collection

/-! ## Steps that renderers share -/

/-- The refusals of wide integers are in `E`. -/
def WideIn (E : Error → Prop) : Prop := ∀ path, E (.bigIntForbidden path)

theorem failsIn_bigIntAt {E : Error → Prop} (wide : WideIn E) (c : Config) (path : Path) :
    FailsIn E (c.bigIntAt path) := by
  unfold Config.bigIntAt
  split
  · exact failsIn_error (wide path)
  · exact failsIn_ok _

theorem failsIn_specifier {E : Error → Prop} (names : ∀ name, E (.invalidFileName name)) (x : Export)
    (source target : Record) : FailsIn E (x.specifier source target) := by
  unfold Export.specifier
  dsimp only
  split
  · exact failsIn_error (names _)
  · exact failsIn_ok _

section Labels

variable {E : Error → Prop} (labels : ∀ e, e.IsBadLabel → E e)
include labels

theorem failsIn_labelText (label : Json) : FailsIn E (labelText label) := by
  unfold labelText
  split
  · exact failsIn_ok _
  · next other => exact failsIn_error (labels _ other)

end Labels

theorem failsIn_labelKey {E : Error → Prop} {label : Json} (unusable : ¬ label.isScalar → E (.unusableLabel label)) :
    FailsIn E (labelKey label) := by
  unfold labelKey
  split
  · exact failsIn_ok _
  · split
    · exact failsIn_ok _
    · next composite => exact failsIn_error (unusable composite)

/-- The labels that a representation makes keys of. -/
def Representation.labels : Representation → List Json
  | internal tag => [tag]
  | adjacent tag content => [tag, content]
  | external | untagged | strings _ => []

/-- If the shape is an enum, then the refusals of its labels are in `E`. -/
def Overrides.LabelsIn (o : Overrides) (E : Error → Prop) (s : Shape) : Prop :=
  ∀ name vs tagging, s = .enum name vs tagging → ∀ label ∈ (o.effective name tagging).labels,
    ¬ label.isScalar → E (.unusableLabel label)

theorem Collection.AdmitsLabels.labelsIn {c : Collection} {E : Error → Prop} (admits : c.AdmitsLabels E)
    (o : Overrides) (s : Shape) : o.LabelsIn E s := by
  intro name vs tagging _ label _ composite
  apply admits.labels
  rintro text rfl
  exact composite rfl

theorem failsIn_casing {E : Error → Prop} (own : ∀ e, e.IsOwn → E e) (path : Path) (casing : Json) :
    FailsIn E (Casing.ofJson path casing) := by
  unfold Casing.ofJson
  split
  · exact failsIn_ok _
  · split
    · exact failsIn_ok _
    · exact failsIn_error (own _ trivial)

namespace Collection.Admits

variable {scope : Scope} {E : Error → Prop} {seen : List TypeKey}

theorem checkPayloads (own : ∀ e, e.IsOwn → E e) {path : Path} {b : Body Shape}
    (payloads : ∀ t ∈ b.payloads, FailsIn E (scope.checkPayload seen path t)) :
    FailsIn E (b.checkPayloads (scope.checkPayload seen) path) := by
  unfold Body.checkPayloads
  split
  · exact failsIn_ok _
  · next t ht => exact payloads t (ht ▸ List.mem_cons_self)
  · exact failsIn_error (own _ trivial)

theorem checkVariants (own : ∀ e, e.IsOwn → E e) {vs : List (Variant Shape)}
    (payloads : ∀ v ∈ Variant.kept vs, ∀ t ∈ v.body.payloads, ∀ path, FailsIn E (scope.checkPayload seen path t))
    (path : Path) : FailsIn E (scope.checkVariants seen path vs) := by
  rw [Scope.checkVariants_eq_forM]
  exact failsIn_forM fun v hv => checkPayloads own fun t ht => payloads v hv t ht _

variable (admits : scope.types.Admits E)
include admits

theorem checkPayload (seen : List TypeKey) {s : Shape} (found : scope.types.Finds E s) (path : Path) :
    FailsIn E (scope.checkPayload seen path s) := by
  refine Collection.Finds.followInduction (motive := fun seen s => ∀ path, FailsIn E (scope.checkPayload seen path s))
    admits.records (fun seen s found ih it path => ?_) seen found path
  cases s with
  | primitive | literal | list | nullable =>
    rw [Scope.checkPayload]
    exact failsIn_error (admits.own _ trivial)
  | map | struct | placeholder | foreign =>
    rw [Scope.checkPayload]
    exact failsIn_ok _
  | tuple elements =>
    cases elements with
    | nil =>
      rw [Scope.checkPayload]
      exact failsIn_ok _
    | cons t ts =>
      rw [Scope.checkPayload]
      · exact failsIn_error (admits.own _ trivial)
      · intro ht
        cases ht
  | enum name vs tagging =>
    rw [Scope.checkPayload]
    split
    · refine checkVariants admits.own (fun v hv t ht path => ?_) path
      exact ih t (List.mem_flatMap.2 ⟨v, hv, Body.mem_kept_of_mem_payloads ht⟩) path
    · exact failsIn_ok _
  | reference id arguments =>
    rw [Scope.checkPayload]
    split
    · exact failsIn_ok _
    · next hs =>
      split
      · next hn => exact failsIn_error (found id arguments (.here _) hn path)
      · next r hr => exact it id arguments r rfl hs hr path

theorem checkTagged {name : String} {vs : List (Variant Shape)} {tagging : Option Tagging}
    (found : scope.types.Finds E (.enum name vs tagging)) (path : Path) :
    FailsIn E (scope.checkTagged path name vs) := by
  refine checkVariants admits.own (fun v hv t ht path => ?_) _
  have kept : t ∈ (Shape.enum name vs tagging).kept :=
    List.mem_flatMap.2 ⟨v, hv, Body.mem_kept_of_mem_payloads ht⟩
  exact admits.checkPayload [] (found.of_mem_kept kept) path

variable (scope) in
theorem represent {name : String} {vs : List (Variant Shape)} {tagging : Option Tagging}
    (found : scope.types.Finds E (.enum name vs tagging)) (path : Path) :
    FailsIn E (scope.represent path name vs tagging) := by
  unfold Scope.represent
  dsimp only
  split
  · exact failsIn_ok _
  · exact failsIn_ok _
  · exact (admits.checkTagged found _).map _
  · split
    · exact failsIn_error (admits.own _ trivial)
    · exact failsIn_ok _
  · next casing _ =>
    split
    · exact failsIn_map (failsIn_casing admits.own _ casing) _
    · exact failsIn_error (admits.own _ trivial)

end Collection.Admits

/-! ## Variants and their representation -/

/-- The variant has the form that its enum's representation asks for. -/
def Representation.Fits (r : Representation) (b : Body Shape) : Prop :=
  match r with
  | .strings _ => b.kept = []
  | .internal _ => b.payloads.length ≤ 1
  | _ => True

/-- The labels of a representation are those of the tagging that it resolves. -/
theorem Scope.labels_subset_of_represent {scope : Scope} {path : Path} {name : String} {vs : List (Variant Shape)}
    {tagging : Option Tagging} {r : Representation} (h : scope.represent path name vs tagging = .ok r) :
    r.labels ⊆ (scope.overrides.effective name tagging).labels := by
  unfold Scope.represent at h
  dsimp only at h
  split at h
  · cases h
    exact List.nil_subset _
  · cases h
    exact List.nil_subset _
  · next effective =>
    obtain ⟨_, -, h⟩ := bind_eq_ok.1 h
    cases h
    rw [effective]
    exact List.Subset.refl _
  · next effective =>
    split at h
    · cases h
    · cases h
      rw [effective]
      exact List.Subset.refl _
  · split at h
    · obtain ⟨rule, -, rfl⟩ := map_eq_ok.1 h
      exact List.nil_subset _
    · cases h

/-- A representation is given to variants of its form only. -/
theorem Scope.fits_of_represent {scope : Scope} {path : Path} {name : String} {vs : List (Variant Shape)}
    {tagging : Option Tagging} {r : Representation} (h : scope.represent path name vs tagging = .ok r) :
    ∀ v ∈ Variant.kept vs, r.Fits v.body := by
  intro v hv
  unfold Scope.represent at h
  dsimp only at h
  split at h
  · cases h
    exact trivial
  · cases h
    exact trivial
  · next tag _ =>
    obtain ⟨_, hc, h⟩ := bind_eq_ok.1 h
    cases h
    exact (Scope.checkVariants_eq_ok.1 hc v hv).1
  · split at h
    · cases h
    · cases h
      exact trivial
  · next casing _ =>
    split at h
    · next hu =>
      obtain ⟨rule, -, rfl⟩ := map_eq_ok.1 h
      have hb : v.body.isUnit = true := List.all_eq_true.1 hu v hv
      show v.body.kept = []
      cases hs : v.body with
      | unit => rfl
      | positional | named => simp [hs, Body.isUnit] at hb
    · cases h

theorem Body.kept_of_isUnit {b : Body Shape} (h : b.isUnit) : b.kept = [] := by
  cases b with
  | unit => rfl
  | positional | named => cases h

end ShapeExport
