import ShapeExport.Proofs.Scope.Failures
import ShapeExport.Proofs.Validation.Key
import ShapeExport.Proofs.Validation.Obligation

/-!
# What validation fails with

* `Scope.failsIn_isMapKey` : whether a shape is a map key is known unless a record is missing;
* `Scope.FailsOnly` : the failures among obligations are in a set;
* `Scope.failsIn_validate` : validation fails with an error that the collection covers.
-/

namespace ShapeExport.Scope

variable {scope : Scope} {E : Error → Prop} {free : Bool} {seen : List TypeKey}

/-! ## Map keys -/

theorem failsIn_isMapKey_body {b : Body Shape} (h : ∀ t ∈ b.kept, FailsIn E (scope.isMapKey free seen t))
    (untagged : Bool) : FailsIn E (b.isMapKey untagged (scope.isMapKey free seen)) := by
  unfold Body.isMapKey
  split
  · exact failsIn_ok _
  · exact failsIn_ok _
  · next fields =>
    rw [Body.kept, List.forall_mem_map] at h
    split
    · exact failsIn_ok _
    · split
      · exact failsIn_ok _
      · next f hf => exact h f (hf ▸ List.mem_cons_self)
      · exact failsIn_ok _

theorem failsIn_areMapKeys {vs : List (Variant Shape)} (h : ∀ v ∈ Variant.kept vs, ∀ t ∈ v.body.kept,
    FailsIn E (scope.isMapKey free seen t)) (untagged : Bool) :
    FailsIn E (scope.areMapKeys free seen untagged vs) := by
  rw [areMapKeys_eq_allM]
  exact failsIn_allM fun v hv => failsIn_isMapKey_body (h v hv) untagged

theorem failsIn_isMapKey (records : ∀ r ∈ scope.types.members, scope.types.Finds E r.shape) (free : Bool)
    (seen : List TypeKey) {s : Shape} (found : scope.types.Finds E s) :
    FailsIn E (scope.isMapKey free seen s) := by
  refine Collection.Finds.followInduction (motive := fun seen s => FailsIn E (scope.isMapKey free seen s)) records
    (fun seen s found ih it => ?_) seen found
  cases s with
  | enum name vs tagging =>
    rw [isMapKey]
    exact failsIn_areMapKeys (fun v hv t ht => ih t (List.mem_flatMap.2 ⟨v, hv, ht⟩)) _
  | nullable inner =>
    rw [isMapKey]
    exact ih inner List.mem_cons_self
  | reference id arguments =>
    rw [isMapKey]
    split
    · exact failsIn_ok _
    · next hs =>
      split
      · next hn => exact failsIn_error (found id arguments (.here _) hn [])
      · next r hr => exact it id arguments r rfl hs hr
  | _ =>
    rw [isMapKey]
    exact failsIn_ok _

/-! ## Obligations -/

/-- The failures among the obligations are in `E`. -/
def FailsOnly {types : Collection} (E : Error → Prop) (todo : List (Obligation types)) : Prop :=
  ∀ e, .fail e ∈ todo → E e

section Obligations

variable {types : Collection}

theorem failsOnly_nil : FailsOnly E ([] : List (Obligation types)) := by
  intro e he
  cases he

theorem FailsOnly.append {l r : List (Obligation types)} (hl : FailsOnly E l) (hr : FailsOnly E r) :
    FailsOnly E (l ++ r) :=
  fun e he => (List.mem_append.1 he).elim (hl e) (hr e)

theorem failsOnly_fail {e : Error} (h : E e) : FailsOnly E ([.fail e] : List (Obligation types)) := by
  intro e' he
  cases List.mem_singleton.1 he
  exact h

theorem failsOnly_ite {b : Prop} [Decidable b] {l r : List (Obligation types)} (hl : b → FailsOnly E l)
    (hr : ¬ b → FailsOnly E r) : FailsOnly E (if b then l else r) := by
  split
  · next h => exact hl h
  · next h => exact hr h

theorem failsOnly_failure {result : Except Error Unit} (h : FailsIn E result) :
    FailsOnly E (failure result : List (Obligation types)) := by
  cases result with
  | ok => exact failsOnly_nil
  | error e => exact failsOnly_fail (h e rfl)

end Obligations

variable (covers : scope.types.Covers E)
include covers

theorem failsIn_requireKey {s : Shape} (found : scope.types.Finds E s) (path : Path)
    (argument : Option (String × String)) : FailsIn E (scope.requireKey path argument s) := by
  have answer : FailsIn E (scope.isMapKey true [] s) := failsIn_isMapKey covers.records true [] found
  unfold requireKey
  split
  · exact failsIn_ok _
  · exact failsIn_error (covers.other _ trivial)
  · next e he => exact failsIn_error (answer e he)

theorem failsOnly_keyArguments {arguments : List Shape} (found : ∀ a ∈ arguments, scope.types.Finds E a)
    (path : Path) (r : Record) : FailsOnly E (scope.keyArguments path r arguments) := by
  intro e he
  obtain ⟨⟨name, a⟩, hz, he⟩ := List.mem_flatMap.1 he
  have argument : scope.types.Finds E a := found a (List.of_mem_zip hz).2
  exact failsOnly_ite (fun _ => failsOnly_failure (failsIn_requireKey covers argument _ _))
    (fun _ => failsOnly_nil) e he

theorem failsOnly_enumChecks {name : String} {vs : List (Variant Shape)} {tagging : Option Tagging}
    (found : scope.types.Finds E (.enum name vs tagging)) (path : Path) :
    FailsOnly E (scope.enumChecks path name vs tagging) := by
  unfold enumChecks
  refine .append (failsOnly_ite (fun _ => failsOnly_fail (covers.other _ trivial)) fun _ => failsOnly_nil) ?_
  split
  · exact failsOnly_failure (covers.admits.checkTagged found path)
  · exact failsOnly_nil

/-! ## Walks through a body -/

theorem fails_of_owes {s : Shape} (found : scope.types.Finds E s) {path : Path} {e : Error}
    (h : scope.Owes path s (.fail e)) : E e := by
  cases h with
  | key h =>
    have key := found.of_mem_kept (List.mem_cons_self (l := [_]))
    exact failsOnly_failure (failsIn_requireKey covers key path none) e h
  | onlyField | onlyVariantField => exact covers.other _ trivial
  | checks h => exact failsOnly_enumChecks covers found path e h
  | missing hn => exact found _ _ (.here _) hn path
  | arguments _ h => exact failsOnly_keyArguments covers (fun a ha => found.of_mem_kept ha) path _ e h

theorem failsOnly_obligations {s : Shape} (found : scope.types.Finds E s) (path : Path) :
    FailsOnly E (scope.obligations path s) := by
  induction s using Shape.childInduction generalizing path with
  | step s ih =>
    intro e he
    rcases mem_obligations.1 he with own | ⟨-, front, t, hl, ho⟩
    · exact fails_of_owes covers found own
    · have kept := hl.mem_kept
      exact ih t (Shape.mem_children_of_mem_kept kept) (found.of_mem_kept kept) _ e ho

/-! ## The walk through the collection -/

theorem failsIn_discharge (checked : List TypeKey) {todo : List (Obligation scope.types)} (h : FailsOnly E todo) :
    FailsIn E (scope.discharge checked todo) := by
  fun_induction discharge scope checked todo with
  | case1 => exact failsIn_ok _
  | case2 checked e => exact failsIn_error (h e List.mem_cons_self)
  | case3 checked r mem rest hc ih => exact ih fun e he => h e (List.mem_cons_of_mem _ he)
  | case4 checked r mem rest hc ih =>
    have own : FailsOnly E (scope.recordObligations r) := failsOnly_obligations covers (covers.records r mem) _
    exact ih (own.append fun e he => h e (List.mem_cons_of_mem _ he))

theorem failsIn_validate : FailsIn E scope.validate := by
  refine failsIn_map (failsIn_discharge covers [] ?_) _
  intro e he
  obtain ⟨⟨r, hr⟩, -, hv⟩ := List.mem_map.1 he
  cases hv

end ShapeExport.Scope
