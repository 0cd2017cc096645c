import ShapeExport.Proofs.Collection.Records
import ShapeExport.Proofs.Validation.Obligation
import ShapeExport.Proofs.Validation.Recursion
import ShapeExport.Representation

/-!
# Scopes that agree

A scope is read through two questions: which record an id leads to, and which representation an enum
uses. Scopes that answer them alike cannot be told apart.

* `Scope.Agrees` : two scopes give the same answers, so what is checked against one comes out as against the other;
* `Obligation.move` : an obligation of one collection as one of another with the same members;
* `Scope.Agrees.obligations`, `Scope.Agrees.discharge` : a body leaves the same obligations, and they
  fail at the same one.
-/

namespace ShapeExport

namespace Scope

/-- The same records under all ids, and the same representations of all enums. -/
structure Agrees (s t : Scope) : Prop where
  resolve : ∀ k, s.types.resolve k = t.types.resolve k
  effective : ∀ enum declared,
    s.overrides.effective enum declared = t.overrides.effective enum declared

variable {s t : Scope}

namespace Agrees

variable (h : s.Agrees t)
include h

theorem target (path : Path) (id : TypeId) : s.target path id = t.target path id := by
  unfold Scope.target
  rw [h.resolve]

/-! ## Checks -/

theorem isMapKey (free : Bool) (seen : List TypeKey) (shape : Shape) :
    s.isMapKey free seen shape = t.isMapKey free seen shape := by
  have turn : ∀ answer x, s.keyTurn answer x = t.keyTurn answer x := by
    intro answer x
    funext free
    unfold keyTurn
    simp only [h.resolve, h.effective]
  exact congrFun (congrFun (s.runs_isMapKey.congr t.runs_isMapKey.equation turn) ⟨seen, shape⟩) free

theorem checkPayload (seen : List TypeKey) (path : Path) (shape : Shape) :
    s.checkPayload seen path shape = t.checkPayload seen path shape := by
  have turn : ∀ answer x, s.payloadTurn answer x = t.payloadTurn answer x := by
    intro answer x
    funext path
    unfold payloadTurn
    simp only [h.resolve, h.effective]
  exact congrFun (congrFun (s.runs_checkPayload.congr t.runs_checkPayload.equation turn) ⟨seen, shape⟩) path

theorem checkTagged (path : Path) (enum : String) (vs : List (Variant Shape)) :
    s.checkTagged path enum vs = t.checkTagged path enum vs := by
  rw [checkTagged_eq_turn, checkTagged_eq_turn]
  exact variantsTurn_congr (fun _ _ c _ path => h.checkPayload [] path c) _

theorem represent (path : Path) (enum : String) (vs : List (Variant Shape)) (tagging : Option Tagging) :
    s.represent path enum vs tagging = t.represent path enum vs tagging := by
  unfold Scope.represent
  simp only [h.effective enum tagging, h.checkTagged]

end Agrees

end Scope

/-! ## Obligations -/

/-- An obligation of one collection as one of another that has its members. -/
def Obligation.move {c d : Collection} (h : ∀ r ∈ c.members, r ∈ d.members) : Obligation c → Obligation d
  | fail e => .fail e
  | visit record mem => .visit record (h record mem)

namespace Scope

theorem failure_move {c d : Collection} (h : ∀ r ∈ c.members, r ∈ d.members) (result : Except Error Unit) :
    (failure result).map (Obligation.move h) = failure result := by
  cases result <;> rfl

variable {s t : Scope}

theorem obligations_missing {path : Path} {id : TypeId} {arguments : List Shape}
    (hr : s.types.resolve id.key = none) :
    s.obligations path (.reference id arguments) = [.fail (.invalidReference path id)] := by
  rw [obligations]
  split
  · rfl
  · next r hs =>
    rw [hr] at hs
    cases hs

theorem obligations_found {path : Path} {id : TypeId} {arguments : List Shape} {r : Record}
    (hr : s.types.resolve id.key = some r) :
    s.obligations path (.reference id arguments) =
      s.argumentObligations path arguments ++ (s.keyArguments path r arguments ++
        [.visit r (Collection.mem_members_of_resolve hr)]) := by
  rw [obligations]
  split
  · next hs =>
    rw [hr] at hs
    cases hs
  · next q hs =>
    obtain rfl : q = r := by
      rw [hr] at hs
      exact (Option.some.inj hs).symm
    rfl

namespace Agrees

variable (h : s.Agrees t)
include h

theorem members : ∀ r ∈ s.types.members, r ∈ t.types.members := by
  intro r hr
  obtain ⟨k, hk⟩ := Collection.mem_members.1 hr
  rw [h.resolve] at hk
  exact Collection.mem_members.2 ⟨k, hk⟩

theorem requireKey (path : Path) (argument : Option (String × String)) (shape : Shape) :
    s.requireKey path argument shape = t.requireKey path argument shape := by
  unfold Scope.requireKey
  rw [h.isMapKey]

theorem keyArguments (path : Path) (r : Record) (arguments : List Shape) :
    (s.keyArguments path r arguments).map (Obligation.move h.members) = t.keyArguments path r arguments := by
  unfold Scope.keyArguments
  rw [List.map_flatMap]
  congr 1
  funext ⟨name, argument⟩
  dsimp only
  split
  · rw [failure_move, h.requireKey]
  · rfl

theorem enumChecks (path : Path) (enum : String) (vs : List (Variant Shape)) (tagging : Option Tagging) :
    (s.enumChecks path enum vs tagging).map (Obligation.move h.members) =
      t.enumChecks path enum vs tagging := by
  unfold Scope.enumChecks
  rw [List.map_append, h.effective]
  congr 1
  · split <;> rfl
  · split
    · rw [failure_move, h.checkTagged]
    · rfl

/-- Wherever the shape stands, it leaves the same obligations in both scopes. -/
def SameObligations (shape : Shape) : Prop :=
  ∀ path, (s.obligations path shape).map (Obligation.move h.members) = t.obligations path shape

theorem argumentObligations {ss : List Shape} (hs : ∀ c ∈ ss, h.SameObligations c) (path : Path) :
    (s.argumentObligations path ss).map (Obligation.move h.members) = t.argumentObligations path ss := by
  rw [argumentObligations_eq_flatMap, argumentObligations_eq_flatMap, List.map_flatMap]
  exact List.flatMap_congr fun c hc => hs c hc path

theorem elementObligations {ss : List Shape} (hs : ∀ c ∈ ss, h.SameObligations c) (path : Path) (i : Nat) :
    (s.elementObligations path i ss).map (Obligation.move h.members) =
      t.elementObligations path i ss := by
  rw [elementObligations_eq_flatMap, elementObligations_eq_flatMap, List.map_flatMap]
  exact List.flatMap_congr fun c hc => hs c.1 (List.fst_mem_of_mem_zipIdx hc) _

/-- So does the walk through what is not skipped. -/
theorem unskipped {shape : Shape} {skip : Bool} (path : Path) (hs : h.SameObligations shape) :
    (if skip then [] else s.obligations path shape).map (Obligation.move h.members) =
      if skip then [] else t.obligations path shape := by
  cases skip with
  | true => rfl
  | false => exact hs path

theorem positionalObligations {fs : List (Field (Option String) Shape)}
    (hs : ∀ f ∈ fs, h.SameObligations f.ty) (path : Path) (i : Nat) :
    (s.positionalObligations path i fs).map (Obligation.move h.members) =
      t.positionalObligations path i fs := by
  rw [positionalObligations_eq_flatMap, positionalObligations_eq_flatMap, List.map_flatMap]
  exact List.flatMap_congr fun f hf => h.unskipped _ (hs f.1 (List.fst_mem_of_mem_zipIdx hf))

theorem namedObligations {fs : List (Field String Shape)} (hs : ∀ f ∈ fs, h.SameObligations f.ty)
    (path : Path) :
    (s.namedObligations path fs).map (Obligation.move h.members) = t.namedObligations path fs := by
  rw [namedObligations_eq_flatMap, namedObligations_eq_flatMap, List.map_flatMap]
  exact List.flatMap_congr fun f hf => h.unskipped _ (hs f hf)

theorem bodyObligations {b : Body Shape} (hs : ∀ c ∈ b.types, h.SameObligations c) (path : Path) :
    (s.bodyObligations path b).map (Obligation.move h.members) = t.bodyObligations path b := by
  cases b with
  | unit =>
    rw [Scope.bodyObligations, Scope.bodyObligations]
    rfl
  | positional fields =>
    rw [Body.types, List.forall_mem_map] at hs
    unfold Scope.bodyObligations
    rw [List.map_append, h.positionalObligations hs]
    congr 1
    split
    · split <;> rfl
    · rfl
  | named tag fields =>
    rw [Body.types, List.forall_mem_map] at hs
    rw [Scope.bodyObligations, Scope.bodyObligations]
    exact h.namedObligations hs path

theorem variantObligations {vs : List (Variant Shape)}
    (hs : ∀ v ∈ vs, ∀ c ∈ v.body.types, h.SameObligations c) (path : Path) :
    (s.variantObligations path vs).map (Obligation.move h.members) = t.variantObligations path vs := by
  rw [variantObligations_eq_flatMap, variantObligations_eq_flatMap, List.map_flatMap]
  refine List.flatMap_congr fun v hv => ?_
  split
  · rfl
  · exact h.bodyObligations (hs v hv) _

theorem obligations (shape : Shape) : h.SameObligations shape := by
  induction shape using Shape.childInduction with
  | step shape ih =>
    intro path
    cases shape with
    | primitive | literal | placeholder | foreign =>
      rw [Scope.obligations, Scope.obligations]
      rfl
    | list element | nullable element =>
      rw [Scope.obligations, Scope.obligations]
      exact ih element (List.mem_singleton_self _) path
    | map key value =>
      rw [Scope.obligations, Scope.obligations, List.map_append, List.map_append, failure_move,
        h.requireKey, ih key List.mem_cons_self, ih value (List.mem_cons_of_mem _ List.mem_cons_self)]
    | tuple elements =>
      rw [Scope.obligations, Scope.obligations]
      exact h.elementObligations ih path 0
    | struct name body =>
      rw [Scope.obligations, Scope.obligations]
      exact h.bodyObligations ih path
    | enum name vs tagging =>
      rw [Scope.obligations, Scope.obligations, List.map_append, h.enumChecks]
      congr 1
      exact h.variantObligations (fun v hv c hc => ih c (List.mem_flatMap.2 ⟨v, hv, hc⟩)) path
    | reference id arguments =>
      cases hr : s.types.resolve id.key with
      | none =>
        have ht := hr
        rw [h.resolve] at ht
        rw [obligations_missing hr, obligations_missing ht]
        rfl
      | some r =>
        have ht := hr
        rw [h.resolve] at ht
        have same : (s.argumentObligations path arguments).map (Obligation.move h.members) =
            t.argumentObligations path arguments := h.argumentObligations ih path
        rw [obligations_found hr, obligations_found ht, List.map_append, List.map_append, same,
          h.keyArguments]
        rfl

/-! ## Validation -/

theorem discharge (checked : List TypeKey) (todo : List (Obligation s.types)) :
    s.discharge checked todo = t.discharge checked (todo.map (Obligation.move h.members)) := by
  fun_induction Scope.discharge s checked todo with
  | case1 checked => rw [List.map_nil, Scope.discharge]
  | case2 checked e rest => rw [List.map_cons, Obligation.move, Scope.discharge]
  | case3 checked r mem rest hc ih =>
    rw [List.map_cons, Obligation.move, Scope.discharge, dif_pos hc]
    exact ih
  | case4 checked r mem rest hc ih =>
    -- Both lists go on with the body of the record, so the first failure is the same one.
    have same := h.obligations r.shape [r.name]
    rw [List.map_cons, Obligation.move, Scope.discharge, dif_neg hc, ih, List.map_append]
    congr 2

theorem visits (hr : s.types.records = t.types.records) :
    s.visits.map (Obligation.move h.members) = t.visits := by
  unfold Scope.visits
  rw [List.map_map]
  apply List.ext_getElem
  · simp [hr]
  · intro i _ _
    simp [Obligation.move, hr]

theorem validate (hr : s.types.records = t.types.records) : s.validate = t.validate := by
  unfold Scope.validate
  rw [h.discharge, h.visits hr]

end Agrees

end Scope

end ShapeExport
