import ShapeExport.Proofs.Scope.Walk
import ShapeExport.Proofs.Validation.Key
import ShapeExport.Proofs.Validation.Payload

/-!
# The checks as recursions

The check of map keys and the check of payloads, one turn at a time. A turn is the text of the check with the calls in
it left open, so the calls that a check makes are those that its turn asks for.

* `Walk.keys`, `Walk.payloads` : the walks of the two checks;
* `Scope.keyTurn`, `Scope.payloadTurn` : a turn of each, at one spot;
* `Scope.variantsTurn` : what is checked of the variants of an enum;
* `Scope.runs_isMapKey`, `Scope.runs_checkPayload` : the checks run along their walks.
-/

namespace ShapeExport

/-! ## Walks -/

namespace Walk

/-- The walk of the check for map keys: it looks into what may be null and into variants with one field. -/
def keys : Walk where
  parts
    | .nullable inner => [inner]
    | .enum _ vs _ => (Variant.kept vs).flatMap (·.body.payloads)
    | _ => []
  enters _ _ := True
  mem_children := by
    intro s t ht
    cases s with
    | nullable inner => exact ht
    | enum name vs tagging =>
      obtain ⟨v, hv, ht⟩ := List.mem_flatMap.1 ht
      exact Shape.mem_children_enum hv (Body.mem_kept_of_mem_payloads ht)
    | _ => cases ht

/-- The walk of the check for payloads: it looks into variants with one field. -/
def payloads : Walk where
  parts
    | .enum _ vs _ => (Variant.kept vs).flatMap (·.body.payloads)
    | _ => []
  enters _ _ := True
  mem_children := by
    intro s t ht
    cases s with
    | enum name vs tagging =>
      obtain ⟨v, hv, ht⟩ := List.mem_flatMap.1 ht
      exact Shape.mem_children_enum hv (Body.mem_kept_of_mem_payloads ht)
    | _ => cases ht

end Walk

namespace Body

variable {b : Body Shape}

theorem isMapKey_congr {key key' : Shape → Except Error Bool} (same : ∀ t ∈ b.payloads, key t = key' t)
    (untagged : Bool) : b.isMapKey untagged key = b.isMapKey untagged key' := by
  cases b with
  | unit | named => rfl
  | positional fields =>
    rw [payloads, List.forall_mem_map] at same
    rw [isMapKey, isMapKey]
    split
    · rfl
    · split
      · rfl
      · next f hf => exact same f (hf ▸ List.mem_cons_self)
      · rfl

theorem checkPayloads_congr {check check' : Path → Shape → Except Error Unit} {path : Path}
    (same : ∀ t ∈ b.payloads, check path t = check' path t) :
    b.checkPayloads check path = b.checkPayloads check' path := by
  unfold checkPayloads
  split
  · rfl
  · next t ht => exact same t (ht ▸ List.mem_cons_self)
  · rfl

end Body

namespace Scope

variable (scope : Scope)

/-! ## Map keys -/

/-- One turn of the check for map keys. -/
def keyTurn (answer : Walk.Spot → Bool → Except Error Bool) (x : Walk.Spot) (free : Bool) : Except Error Bool :=
  match x.shape with
  | .primitive kind => .ok (kind.isNumber || kind.isStringLike)
  | .literal value => .ok value.isKey
  | .nullable inner => answer ⟨x.entered, inner⟩ free
  | .placeholder _ => .ok free
  | .foreign _ => .ok true
  | .enum name vs tagging =>
    let untagged := (scope.overrides.effective name tagging).isUntagged
    (Variant.kept vs).allM fun v => v.body.isMapKey untagged fun t => answer ⟨x.entered, t⟩ free
  | .reference id arguments =>
    if id.key ∈ x.entered then .ok false
    else match scope.types.resolve id.key with
      | none => .error (.invalidReference [] id)
      | some r => answer ⟨id.key :: x.entered, r.expand arguments⟩ free
  | .list .. | .map .. | .tuple _ | .struct .. => .ok false

theorem runs_isMapKey :
    Walk.keys.Runs scope.types scope.keyTurn fun x free => scope.isMapKey free x.entered x.shape where
  equation := by
    rintro ⟨seen, s⟩
    funext free
    show scope.isMapKey free seen s = scope.keyTurn _ ⟨seen, s⟩ free
    unfold keyTurn
    cases s with
    | enum name vs tagging => rw [isMapKey, areMapKeys_eq_allM]
    | reference id arguments =>
      rw [isMapKey]
      dsimp only
      by_cases hn : id.key ∈ seen
      · rw [dif_pos hn, if_pos hn]
      · rw [dif_neg hn, if_neg hn]
        split
        · next hr => rw [hr]
        · next r hr => rw [hr]
    | _ => rw [isMapKey]
  calls := by
    rintro ⟨seen, s⟩ g h same
    funext free
    unfold keyTurn
    cases s with
    | nullable inner => exact congrFun (same _ (.part (List.mem_singleton_self inner))) free
    | enum name vs tagging =>
      apply allM_congr
      intro v hv
      apply Body.isMapKey_congr
      intro t ht
      exact congrFun (same _ (.part (List.mem_flatMap.2 ⟨v, hv, ht⟩))) free
    | reference id arguments =>
      dsimp only
      split
      · rfl
      · next hn =>
        split
        · rfl
        · next r hr => exact congrFun (same _ (.enter hr trivial hn)) free
    | _ => rfl

/-! ## Payloads of internal tags -/

/-- What is checked of the variants of an enum, where `check` goes on with a payload. -/
def variantsTurn (check : Path → Shape → Except Error Unit) (path : Path) (vs : List (Variant Shape)) :
    Except Error Unit :=
  forM (Variant.kept vs) fun v => v.body.checkPayloads check (path ++ [v.name])

theorem variantsTurn_congr {check check' : Path → Shape → Except Error Unit} {vs : List (Variant Shape)}
    (same : ∀ v ∈ Variant.kept vs, ∀ t ∈ v.body.payloads, ∀ path, check path t = check' path t) (path : Path) :
    variantsTurn check path vs = variantsTurn check' path vs :=
  forM_congr fun v hv => Body.checkPayloads_congr fun t ht => same v hv t ht _

/-- One turn of the check for payloads. -/
def payloadTurn (answer : Walk.Spot → Path → Except Error Unit) (x : Walk.Spot) (path : Path) : Except Error Unit :=
  match x.shape with
  | .map .. | .struct .. | .placeholder _ | .foreign _ | .tuple [] => .ok ()
  | .enum name vs tagging =>
    if (scope.overrides.effective name tagging).isUntagged then
      variantsTurn (fun path t => answer ⟨x.entered, t⟩ path) path vs
    else .ok ()
  | .reference id arguments =>
    if id.key ∈ x.entered then .ok ()
    else match scope.types.resolve id.key with
      | none => .error (.invalidReference path id)
      | some r => answer ⟨id.key :: x.entered, r.expand arguments⟩ path
  | .primitive _ | .literal _ | .list .. | .nullable _ | .tuple _ => .error (.invalidTagged path .notAnObject)

theorem runs_checkPayload :
    Walk.payloads.Runs scope.types scope.payloadTurn fun x path => scope.checkPayload x.entered path x.shape where
  equation := by
    rintro ⟨seen, s⟩
    funext path
    show scope.checkPayload seen path s = scope.payloadTurn _ ⟨seen, s⟩ path
    unfold payloadTurn
    cases s with
    | tuple elements =>
      cases elements with
      | nil => rw [checkPayload]
      | cons t ts =>
        rw [checkPayload]
        intro h
        cases h
    | enum name vs tagging => rw [checkPayload, checkVariants_eq_forM]; rfl
    | reference id arguments =>
      rw [checkPayload]
      dsimp only
      by_cases hn : id.key ∈ seen
      · rw [dif_pos hn, if_pos hn]
      · rw [dif_neg hn, if_neg hn]
        split
        · next hr => rw [hr]
        · next r hr => rw [hr]
    | _ => rw [checkPayload]
  calls := by
    rintro ⟨seen, s⟩ g h same
    funext path
    unfold payloadTurn
    cases s with
    | tuple elements => cases elements <;> rfl
    | enum name vs tagging =>
      dsimp only
      split
      · refine variantsTurn_congr (fun v hv t ht path => ?_) path
        exact congrFun (same _ (.part (List.mem_flatMap.2 ⟨v, hv, ht⟩))) path
      · rfl
    | reference id arguments =>
      dsimp only
      split
      · rfl
      · next hn =>
        split
        · rfl
        · next r hr => exact congrFun (same _ (.enter hr trivial hn)) path
    | _ => rfl

/-- The check of an enum is a turn at its variants. -/
theorem checkTagged_eq_turn (path : Path) (enum : String) (vs : List (Variant Shape)) :
    scope.checkTagged path enum vs = variantsTurn (scope.checkPayload []) (if path.isEmpty then [enum] else path) vs :=
  checkVariants_eq_forM vs

end Scope

end ShapeExport
