import Mathlib
import ShapeExport.Proofs.Validation.Acceptance

/-!
# Validation record by record

The walk enters the record of a reference from the middle of another body, unless the record was entered
before. The result is that of a walk through each body that stops at references.

* `Scope.Fits` : what is required of one shape, apart from what it holds;
* `Scope.LocallyValid` : all that a body holds fits;
* `Scope.passed_obligations_iff` : a walk that stops at references finds no fault with such a body;
* `Scope.Step`, `Scope.Runs` : the walk through the collection, one obligation after the other;
* `Scope.validate_eq_ok_iff_runs`, `Scope.validate_eq_error_iff_runs` : the result is where it ends;
* `Scope.wellFounded_step` : it ends from any state, whatever the references;
* `Scope.Tracks` : what each step preserves of the bodies that were walked.
-/

namespace ShapeExport
open Relation

namespace Scope

variable {scope : Scope} {seen : List TypeKey} {path : Path}

/-! ## Payloads apart from paths -/

/-- The place of a payload decides about the message, and not about the answer. -/
theorem checkPayload_move {path' : Path} {s : Shape} (h : scope.checkPayload seen path s = .ok ()) :
    scope.checkPayload seen path' s = .ok () := by
  induction seen, s using Collection.followInduction (c := scope.types) generalizing path path' with
  | step seen s ih it =>
    cases s with
    | primitive | literal | list | nullable => simp [checkPayload] at h
    | map | struct | placeholder | foreign => rw [checkPayload]
    | tuple elements =>
      cases elements with
      | nil => rw [checkPayload]
      | cons e es => simp [checkPayload] at h
    | enum name vs tagging =>
      refine checkPayload_enum.2 fun hu => checkVariants_eq_ok.2 fun v hv => ?_
      obtain ⟨hl, hc⟩ := checkVariants_eq_ok.1 (checkPayload_enum.1 h hu) v hv
      exact ⟨hl, fun t ht => ih t (Shape.mem_children_enum hv (Body.mem_kept_of_mem_payloads ht)) (hc t ht)⟩
    | reference id arguments =>
      by_cases hs : id.key ∈ seen
      · exact checkPayload_reference.2 (Or.inl hs)
      · obtain hm | ⟨r, hr, hc⟩ := checkPayload_reference.1 h
        · exact absurd hm hs
        · exact checkPayload_reference.2 (Or.inr ⟨r, hr, it id arguments r rfl hs hr hc⟩)

theorem checkVariants_move {path' : Path} {vs : List (Variant Shape)}
    (h : scope.checkVariants seen path vs = .ok ()) : scope.checkVariants seen path' vs = .ok () := by
  refine checkVariants_eq_ok.2 fun v hv => ?_
  obtain ⟨hl, hc⟩ := checkVariants_eq_ok.1 h v hv
  exact ⟨hl, fun t ht => checkPayload_move (hc t ht)⟩

/-! ## What is required of a body -/

/-- What the walk requires of a shape itself. At a reference it looks at the record for the parameters
that are map keys, and does not enter it. -/
def Fits (scope : Scope) : Shape → Prop
  | .map key _ => scope.IsKey true [] key
  | .struct _ body => body.losesOnlyField = false
  | .enum name vs tagging =>
    (vs ≠ [] → Variant.kept vs ≠ []) ∧ (∀ v ∈ Variant.kept vs, v.body.losesOnlyField = false) ∧
      ∀ tag, scope.overrides.effective name tagging = .internal tag →
        scope.checkVariants [] [] vs = .ok ()
  | .reference id arguments => ∃ r, scope.types.resolve id.key = some r ∧
    ∀ name a, (name, a) ∈ r.parameters.zip arguments → name ∈ r.shape.mapKeyParameters →
      scope.IsKey true [] a
  | _ => True

/-- All that a body holds fits. References are followed into their arguments only. -/
def LocallyValid (scope : Scope) (s : Shape) : Prop := ∀ t, s.Holds t → scope.Fits t

theorem LocallyValid.of_mem {s c : Shape} (h : scope.LocallyValid s) (hc : c ∈ s.kept) :
    scope.LocallyValid c :=
  fun t ht => h t (.child hc ht)

/-! ## The walk that stops at references -/

theorem passed_append {types : Collection} {l r : List (Obligation types)} :
    Passed (l ++ r) ↔ Passed l ∧ Passed r := by
  simp [Passed, not_or, forall_and]

theorem passed_nil {types : Collection} : Passed ([] : List (Obligation types)) :=
  fun _ => List.not_mem_nil

theorem passed_failure_iff {types : Collection} {result : Except Error Unit} :
    Passed (failure result : List (Obligation types)) ↔ result = .ok () := by
  refine ⟨passed_failure, fun h => ?_⟩
  rw [h]
  exact passed_nil

theorem not_passed_fail {types : Collection} {e : Error} :
    ¬ Passed ([.fail e] : List (Obligation types)) :=
  fun h => h e List.mem_cons_self

theorem requireKey_eq_ok {argument : Option (String × String)} {s : Shape} :
    scope.requireKey path argument s = .ok () ↔ scope.IsKey true [] s := by
  refine ⟨isKey_of_requireKey, fun h => ?_⟩
  rw [requireKey, show scope.isMapKey true [] s = .ok true from h]

theorem passed_keyArguments {r : Record} {arguments : List Shape} :
    Passed (scope.keyArguments path r arguments) ↔
      ∀ name a, (name, a) ∈ r.parameters.zip arguments → name ∈ r.shape.mapKeyParameters →
        scope.IsKey true [] a := by
  unfold keyArguments
  constructor
  · intro h name a hz hm
    have required : Passed (failure (scope.requireKey path (some (name, r.name)) a) :
        List (Obligation scope.types)) :=
      h.mono fun o ho => List.mem_flatMap.2 ⟨(name, a), hz, by simpa [hm] using ho⟩
    exact requireKey_eq_ok.1 (passed_failure required)
  · intro h e he
    obtain ⟨⟨name, a⟩, hz, he⟩ := List.mem_flatMap.1 he
    by_cases hm : name ∈ r.shape.mapKeyParameters
    · have required : scope.requireKey path (some (name, r.name)) a = .ok () :=
        requireKey_eq_ok.2 (h name a hz hm)
      simp [hm, required, failure] at he
    · simp [hm] at he

theorem passed_enumChecks {name : String} {vs : List (Variant Shape)} {tagging : Option Tagging} :
    Passed (scope.enumChecks path name vs tagging) ↔ (vs ≠ [] → Variant.kept vs ≠ []) ∧
      ∀ tag, scope.overrides.effective name tagging = .internal tag →
        scope.checkVariants [] [] vs = .ok () := by
  unfold enumChecks
  rw [passed_append]
  refine and_congr ?_ ?_
  · split
    · next h => simp_all [not_passed_fail]
    · next h => simp_all [passed_nil]
  · split
    · next tag h =>
      rw [passed_failure_iff, checkTagged]
      exact ⟨fun hc _ _ => checkVariants_move hc, fun hc => checkVariants_move (hc tag h)⟩
    · next h => simp_all [passed_nil]

/-- A shape fits if no failure is owed at the shape itself. -/
theorem fits_iff {s : Shape} : scope.Fits s ↔ ∀ e, ¬ scope.Owes path s (.fail e) := by
  cases s with
  | primitive | literal | list | nullable | tuple | foreign | placeholder =>
    refine iff_of_true trivial fun e h => ?_
    cases h
  | map key value =>
    have required : scope.Fits (.map key value) ↔
        Passed (failure (scope.requireKey path none key) : List (Obligation scope.types)) := by
      rw [passed_failure_iff, requireKey_eq_ok, Fits]
    refine required.trans ⟨fun h e own => ?_, fun h e he => h e (.key he)⟩
    cases own with
    | key he => exact h e he
  | struct name body =>
    rw [Fits, Bool.eq_false_iff]
    refine ⟨fun h e own => ?_, fun h hl => h _ (.onlyField hl)⟩
    cases own with
    | onlyField hl => exact h hl
  | enum name vs tagging =>
    have checked : Passed (scope.enumChecks path name vs tagging) ↔ _ := passed_enumChecks
    constructor
    · rintro ⟨hk, hv, ht⟩ e own
      cases own with
      | checks he => exact checked.2 ⟨hk, ht⟩ e he
      | onlyVariantField hm hl => exact Bool.eq_false_iff.1 (hv _ hm) hl
    · intro h
      obtain ⟨hk, ht⟩ := checked.1 fun e he => h e (.checks he)
      exact ⟨hk, fun v hm => Bool.eq_false_iff.2 fun hl => h _ (.onlyVariantField hm hl), ht⟩
  | reference id arguments =>
    constructor
    · rintro ⟨r, hr, ha⟩ e own
      cases own with
      | missing hn =>
        rw [hr] at hn
        cases hn
      | arguments hq he =>
        obtain rfl := Option.some.inj (hr.symm.trans hq)
        exact passed_keyArguments.2 ha e he
    · intro h
      cases hr : scope.types.resolve id.key with
      | none => exact absurd (.missing hr) (h _)
      | some r => exact ⟨r, hr, passed_keyArguments.1 fun e he => h e (.arguments hr he)⟩

/-- The walk through a body that stops at references finds no fault exactly if all in it fits. -/
theorem passed_obligations_iff {s : Shape} :
    Passed (scope.obligations path s) ↔ scope.LocallyValid s := by
  constructor
  · intro h t ht
    obtain ⟨path', ho⟩ := obligations_of_holds ht h
    exact fits_iff.2 fun e own => ho e (mem_obligations.2 (Or.inl own))
  · intro h
    induction s using Shape.childInduction generalizing path with
    | step s ih =>
      intro e he
      rcases mem_obligations.1 he with own | ⟨-, front, t, hl, ho⟩
      · exact fits_iff.1 (h s (.here s)) e own
      · exact ih t (Shape.mem_children_of_mem_kept hl.mem_kept) (h.of_mem hl.mem_kept) e ho

/-! ## The walk through the collection -/

/-- The records whose bodies were entered, the last one first, and the obligations that are left. -/
structure Progress (scope : Scope) where
  walked : List Record
  todo : List (Obligation scope.types)

/-- The ids of the records that were entered. -/
def Progress.checked (p : Progress scope) : List TypeKey := p.walked.map (·.id.key)

/-- A visit is over at once if the record was entered before. Else its body is walked next. -/
inductive Step (scope : Scope) : Progress scope → Progress scope → Prop
  | pass {walked : List Record} {r : Record} {mem : r ∈ scope.types.members}
      {rest : List (Obligation scope.types)} : r.id.key ∈ walked.map (·.id.key) →
      Step scope ⟨walked, .visit r mem :: rest⟩ ⟨walked, rest⟩
  | walk {walked : List Record} {r : Record} {mem : r ∈ scope.types.members}
      {rest : List (Obligation scope.types)} : r.id.key ∉ walked.map (·.id.key) →
      Step scope ⟨walked, .visit r mem :: rest⟩ ⟨r :: walked, scope.recordObligations r ++ rest⟩

abbrev Runs (scope : Scope) : Progress scope → Progress scope → Prop := ReflTransGen scope.Step

def start (scope : Scope) : Progress scope := ⟨[], scope.visits⟩

/-- A visit enters a record that is not checked, or makes the list of obligations shorter. -/
theorem wellFounded_step (scope : Scope) : WellFounded fun q p => scope.Step p q := by
  let measure (p : Progress scope) : ℕ × ℕ := (scope.types.unchecked p.checked, p.todo.length)
  have decreases : ∀ {q p : Progress scope}, scope.Step p q →
      Prod.Lex (· < ·) (· < ·) (measure q) (measure p) := by
    intro q p h
    cases h with
    | pass => exact Prod.Lex.right _ (Nat.lt_succ_self _)
    | @walk _ r mem _ hn => exact Prod.Lex.left _ _ (Collection.unchecked_cons_lt mem hn)
  exact Subrelation.wf decreases (InvImage.wf measure (Nat.lt_wfRel.wf.prod_lex Nat.lt_wfRel.wf))

theorem Step.discharge {p q : Progress scope} (h : scope.Step p q) :
    scope.discharge p.checked p.todo = scope.discharge q.checked q.todo := by
  cases h with
  | @pass walked r mem rest hm =>
    rw [Scope.discharge]
    exact dif_pos hm
  | @walk walked r mem rest hn =>
    rw [Scope.discharge]
    exact dif_neg hn

theorem Runs.discharge {p q : Progress scope} (h : scope.Runs p q) :
    scope.discharge p.checked p.todo = scope.discharge q.checked q.todo := by
  induction h with
  | refl => rfl
  | tail _ hs ih => rw [ih, hs.discharge]

/-- Every run goes on until nothing is left to do, or until a violation is met. -/
theorem exists_runs (p : Progress scope) : ∃ q, scope.Runs p q ∧
    (q.todo = [] ∨ ∃ e rest, q.todo = .fail e :: rest) := by
  induction p using (wellFounded_step scope).induction with
  | _ p ih =>
    obtain ⟨walked, todo⟩ := p
    cases todo with
    | nil => exact ⟨_, .refl, Or.inl rfl⟩
    | cons o rest =>
      cases o with
      | fail e => exact ⟨_, .refl, Or.inr ⟨e, rest, rfl⟩⟩
      | visit r mem =>
        obtain ⟨q, hs⟩ : ∃ q, scope.Step ⟨walked, .visit r mem :: rest⟩ q := by
          by_cases hm : r.id.key ∈ walked.map (·.id.key)
          · exact ⟨_, .pass hm⟩
          · exact ⟨_, .walk hm⟩
        obtain ⟨q', hr, he⟩ := ih q hs
        exact ⟨q', .head hs hr, he⟩

theorem validate_eq (scope : Scope) :
    scope.validate = (scope.discharge scope.start.checked scope.start.todo).map fun _ => () :=
  rfl

theorem validate_of_runs_nil {walked : List Record} (h : scope.Runs scope.start ⟨walked, []⟩) :
    scope.validate = .ok () := by
  rw [validate_eq, Runs.discharge h, Scope.discharge]
  rfl

theorem validate_of_runs_fail {walked : List Record} {e : Error} {rest : List (Obligation scope.types)}
    (h : scope.Runs scope.start ⟨walked, .fail e :: rest⟩) : scope.validate = .error e := by
  rw [validate_eq, Runs.discharge h, Scope.discharge]
  rfl

theorem validate_eq_ok_iff_runs :
    scope.validate = .ok () ↔ ∃ walked, scope.Runs scope.start ⟨walked, []⟩ := by
  refine ⟨fun h => ?_, fun ⟨walked, hr⟩ => validate_of_runs_nil hr⟩
  obtain ⟨⟨walked, todo⟩, hr, rfl | ⟨e, rest, rfl⟩⟩ := exists_runs scope.start
  · exact ⟨walked, hr⟩
  · rw [validate_of_runs_fail hr] at h
    cases h

theorem validate_eq_error_iff_runs {e : Error} : scope.validate = .error e ↔
    ∃ walked rest, scope.Runs scope.start ⟨walked, .fail e :: rest⟩ := by
  refine ⟨fun h => ?_, fun ⟨walked, rest, hr⟩ => validate_of_runs_fail hr⟩
  obtain ⟨⟨walked, todo⟩, hr, rfl | ⟨e', rest, rfl⟩⟩ := exists_runs scope.start
  · rw [validate_of_runs_nil hr] at h
    cases h
  · rw [validate_of_runs_fail hr] at h
    cases h
    exact ⟨walked, rest, hr⟩

/-! ## Each body once -/

/-- No id is entered twice, and the records that were not entered are still to be visited. -/
structure Tracks (scope : Scope) (p : Progress scope) : Prop where
  nodup : p.checked.Nodup
  member : p.walked ⊆ scope.types.records
  turn : ∀ r ∈ scope.types.records, r.id.key ∈ p.checked ∨ ∃ mem, .visit r mem ∈ p.todo

theorem tracks_start (scope : Scope) : scope.Tracks scope.start where
  nodup := List.nodup_nil
  member := List.nil_subset _
  turn r hr := Or.inr ⟨Collection.mem_records.1 hr, List.mem_map.2 ⟨⟨r, hr⟩, List.mem_attach .., rfl⟩⟩

theorem Step.tracks {p q : Progress scope} (h : scope.Step p q) (hp : scope.Tracks p) :
    scope.Tracks q := by
  cases h with
  | @pass walked r mem rest hm =>
    refine ⟨hp.nodup, hp.member, fun s hs => (hp.turn s hs).elim Or.inl ?_⟩
    rintro ⟨mem', hv⟩
    rcases List.mem_cons.1 hv with hv | hv
    · cases hv
      exact Or.inl hm
    · exact Or.inr ⟨mem', hv⟩
  | @walk walked r mem rest hn =>
    refine ⟨List.nodup_cons.2 ⟨hn, hp.nodup⟩, ?_, fun s hs => ?_⟩
    · exact List.cons_subset.2 ⟨Collection.mem_records.2 mem, hp.member⟩
    · rcases hp.turn s hs with hc | ⟨mem', hv⟩
      · exact Or.inl (List.mem_cons_of_mem _ hc)
      · rcases List.mem_cons.1 hv with hv | hv
        · cases hv
          exact Or.inl List.mem_cons_self
        · exact Or.inr ⟨mem', List.mem_append_right _ hv⟩

theorem Runs.tracks {p q : Progress scope} (h : scope.Runs p q) (hp : scope.Tracks p) :
    scope.Tracks q := by
  induction h with
  | refl => exact hp
  | tail _ hs ih => exact hs.tracks ih

/-- When nothing is left to do, each record was entered once. -/
theorem Tracks.perm (distinct : (scope.types.records.map (·.id.key)).Nodup) {walked : List Record}
    (h : scope.Tracks ⟨walked, []⟩) : walked.Perm scope.types.records := by
  refine (List.perm_ext_iff_of_nodup (.of_map _ h.nodup) (.of_map _ distinct)).2 fun r => ?_
  refine ⟨fun hr => h.member hr, fun hr => ?_⟩
  obtain hc | ⟨mem, hv⟩ := h.turn r hr
  · obtain ⟨s, hs, hk⟩ := List.mem_map.1 hc
    obtain rfl := List.inj_on_of_nodup_map distinct (h.member hs) hr hk
    exact hs
  · cases hv

/-- The walk always ends. If the records have different ids, then it ends well exactly if each body by
itself is valid, and each body was walked once then. -/
theorem validate_record_by_record (scope : Scope) :
    (¬ ∃ run : ℕ → Progress scope, run 0 = scope.start ∧ ∀ n, scope.Step (run n) (run (n + 1))) ∧
    (scope.validate = .ok () ↔ ∃ walked, scope.Runs scope.start ⟨walked, []⟩) ∧
    ((scope.types.records.map (·.id.key)).Nodup →
      (scope.validate = .ok () ↔ ∀ r ∈ scope.types.records, scope.LocallyValid r.shape) ∧
      ∀ walked, scope.Runs scope.start ⟨walked, []⟩ → walked.Perm scope.types.records) := by
  refine ⟨?_, validate_eq_ok_iff_runs, fun distinct => ⟨?_, fun walked h => ?_⟩⟩
  · rintro ⟨run, -, hs⟩
    exact (wellFounded_iff_isEmpty_descending_chain.1 (wellFounded_step scope)).false ⟨run, hs⟩
  · rw [validate_eq_ok_of_nodup distinct]
    constructor
    · intro h r hr
      exact passed_obligations_iff.1 (h r (Collection.mem_records.1 hr))
    · intro h r hr
      exact passed_obligations_iff.2 (h r (Collection.mem_records.2 hr))
  · exact (Runs.tracks h (tracks_start scope)).perm distinct

/-! ## Records in a ring, and records that share an id -/

namespace Ring

def folder : Record where
  id := ⟨⟨.static, 1⟩, "Folder"⟩
  name := "Folder"
  shape := .map (.primitive .string) (.list (.reference ⟨⟨.static, 2⟩, "Link"⟩ []) none false)

def link : Record where
  id := ⟨⟨.static, 2⟩, "Link"⟩
  name := "Link"
  shape := .struct "Link" (.positional [{ name := none, ty := .reference folder.id [] }])

def ring : Scope := { types := .ofRecords [folder, link] }

theorem records_ring : ring.types.records = [folder, link] := by cbv

theorem validate_record_by_record_ring : (ring.types.records.map (·.id.key)).Nodup ∧
    ring.validate = .ok () ∧ ∃ walked, ring.Runs ring.start ⟨walked, []⟩ ∧ walked.Perm [folder, link] := by
  have distinct : (ring.types.records.map (·.id.key)).Nodup := by
    rw [records_ring]
    decide
  obtain ⟨-, hr, agrees⟩ := validate_record_by_record ring
  obtain ⟨hv, hp⟩ := agrees distinct
  have accepted : ring.validate = .ok () := by
    rw [hv, records_ring]
    intro r hm
    simp only [List.mem_cons, List.not_mem_nil, or_false] at hm
    have passed : Passed (ring.obligations [] r.shape) ↔ ring.LocallyValid r.shape := passed_obligations_iff
    refine passed.1 fun e he => ?_
    rcases hm with rfl | rfl
    · cbv at he
      rcases he with _ | ⟨_, ⟨⟩⟩
    · cbv at he
      rcases he with _ | ⟨_, ⟨⟩⟩
  obtain ⟨walked, hw⟩ := hr.1 accepted
  have all := hp walked hw
  rw [records_ring] at all
  exact ⟨distinct, accepted, walked, hw, all⟩

end Ring

namespace SharedId

def plain : Record where
  id := ⟨⟨.static, 1⟩, "Plain"⟩
  name := "Plain"
  shape := .primitive .string

/-- Its key is a list. -/
def refused : Record where
  id := plain.id
  name := "Refused"
  shape := .map (.list (.primitive .string) none false) (.primitive .i32)

def shared : Scope := { types := (Collection.ofRecords [plain]).insert ⟨⟨.static, 2⟩, "Refused"⟩ refused }

theorem refused_passed_over : shared.validate = .ok () ∧
    refused ∈ shared.types.records ∧ ¬ shared.LocallyValid refused.shape := by
  refine ⟨?_, ?_, fun h => not_isKey_list (h _ (.here _))⟩
  · cbv
  · exact Collection.mem_records.2 (Collection.mem_members_of_resolve (k := ⟨.static, 2⟩) rfl)

end SharedId

end Scope

end ShapeExport
