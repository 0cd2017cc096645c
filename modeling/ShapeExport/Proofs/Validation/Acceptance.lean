import ShapeExport.Proofs.Collection.Records
import ShapeExport.Proofs.Validation.Key
import ShapeExport.Proofs.Validation.Obligation
import ShapeExport.Proofs.Validation.Payload

/-!
# What an accepted collection satisfies

* `Scope.Passed` : no obligation is a failure;
* `Scope.obligations_of_holds` : the walk through a shape comes to all that it holds;
* `Scope.Accepts` : what a shape that passed holds;
* `Scope.validate_eq_ok` : a collection is accepted exactly if each record passes.
-/

namespace ShapeExport

namespace Scope

variable {scope : Scope} {path : Path}

/-- No obligation is a failure. -/
def Passed {types : Collection} (todo : List (Obligation types)) : Prop := ∀ e, .fail e ∉ todo

theorem Passed.mono {types : Collection} {todo todo' : List (Obligation types)} (hs : todo' ⊆ todo)
    (h : Passed todo) : Passed todo' :=
  fun e he => h e (hs he)

theorem passed_failure {types : Collection} {result : Except Error Unit}
    (h : Passed (failure result : List (Obligation types))) : result = .ok () := by
  cases result with
  | ok => rfl
  | error e => exact absurd List.mem_cons_self (h e)

/-! ## The walk through a body -/

theorem goesOn_of_passed {s : Shape} (hp : Passed (scope.obligations path s)) : scope.GoesOn s := by
  cases s with
  | reference id arguments =>
    cases hr : scope.types.resolve id.key with
    | none => exact absurd (mem_obligations.2 (Or.inl (.missing hr))) (hp _)
    | some r => exact ⟨r, hr⟩
  | _ => trivial

/-- The walk through a shape goes through its kept children, unless a reference leads nowhere. -/
theorem obligations_of_mem_kept {s c : Shape} (hp : Passed (scope.obligations path s)) (h : c ∈ s.kept) :
    ∃ path', scope.obligations path' c ⊆ scope.obligations path s := by
  obtain ⟨front, hl⟩ := Shape.exists_labels h
  exact ⟨path ++ front, fun o ho => mem_obligations.2 (Or.inr ⟨goesOn_of_passed hp, front, c, hl, ho⟩)⟩

/-- The walk comes to all that a shape holds. -/
theorem obligations_of_holds {s t : Shape} (h : s.Holds t) (hp : Passed (scope.obligations path s)) :
    ∃ path', Passed (scope.obligations path' t) := by
  induction h generalizing path with
  | here s => exact ⟨path, hp⟩
  | child hc _ ih =>
    obtain ⟨path', hs⟩ := obligations_of_mem_kept hp hc
    exact ih (hp.mono hs)

/-- What holds of each shape in a body that passed. -/
structure Accepts (scope : Scope) (s : Shape) : Prop where
  key {k v : Shape} : s.Holds (.map k v) → scope.IsKey true [] k
  /-- Arguments of parameters that the record uses as map keys are map keys. -/
  argument {id : TypeId} {arguments : List Shape} {r : Record} {name : String} {a : Shape} :
    s.Holds (.reference id arguments) → scope.types.resolve id.key = some r →
    (name, a) ∈ r.parameters.zip arguments → name ∈ r.shape.mapKeyParameters → scope.IsKey true [] a
  tagged {name : String} {vs : List (Variant Shape)} {tagging : Option Tagging} {tag : Json} :
    s.Holds (.enum name vs tagging) → scope.overrides.effective name tagging = .internal tag →
    ∃ path, scope.checkVariants [] path vs = .ok ()

theorem isKey_of_requireKey {argument : Option (String × String)} {s : Shape}
    (h : scope.requireKey path argument s = .ok ()) : scope.IsKey true [] s := by
  unfold requireKey at h
  split at h
  · next hk => exact hk
  · cases h
  · cases h

theorem accepts_of_passed {s : Shape} (hp : Passed (scope.obligations path s)) : scope.Accepts s where
  key h := by
    obtain ⟨path', ho⟩ := obligations_of_holds h hp
    exact isKey_of_requireKey (passed_failure fun e he => ho e (mem_obligations.2 (Or.inl (.key he))))
  argument {id arguments r name a} h hr hz hm := by
    obtain ⟨path', ho⟩ := obligations_of_holds h hp
    have required : Passed (failure (scope.requireKey path' (some (name, r.name)) a) :
        List (Obligation scope.types)) := by
      intro e he
      have checks : .fail e ∈ scope.keyArguments path' r arguments :=
        List.mem_flatMap.2 ⟨(name, a), hz, by simpa [hm] using he⟩
      exact ho e (mem_obligations.2 (Or.inl (.arguments hr checks)))
    exact isKey_of_requireKey (passed_failure required)
  tagged {name vs tagging tag} h he := by
    obtain ⟨path', ho⟩ := obligations_of_holds h hp
    have tagged : Passed (failure (scope.checkTagged path' name vs) : List (Obligation scope.types)) := by
      intro e hf
      have checks : .fail e ∈ scope.enumChecks path' name vs tagging := by
        rw [enumChecks, he]
        exact List.mem_append_right _ hf
      exact ho e (mem_obligations.2 (Or.inl (.checks checks)))
    have hc : scope.checkTagged path' name vs = .ok () := passed_failure tagged
    exact ⟨_, hc⟩

/-! ## The visits to all records -/

theorem discharge_ok {checked visited : List TypeKey} {todo : List (Obligation scope.types)}
    (h : scope.discharge checked todo = .ok visited) : checked ⊆ visited ∧ Passed todo ∧
      (∀ r mem, .visit r mem ∈ todo → r.id.key ∈ visited) ∧
      ∀ k ∈ visited, k ∉ checked →
        ∃ r ∈ scope.types.members, r.id.key = k ∧ Passed (scope.recordObligations r) := by
  induction checked, todo using discharge.induct scope with
  | case1 checked =>
    rw [discharge] at h
    cases h
    exact ⟨List.Subset.refl _, fun _ => List.not_mem_nil, fun _ _ h => absurd h List.not_mem_nil,
      fun k hk hn => absurd hk hn⟩
  | case2 checked e rest =>
    rw [discharge] at h
    cases h
  | case3 checked r mem rest hc ih =>
    rw [discharge, dif_pos hc] at h
    obtain ⟨hs, hp, hv, ha⟩ := ih h
    refine ⟨hs, fun e he => ?_, fun r' mem' hm => ?_, ha⟩
    · rcases List.mem_cons.1 he with he | he
      · cases he
      · exact hp e he
    · rcases List.mem_cons.1 hm with hm | hm
      · cases hm
        exact hs hc
      · exact hv r' mem' hm
  | case4 checked r mem rest hc ih =>
    rw [discharge, dif_neg hc] at h
    obtain ⟨hs, hp, hv, ha⟩ := ih h
    refine ⟨List.Subset.trans (List.subset_cons_self _ _) hs, fun e he => ?_, fun r' mem' hm => ?_, ?_⟩
    · rcases List.mem_cons.1 he with he | he
      · cases he
      · exact hp e (List.mem_append_right _ he)
    · rcases List.mem_cons.1 hm with hm | hm
      · cases hm
        exact hs List.mem_cons_self
      · exact hv r' mem' (List.mem_append_right _ hm)
    · intro k hk hn
      by_cases e : k = r.id.key
      · exact ⟨r, mem, e.symm, hp.mono (List.subset_append_left _ _)⟩
      · exact ha k hk (by simp [e, hn])

/-- If each record passes, then so does each visit. -/
theorem discharge_of_passed (hr : ∀ r ∈ scope.types.members, Passed (scope.recordObligations r))
    {checked : List TypeKey} {todo : List (Obligation scope.types)} (hp : Passed todo) :
    ∃ visited, scope.discharge checked todo = .ok visited := by
  induction checked, todo using discharge.induct scope with
  | case1 checked => exact ⟨checked, by rw [discharge]⟩
  | case2 checked e rest => exact absurd List.mem_cons_self (hp e)
  | case3 checked r mem rest hc ih =>
    rw [discharge, dif_pos hc]
    exact ih (hp.mono (List.subset_cons_self _ _))
  | case4 checked r mem rest hc ih =>
    rw [discharge, dif_neg hc]
    refine ih fun e he => ?_
    rcases List.mem_append.1 he with he | he
    · exact hr r mem e he
    · exact hp e (List.mem_cons_of_mem _ he)

/-- Each record is visited at its first turn, so the order of visits does not matter. -/
theorem validate_eq_ok_of_nodup (distinct : (scope.types.records.map (·.id.key)).Nodup) :
    scope.validate = .ok () ↔ ∀ r ∈ scope.types.members, Passed (scope.recordObligations r) := by
  unfold validate
  constructor
  · intro h r hr
    cases hd : scope.discharge [] scope.visits with
    | error e => simp [hd, Except.map] at h
    | ok visited =>
      obtain ⟨-, -, hv, ha⟩ := discharge_ok hd
      have hm : r.id.key ∈ visited := by
        refine hv r hr (List.mem_map.2 ⟨⟨r, Collection.mem_records.2 hr⟩, ?_, rfl⟩)
        exact List.mem_attach ..
      obtain ⟨r', hr', hk, hp⟩ := ha _ hm List.not_mem_nil
      obtain rfl := List.inj_on_of_nodup_map distinct (Collection.mem_records.2 hr')
        (Collection.mem_records.2 hr) hk
      exact hp
  · intro h
    have visits : Passed scope.visits := by
      intro e he
      obtain ⟨_, -, he⟩ := List.mem_map.1 he
      cases he
    obtain ⟨visited, hd⟩ := discharge_of_passed h visits
    rw [hd]
    rfl

theorem validate_eq_ok (own : scope.types.OwnIds) : scope.validate = .ok () ↔
    ∀ r ∈ scope.types.members, Passed (scope.recordObligations r) :=
  validate_eq_ok_of_nodup own.nodup

theorem accepts_of_validate (own : scope.types.OwnIds) (h : scope.validate = .ok ()) {r : Record}
    (hr : r ∈ scope.types.members) : scope.Accepts r.shape :=
  accepts_of_passed ((validate_eq_ok own).1 h r hr)

end Scope

end ShapeExport
