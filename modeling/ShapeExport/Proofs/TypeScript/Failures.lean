import ShapeExport.Proofs.Scope.Failures
import ShapeExport.Proofs.Shape.WideIntegers
import ShapeExport.Proofs.TypeScript.Formed

/-!
# What TypeScript types fail with

* `Export.TypeRefuses` : wherever a shape stands, its type fails with an error of a set only, and it has none
  under a condition;
* `Export.refuses_typeExpr` : a shape that finds its records fails with an error that the collection admits, and
  where wide integers are forbidden, one at a kept position makes it fail.
-/

namespace ShapeExport

theorem Body.kept_of_allSkipped {b : Body Shape} (h : b.allSkipped) : b.kept = [] := by
  cases b with
  | unit => rfl
  | positional fields =>
    rw [Body.kept, List.map_eq_nil_iff, Field.kept, List.filter_eq_nil_iff]
    intro f hf
    simpa using List.all_eq_true.1 h f hf
  | named => cases h

namespace Export
open TypeScript TypeScript.TypeExpr

variable {x : Export} {E : Error → Prop} {M : Shape → Prop}

/-- Wherever the shape stands, its type fails with an error of the set only, and it has none if `N`. -/
def TypeRefuses (x : Export) (E : Error → Prop) (N : Prop) (s : Shape) : Prop :=
  ∀ path, Refuses E N (x.typeExpr path s)

/-! ## Lists of shapes and fields -/

theorem refuses_argumentExprs {ss : List Shape} (hs : ∀ c ∈ ss, x.TypeRefuses E (M c) c) (path : Path) :
    Refuses E (∃ c ∈ ss, M c) (x.argumentExprs path ss) := by
  rw [argumentExprs_eq_mapM]
  exact refuses_mapM fun c hc => hs c hc path

theorem refuses_elementExprs {ss : List Shape} (hs : ∀ c ∈ ss, x.TypeRefuses E (M c) c) (path : Path) (i : Nat) :
    Refuses E (∃ c ∈ ss, M c) (x.elementExprs path i ss) := by
  rw [elementExprs_eq_mapM]
  exact refuses_mapM_zipIdx (fun c hc j => hs c hc _) i

theorem refuses_memberExprs {fs : List (Field String Shape)}
    (hs : ∀ c ∈ (Field.kept fs).map (·.ty), x.TypeRefuses E (M c) c) (path : Path) :
    Refuses E (∃ c ∈ (Field.kept fs).map (·.ty), M c) (x.memberExprs path fs) := by
  rw [memberExprs_eq_mapM]
  have each : ∀ f ∈ Field.kept fs, Refuses E (M f.ty) (x.memberExpr path f) := fun f hf =>
    (hs f.ty (List.mem_map_of_mem hf) _).map _
  refine (refuses_mapM each).of_imp ?_
  rintro ⟨_, hc, hm⟩
  obtain ⟨f, hf, rfl⟩ := List.mem_map.1 hc
  exact ⟨f, hf, hm⟩

/-- Only the first kept field is rendered beside a tag. -/
theorem refuses_taggedPayload {fs : List (Field (Option String) Shape)}
    (hs : ∀ c ∈ (Field.kept fs).map (·.ty), x.TypeRefuses E (M c) c) (single : (Field.kept fs).length ≤ 1)
    (tag : Member TypeExpr) (path : Path) :
    Refuses E (∃ c ∈ (Field.kept fs).map (·.ty), M c) (x.taggedPayload tag path fs) := by
  rw [← List.length_map (fun f => f.ty)] at single
  rw [taggedPayload_eq]
  split
  · next none =>
    rw [none]
    exact refuses_nil _
  · next s rest payloads =>
    rw [payloads] at hs single ⊢
    obtain rfl : rest = [] := List.length_eq_zero_iff.1 (by simpa using single)
    exact (refuses_map (hs s List.mem_cons_self path) _).singleton

/-! ## Bodies and variants -/

theorem refuses_bodyExpr {b : Body Shape} (hs : ∀ c ∈ b.kept, x.TypeRefuses E (M c) c) (path : Path)
    (name : String) : Refuses E (∃ c ∈ b.kept, M c) (x.bodyExpr path name b) := by
  cases b with
  | unit =>
    rw [bodyExpr]
    exact refuses_nil _
  | positional fields =>
    unfold bodyExpr
    split
    · next f =>
      split
      · next hf =>
        rw [Body.kept, Field.kept_cons_of_skip hf]
        exact refuses_nil _
      · next hf =>
        rw [Body.kept, Field.kept_cons_of_not_skip hf] at hs ⊢
        exact (hs f.ty List.mem_cons_self path).singleton
    · rw [positionalExprs_eq]
      exact (refuses_elementExprs hs path 0).map _
  | named tag fields =>
    rw [bodyExpr]
    refine (refuses_memberExprs hs path).before fun members => ?_
    split <;> exact failsIn_ok _

theorem refuses_variantExpr (labels : ∀ e, e.IsBadLabel → E e) {r : Representation} {b : Body Shape}
    (hs : ∀ c ∈ b.kept, x.TypeRefuses E (M c) c) (fits : r.Fits b) (path : Path) (key : String) :
    Refuses E (∃ c ∈ b.kept, M c) (x.variantExpr r path key b) := by
  have body : Refuses E (∃ c ∈ b.kept, M c) (x.bodyExpr path key b) := refuses_bodyExpr hs path key
  have none {type : TypeExpr} (h : b.kept = []) : Refuses E (∃ c ∈ b.kept, M c) (.ok type) := by
    rw [h]
    exact refuses_nil type
  cases r with
  | strings rule =>
    rw [variantExpr]
    exact none fits
  | untagged =>
    rw [variantExpr]
    exact body
  | external =>
    rw [variantExpr]
    split
    · next hu => exact none (Body.kept_of_isUnit hu)
    · split
      · next ha => exact none (Body.kept_of_allSkipped ha)
      · exact body.map _
  | internal tag =>
    rw [variantExpr]
    refine (failsIn_labelText labels tag).after fun text _ => ?_
    cases b with
    | unit => exact none rfl
    | positional fields =>
      rw [Representation.Fits, Body.payloads, List.length_map] at fits
      exact refuses_taggedPayload hs fits _ path
    | named inner fields => exact (refuses_memberExprs hs path).map _
  | adjacent tag content =>
    rw [variantExpr]
    refine (failsIn_labelText labels tag).after fun text _ => ?_
    split
    · next hu => exact none (Body.kept_of_isUnit hu)
    · exact body.before fun _ => (failsIn_labelText labels content).map _

theorem refuses_variantExprs (labels : ∀ e, e.IsBadLabel → E e) {r : Representation} {vs : List (Variant Shape)}
    (hs : ∀ v ∈ Variant.kept vs, ∀ c ∈ v.body.kept, x.TypeRefuses E (M c) c)
    (fits : ∀ v ∈ Variant.kept vs, r.Fits v.body) (path : Path) :
    Refuses E (∃ v ∈ Variant.kept vs, ∃ c ∈ v.body.kept, M c) (x.variantExprs r path vs) := by
  rw [variantExprs_eq_mapM]
  exact refuses_mapM fun v hv => refuses_variantExpr labels (hs v hv) (fits v hv) _ _

/-! ## Shapes -/

theorem refuses_primitiveExpr {kind : Primitive} (wide : kind.isBigInt → WideIn E) (path : Path) :
    Refuses E (x.config.bigint = .fail ∧ kind.isBigInt) (x.primitiveExpr path kind) := by
  unfold primitiveExpr
  split
  · next hk =>
    refine ⟨(failsIn_bigIntAt (wide hk) x.config path).bind fun policy _ => ?_, fun ⟨hf, _⟩ type h => ?_⟩
    · split <;> exact failsIn_ok _
    · rw [Config.bigIntAt, if_pos hf] at h
      cases h
  · next hk =>
    have fine {type : TypeExpr} : Refuses E (x.config.bigint = .fail ∧ kind.isBigInt) (.ok type) :=
      (refuses_ok type).of_imp fun h => hk h.2
    split
    · exact fine
    · split <;> exact fine

theorem failsIn_target {id : TypeId} {arguments : List Shape}
    (found : x.types.Finds E (.reference id arguments)) (path : Path) : FailsIn E (x.target path id) := by
  unfold Export.target Scope.target
  cases hr : x.scope.types.resolve id.key with
  | none => exact failsIn_error (found id arguments (.here _) hr path)
  | some r => exact failsIn_ok _

variable (admits : x.types.AdmitsLabels E)
include admits

/-- A shape fails if one of its kept children does, and else with an error that the collection admits. The key of
a map is rendered without its nullables. -/
theorem refuses_typeExpr_step {s : Shape} (found : x.types.Finds E s) (hs : ∀ kind, s ≠ .primitive kind)
    (plain : ∀ c ∈ s.kept, x.TypeRefuses E (M c) c)
    (keys : ∀ key value, s = .map key value → x.TypeRefuses E (M key) key.stripNullable) :
    x.TypeRefuses E (∃ c ∈ s.kept, M c) s := by
  intro path
  have none {type : TypeExpr} (h : s.kept = []) : Refuses E (∃ c ∈ s.kept, M c) (.ok type) := by
    rw [h]
    exact refuses_nil type
  cases s with
  | primitive kind => exact absurd rfl (hs kind)
  | literal | placeholder =>
    rw [typeExpr]
    exact none rfl
  | foreign value =>
    cases value with
    | verbatim text =>
      rw [typeExpr]
      exact none rfl
    | named kind =>
      rw [typeExpr]
      exact refuses_error (admits.own _ trivial)
  | list element | nullable element =>
    rw [typeExpr]
    exact ((plain element List.mem_cons_self path).map _).singleton
  | map key value =>
    have values := plain value (List.mem_cons_of_mem _ List.mem_cons_self)
    rw [typeExpr]
    refine ((keys key value rfl path).bind fun _ _ => ((values path).map _).singleton).of_imp ?_
    exact (List.exists_mem_cons_iff _ _ _).1
  | tuple elements =>
    cases elements with
    | nil =>
      rw [typeExpr]
      exact none rfl
    | cons t ts =>
      rw [typeExpr]
      · exact (refuses_elementExprs plain path 0).map _
      · intro ht
        cases ht
  | struct name body =>
    rw [typeExpr]
    exact refuses_bodyExpr plain _ name
  | enum name vs tagging =>
    have variants : ∀ v ∈ Variant.kept vs, ∀ c ∈ v.body.kept, x.TypeRefuses E (M c) c :=
      fun v hv c hc => plain c (List.mem_flatMap.2 ⟨v, hv, hc⟩)
    rw [typeExpr]
    split
    · next hv =>
      refine none ?_
      show (Variant.kept vs).flatMap (·.body.kept) = []
      rw [List.isEmpty_iff.1 hv, List.flatMap_nil]
    · refine (admits.represent x.scope found _).after fun r hr => (Refuses.map ?_ _).of_imp Shape.exists_mem_variant
      exact refuses_variantExprs admits.labels variants (Scope.fits_of_represent hr) _
  | reference id arguments =>
    rw [typeExpr]
    exact (failsIn_target found path).after fun _ _ => (refuses_argumentExprs plain path).map _

/-- A wide integer at a kept position is an error exactly where the policy forbids it. -/
theorem refuses_typeExpr {s : Shape} (found : x.types.Finds E s)
    (wide : s.HasWide Shape.kept → WideIn E) :
    x.TypeRefuses E (x.config.bigint = .fail ∧ s.HasWide Shape.kept) s := by
  let N (s : Shape) : Prop := x.config.bigint = .fail ∧ s.HasWide Shape.kept
  have both : x.TypeRefuses E (N s) s ∧ x.TypeRefuses E (N s) s.stripNullable := by
    induction s using Shape.childInduction with
    | step s ih =>
      have kept : ∀ c ∈ s.kept, x.TypeRefuses E (N c) c ∧ x.TypeRefuses E (N c) c.stripNullable := fun c hc =>
        ih c (Shape.mem_children_of_mem_kept hc) (found.of_mem_kept hc) fun hw => wide (.part hc hw)
      have self : x.TypeRefuses E (N s) s := by
        by_cases hs : ∃ kind, s = .primitive kind
        · obtain ⟨kind, rfl⟩ := hs
          intro path
          rw [typeExpr]
          refine (refuses_primitiveExpr (fun hk => wide (.here hk)) path).of_imp fun h => ⟨h.1, ?_⟩
          exact (Shape.hasWide_primitive rfl).1 h.2
        · have hs : ∀ kind, s ≠ .primitive kind := fun kind e => hs ⟨kind, e⟩
          intro path
          refine (refuses_typeExpr_step admits (M := N) found hs (fun c hc => (kept c hc).1) ?_ path).of_imp ?_
          · rintro key value rfl
            exact (kept key List.mem_cons_self).2
          · rintro ⟨hf, hw⟩
            obtain ⟨c, hc, hw⟩ := (Shape.hasWide_iff hs).1 hw
            exact ⟨c, hc, hf, hw⟩
      refine ⟨self, ?_⟩
      cases s with
      | nullable inner =>
        intro path
        refine ((kept inner List.mem_cons_self).2 path).of_imp ?_
        rintro ⟨hf, hw⟩
        obtain ⟨c, hc, hw⟩ := (Shape.hasWide_iff (fun _ h => by cases h)).1 hw
        rw [List.mem_singleton.1 hc] at hw
        exact ⟨hf, hw⟩
      | _ => exact self
  exact both.1

end Export

end ShapeExport
