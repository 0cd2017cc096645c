import Mathlib
import ShapeExport.Proofs.Scope.Walk
import ShapeExport.Proofs.Zod.Agreement
import ShapeExport.Proofs.Zod.Failures

/-!
# Zod rendering that does not end

A map key is followed into the records that it refers to, and each of them is entered once on the way. But where the
body of such a record holds a further map, the look at its key begins anew. So a record may be entered within itself.

* `Zod.Spot`, `Zod.Spot.Step` : where the renderer is, and how it goes on;
* `Zod.Nested`, `Zod.Endless` : some number of records is entered on a way, and a way does not end;
* `Zod.endless_iff` : a way does not end exactly if any number of records is entered on some way;
* `Zod.PlainKeys`, `Zod.not_endless_of_plainKeys` : where no key is a reference, each way ends;
* `Export.settles` : what is given up as too deep has as many records entered as were allowed, and where more are
  there is no schema;
* `Export.schemaDeclaration_ends_iff` : when the declaration of a record ends.
-/

namespace ShapeExport

namespace Zod

/-- Where the renderer is: at a shape, or at a map key, with the records that were entered on the way to it. -/
inductive Spot
  | shape (s : Shape)
  | key (entered : List TypeKey) (s : Shape)

namespace Spot

/-- The parts that the renderer goes on to. At a map, no record has been entered on the way to the key. -/
def moves : Spot → List Spot
  | shape (.map k value) => [key [] k, shape value]
  | shape s => s.kept.map shape
  | key entered (.nullable inner) => [key entered inner]
  | key _ (.primitive _) | key _ (.literal _) => []
  | key entered (.reference id arguments) => if id.key ∈ entered then [shape (.reference id arguments)] else []
  | key _ s => [shape s]

/-- The body of the record that a map key is followed into, unless it was entered on the way. -/
def body? (types : Collection) : Spot → Option Spot
  | key entered (.reference id arguments) =>
    if id.key ∈ entered then none
    else (types.resolve id.key).map fun r => key (id.key :: entered) (r.expand arguments)
  | _ => none

def Step (types : Collection) (p q : Spot) : Prop := q ∈ p.moves ∨ p.body? types = some q

theorem moves_shape {s : Shape} (h : ∀ key value, s ≠ .map key value) : (shape s).moves = s.kept.map shape := by
  cases s with
  | map key value => exact absurd rfl (h key value)
  | _ => rfl

/-- From a shape the renderer goes on to its kept children, to the key of a map as a key. -/
theorem exists_of_mem_moves_shape {q : Spot} {s : Shape} (h : q ∈ (shape s).moves) :
    ∃ t ∈ s.kept, q = shape t ∨ ∃ value, s = .map t value ∧ q = key [] t := by
  by_cases hm : ∃ key value, s = .map key value
  · obtain ⟨k, value, rfl⟩ := hm
    rcases List.mem_pair.1 h with rfl | rfl
    · exact ⟨k, List.mem_cons_self, Or.inr ⟨value, rfl, rfl⟩⟩
    · exact ⟨value, List.mem_cons_of_mem _ List.mem_cons_self, Or.inl rfl⟩
  · rw [moves_shape fun key value e => hm ⟨key, value, e⟩] at h
    obtain ⟨t, ht, rfl⟩ := List.mem_map.1 h
    exact ⟨t, ht, Or.inl rfl⟩

/-- From a key it goes on to the same shape, which is no longer a key, or to the inner one of a nullable. -/
theorem eq_or_of_mem_moves_key {q : Spot} {entered : List TypeKey} {s : Shape} (h : q ∈ (key entered s).moves) :
    q = shape s ∨ ∃ t, s = .nullable t ∧ q = key entered t := by
  cases s with
  | nullable t => exact Or.inr ⟨t, rfl, List.mem_singleton.1 h⟩
  | primitive | literal => exact absurd h List.not_mem_nil
  | reference id arguments =>
    rw [moves] at h
    split at h
    · exact Or.inl (List.mem_singleton.1 h)
    · cases h
  | _ => exact Or.inl (List.mem_singleton.1 h)

end Spot

variable {types : Collection} {p q : Spot} {n : Nat}

/-- On a way from the spot, this many records are entered. -/
inductive Nested (types : Collection) : Nat → Spot → Prop
  | here (p : Spot) : Nested types 0 p
  | move {n : Nat} {p q : Spot} : q ∈ p.moves → Nested types n q → Nested types n p
  | enter {n : Nat} {p q : Spot} : p.body? types = some q → Nested types n q → Nested types (n + 1) p

/-- A way from the spot does not end. -/
def Endless (types : Collection) (p : Spot) : Prop :=
  ∃ way : Nat → Spot, way 0 = p ∧ ∀ n, (way n).Step types (way (n + 1))

/-! ## Ways that do not end -/

/-- Apart from records that are entered, the renderer goes on to smaller shapes, and from a key to the shape of it. -/
theorem acc_moves (p : Spot) : Acc (fun q p => q ∈ Spot.moves p) p := by
  have shapes : ∀ s : Shape, Acc (fun q p => q ∈ Spot.moves p) (.shape s) ∧
      ∀ entered, Acc (fun q p => q ∈ Spot.moves p) (.key entered s) := by
    intro s
    induction s using Shape.childInduction with
    | step s ih =>
      have kept := fun t (ht : t ∈ s.kept) => ih t (Shape.mem_children_of_mem_kept ht)
      have shape : Acc (fun q p => q ∈ Spot.moves p) (.shape s) := by
        refine ⟨_, fun q h => ?_⟩
        obtain ⟨t, ht, rfl | ⟨value, rfl, rfl⟩⟩ := Spot.exists_of_mem_moves_shape h
        · exact (kept t ht).1
        · exact (kept t ht).2 []
      refine ⟨shape, fun entered => ⟨_, fun q h => ?_⟩⟩
      rcases Spot.eq_or_of_mem_moves_key h with rfl | ⟨t, rfl, rfl⟩
      · exact shape
      · exact (kept t List.mem_cons_self).2 entered
  cases p with
  | shape s => exact (shapes s).1
  | key entered s => exact (shapes s).2 entered

theorem finite_step (p : Spot) : {q | p.Step types q}.Finite := by
  refine (p.moves ++ (p.body? types).toList).finite_toSet.subset fun q h => List.mem_append.2 ?_
  exact h.imp_right Option.mem_toList.2

theorem Nested.exists_chain (h : Nested types n p) :
    ∃ way, (p :: way).IsChain (Spot.Step types) ∧ n ≤ way.length := by
  induction h with
  | here p => exact ⟨[], List.isChain_singleton p, Nat.le_refl _⟩
  | @move n p q hm _ ih =>
    obtain ⟨way, chain, le⟩ := ih
    exact ⟨q :: way, List.isChain_cons_cons.2 ⟨Or.inl hm, chain⟩, Nat.le_succ_of_le le⟩
  | @enter n p q he _ ih =>
    obtain ⟨way, chain, le⟩ := ih
    exact ⟨q :: way, List.isChain_cons_cons.2 ⟨Or.inr he, chain⟩, Nat.succ_le_succ le⟩

theorem Endless.nested (h : Endless types p) (n : Nat) : Nested types n p := by
  induction n generalizing p with
  | zero => exact .here p
  | succ n ih =>
    -- Moves alone come to an end, so the way comes to a record.
    induction acc_moves p with
    | intro p _ moves =>
      obtain ⟨way, rfl, step⟩ := h
      have rest : Endless types (way 1) := ⟨fun n => way (n + 1), rfl, fun n => step (n + 1)⟩
      rcases step 0 with hm | he
      · exact .move hm (moves _ hm rest)
      · exact .enter he (ih rest)

/-- A way does not end exactly if any number of records is entered on some way. -/
theorem endless_iff : Endless types p ↔ ∀ n, Nested types n p := by
  refine ⟨Endless.nested, fun nested => ?_⟩
  by_contra ends
  have acc : Acc (fun q p => Spot.Step types p q) p :=
    not_not.1 fun h => ends (not_acc_iff_exists_descending_chain.1 h)
  obtain ⟨n, bound⟩ := exists_length_chain_le finite_step acc
  obtain ⟨way, chain, le⟩ := (nested (n + 1)).exists_chain
  exact absurd (bound way chain) (Nat.not_le_of_lt le)

/-! ## Keys that are no references -/

/-- No key in the shape is a reference. -/
def PlainKeys (s : Shape) : Prop :=
  ∀ key value, s.Holds (.map key value) → ∀ id arguments, key.stripNullable ≠ .reference id arguments

/-- No record is entered from here on. -/
def Spot.IsPlain : Spot → Prop
  | shape s => PlainKeys s
  | key _ s => PlainKeys s ∧ ∀ id arguments, s.stripNullable ≠ .reference id arguments

theorem PlainKeys.of_mem_kept {s t : Shape} (h : PlainKeys s) (ht : t ∈ s.kept) : PlainKeys t :=
  fun key value hold => h key value (.child ht hold)

theorem Spot.IsPlain.body? (h : p.IsPlain) : p.body? types = none := by
  cases p with
  | shape s => rfl
  | key entered s =>
    cases s with
    | reference id arguments => exact absurd rfl (h.2 id arguments)
    | _ => rfl

theorem Spot.IsPlain.of_mem_moves (h : p.IsPlain) (hq : q ∈ p.moves) : q.IsPlain := by
  cases p with
  | shape s =>
    obtain ⟨t, ht, rfl | ⟨value, rfl, rfl⟩⟩ := exists_of_mem_moves_shape hq
    · exact PlainKeys.of_mem_kept h ht
    · exact ⟨PlainKeys.of_mem_kept h ht, h t value (.here _)⟩
  | key entered s =>
    rcases eq_or_of_mem_moves_key hq with rfl | ⟨t, rfl, rfl⟩
    · exact h.1
    · exact ⟨h.1.of_mem_kept List.mem_cons_self, h.2⟩

theorem Nested.eq_zero (h : Nested types n p) (plain : p.IsPlain) : n = 0 := by
  induction h with
  | here => rfl
  | move hm _ ih => exact ih (plain.of_mem_moves hm)
  | enter he => cases plain.body?.symm.trans he

theorem not_endless_of_plainKeys {s : Shape} (h : PlainKeys s) : ¬ Endless types (.shape s) := by
  intro endless
  cases (endless.nested 1).eq_zero h

/-! ## What schemas fail with -/

theorem Nested.of_moves (h : Nested types (n + 1) p) (hp : p.body? types = none) :
    ∃ q ∈ p.moves, Nested types (n + 1) q := by
  cases h with
  | move hm h => exact ⟨_, hm, h⟩
  | enter he => cases hp.symm.trans he

theorem Nested.of_body (h : Nested types (n + 1) p) (hp : p.moves = []) (he : p.body? types = some q) :
    Nested types n q := by
  cases h with
  | move hm =>
    rw [hp] at hm
    cases hm
  | enter he' h =>
    obtain rfl := Option.some.inj (he.symm.trans he')
    exact h

/-- The error is raised for a shape or a label, or the renderer gave up with this many records entered. -/
def EndsWith (types : Collection) (left : Nat) (p : Spot) (e : Error) : Prop :=
  e.IsRefusal ∨ e.IsBadLabel ∨ e = .tooDeep ∧ Nested types left p

theorem EndsWith.move {e : Error} (h : EndsWith types n q e) (hm : q ∈ p.moves) : EndsWith types n p e :=
  h.imp_right (Or.imp_right (And.imp_right (.move hm)))

theorem EndsWith.enter {e : Error} (h : EndsWith types n q e) (he : p.body? types = some q) :
    EndsWith types (n + 1) p e :=
  h.imp_right (Or.imp_right (And.imp_right (.enter he)))

theorem admitsLabels_endsWith : types.AdmitsLabels (EndsWith types n p) :=
  Collection.admitsLabels_of_refusals fun _ h => h.imp_right Or.inl

theorem finds_endsWith (s : Shape) : types.Finds (EndsWith types n p) s :=
  Collection.finds_of_refusals (fun _ => Or.inl) s

end Zod

namespace Export
open Zod Zod.Schema

variable {x : Export} {left more : Nat} {p q : Spot}

/-- The schema of what stands at a spot. -/
def spotSchema (x : Export) (left : Nat) (path : Path) : Spot → Except Error Schema
  | .shape s => x.schemaExpr left path s
  | .key entered s => x.keySchema left entered path s

/-- What stands at a spot fails with an error that is raised for a shape or a label, or where as many records were
entered as were allowed. It has no schema if more are entered. -/
def Settles (x : Export) (left : Nat) (p : Spot) : Prop :=
  ∀ path, Refuses (EndsWith x.types left p) (Nested x.types (left + 1) p) (x.spotSchema left path p)

/-- What a part ends with is what the whole may end with. -/
theorem Settles.of_mem_moves (h : x.Settles left q) (hq : q ∈ p.moves) (path : Path) :
    Refuses (EndsWith x.types left p) (Nested x.types (left + 1) q) (x.spotSchema left path q) :=
  (h path).mono fun _ he => he.move hq

/-- A spot settles as the only one that the renderer goes on to does. -/
theorem Settles.of_moves (h : x.Settles left q) (hp : p.moves = [q]) (hb : p.body? x.types = none)
    (same : ∀ path, x.spotSchema left path p = x.spotSchema left path q) : x.Settles left p := by
  intro path
  rw [same]
  refine (h.of_mem_moves (hp ▸ List.mem_singleton_self q) path).of_imp fun hn => ?_
  obtain ⟨_, hm, hn⟩ := hn.of_moves hb
  rw [hp] at hm
  rwa [← List.mem_singleton.1 hm]

/-- So does one where the renderer stops. -/
theorem settles_of_leaf (hp : p.moves = []) (hb : p.body? x.types = none)
    (h : ∀ path, FailsIn (EndsWith x.types left p) (x.spotSchema left path p)) : x.Settles left p := by
  refine fun path => (h path).refuses.of_imp fun hn => ?_
  obtain ⟨_, hm, -⟩ := hn.of_moves hb
  rw [hp] at hm
  cases hm

theorem failsIn_primitiveSchema (path : Path) (kind : Primitive) :
    FailsIn (EndsWith x.types left p) (x.primitiveSchema path kind) :=
  (refuses_primitiveSchema (fun _ _ => Or.inl trivial) path).failsIn

theorem settles_map {key value : Shape} (hk : x.Settles left (.key [] key)) (hv : x.Settles left (.shape value)) :
    x.Settles left (.shape (.map key value)) := by
  intro path
  have keys := hk.of_mem_moves (p := .shape (.map key value)) List.mem_cons_self path
  have values := hv.of_mem_moves (p := .shape (.map key value)) (List.mem_cons_of_mem _ List.mem_cons_self) path
  rw [spotSchema, schemaExpr]
  refine (keys.bind fun _ _ => values.map _).of_imp fun hn => ?_
  obtain ⟨q, hq, hn⟩ := hn.of_moves rfl
  rcases List.mem_pair.1 hq with rfl | rfl
  · exact Or.inl hn
  · exact Or.inr hn

theorem settles_shape {s : Shape}
    (kept : ∀ t ∈ s.kept, x.Settles left (.shape t) ∧ ∀ seen, x.Settles left (.key seen t)) :
    x.Settles left (.shape s) := by
  by_cases hs : ∃ kind, s = .primitive kind
  · obtain ⟨kind, rfl⟩ := hs
    refine settles_of_leaf rfl rfl fun path => ?_
    rw [spotSchema, schemaExpr]
    exact failsIn_primitiveSchema path kind
  by_cases hm : ∃ key value, s = .map key value
  · obtain ⟨key, value, rfl⟩ := hm
    exact settles_map ((kept key List.mem_cons_self).2 []) (kept value (List.mem_cons_of_mem _ List.mem_cons_self)).1
  intro path
  have hs : ∀ kind, s ≠ .primitive kind := fun kind e => hs ⟨kind, e⟩
  have hm : ∀ key value, s ≠ .map key value := fun key value e => hm ⟨key, value, e⟩
  have moves := Spot.moves_shape hm
  have plain : ∀ t ∈ s.kept, x.SchemaRefuses (EndsWith x.types left (.shape s)) left
      (Nested x.types (left + 1) (.shape t)) t :=
    fun t ht => (kept t ht).1.of_mem_moves (moves ▸ List.mem_map_of_mem ht)
  refine (refuses_schemaExpr_step (finds_endsWith s) admitsLabels_endsWith hs hm plain path).of_imp fun hn => ?_
  obtain ⟨q, hq, hn⟩ := hn.of_moves rfl
  rw [moves] at hq
  obtain ⟨t, ht, rfl⟩ := List.mem_map.1 hq
  exact ⟨t, ht, hn⟩

theorem settles_reference {id : TypeId} {arguments : List Shape} {seen : List TypeKey}
    (shape : x.Settles left (.shape (.reference id arguments))) (entered : ∀ m, left = m + 1 → ∀ p, x.Settles m p) :
    x.Settles left (.key seen (.reference id arguments)) := by
  by_cases hs : id.key ∈ seen
  · exact shape.of_moves (if_pos hs) (if_pos hs) fun path => keySchema_again hs
  intro path
  rw [spotSchema]
  cases left with
  | zero =>
    rw [keySchema_zero hs]
    exact refuses_error (Or.inr (Or.inr ⟨rfl, .here _⟩))
  | succ m =>
    rw [keySchema_succ hs]
    refine (failsIn_target (finds_endsWith (.reference id arguments)) path).after fun r hr => ?_
    have body : Spot.body? x.types (.key seen (.reference id arguments)) =
        some (.key (id.key :: seen) (r.expand arguments)) := by
      rw [Spot.body?, if_neg hs, resolve_of_target hr, Option.map_some]
    exact ((entered m rfl _ path).mono fun _ h => h.enter body).of_imp fun h => h.of_body (if_neg hs) body

theorem settles_step (entered : ∀ m, left = m + 1 → ∀ p, x.Settles m p) (s : Shape) :
    x.Settles left (.shape s) ∧ ∀ seen, x.Settles left (.key seen s) := by
  induction s using Shape.childInduction with
  | step s ih =>
    have kept := fun t (ht : t ∈ s.kept) => ih t (Shape.mem_children_of_mem_kept ht)
    have shape : x.Settles left (.shape s) := settles_shape kept
    refine ⟨shape, fun seen => ?_⟩
    cases s with
    | nullable t =>
      refine ((kept t List.mem_cons_self).2 seen).of_moves rfl rfl fun path => ?_
      rw [spotSchema, keySchema, spotSchema]
    | primitive kind =>
      refine settles_of_leaf rfl rfl fun path => ?_
      rw [spotSchema, keySchema]
      split
      · exact failsIn_ok _
      · split
        · exact failsIn_ok _
        · rw [schemaExpr]
          exact failsIn_primitiveSchema path kind
    | literal value =>
      refine settles_of_leaf rfl rfl fun path => ?_
      rw [spotSchema, keySchema]
      exact failsIn_ok _
    | reference id arguments => exact settles_reference shape entered
    | _ =>
      refine shape.of_moves rfl rfl fun path => ?_
      simp only [spotSchema, keySchema]

theorem settles (x : Export) (left : Nat) (p : Spot) : x.Settles left p := by
  have spot {left : Nat} (entered : ∀ m, left = m + 1 → ∀ p, x.Settles m p) (p : Spot) : x.Settles left p := by
    cases p with
    | shape s => exact (settles_step entered s).1
    | key seen s => exact (settles_step entered s).2 seen
  induction left generalizing p with
  | zero =>
    refine spot (fun m hm => ?_) p
    cases hm
  | succ left ih =>
    refine spot (fun m hm => ?_) p
    cases hm
    exact ih

/-! ## Declarations that end -/

theorem schemaExpr_settled (le : left ≤ more) {path : Path} {s : Shape}
    (h : x.schemaExpr left path s ≠ .error .tooDeep) : x.schemaExpr more path s = x.schemaExpr left path s := by
  rcases (Agrees.refl x).sameSchema (E := (· = .tooDeep)) le (fun _ => rfl) s path with same | ⟨_, rfl, he⟩
  · exact same.symm
  · exact absurd he h

/-- The schema has this outcome where enough expansions are allowed, and it is not that they are used up. -/
def SchemaEnds (x : Export) (path : Path) (s : Shape) (outcome : Except Error Schema) : Prop :=
  outcome ≠ .error .tooDeep ∧ ∃ left, ∀ more, left ≤ more → x.schemaExpr more path s = outcome

theorem schemaEnds_of_ne {path : Path} {s : Shape} (h : x.schemaExpr left path s ≠ .error .tooDeep) :
    x.SchemaEnds path s (x.schemaExpr left path s) :=
  ⟨h, left, fun _ le => schemaExpr_settled le h⟩

/-- A schema ends unless a way from the shape does not. Then the only end is with an error that is met before. -/
theorem schemaEnds_iff (x : Export) (path : Path) (s : Shape) : (∃ outcome, x.SchemaEnds path s outcome) ↔
    ¬ Endless x.types (.shape s) ∨ ∃ e, x.SchemaEnds path s (.error e) := by
  constructor
  · rintro ⟨schema | schema, h⟩
    · exact Or.inr ⟨_, h⟩
    · refine Or.inl fun endless => ?_
      obtain ⟨-, left, h⟩ := h
      exact (x.settles left (.shape s) path).fails (endless.nested _) schema (h left le_rfl)
  · rintro (ends | ⟨e, h⟩)
    · obtain ⟨left, hl⟩ := not_forall.1 fun h => ends (endless_iff.2 h)
      have settled : x.schemaExpr left path s ≠ .error .tooDeep := by
        intro deep
        rcases (x.settles left (.shape s) path).failsIn _ deep with h | h | ⟨-, h⟩
        · exact h
        · exact h
        · exact hl h
      exact ⟨_, schemaEnds_of_ne settled⟩
    · exact ⟨_, h⟩

/-- Whatever cycles there are, a schema ends where no map has a reference as its key. -/
theorem schemaEnds_of_plainKeys {s : Shape} (h : PlainKeys s) (path : Path) : ∃ outcome, x.SchemaEnds path s outcome :=
  (x.schemaEnds_iff path s).2 (Or.inl (not_endless_of_plainKeys h))

theorem failsIn_schemaDeclaration {E : Error → Prop} (own : ∀ e, e.IsRefusal ∨ e.IsBadLabel → E e) {r : Record}
    (h : FailsIn E (x.schema [r.name] r.shape)) : FailsIn E (x.schemaDeclaration r) := by
  have type : FailsIn E (x.typeExpr [r.name] r.shape) := by
    have admits : x.types.AdmitsLabels E := Collection.admitsLabels_of_refusals own
    have found := Collection.finds_of_refusals (c := x.types) (fun e he => own e (Or.inl he)) r.shape
    exact (refuses_typeExpr admits found (fun _ _ => own _ (Or.inl trivial)) [r.name]).failsIn
  unfold schemaDeclaration
  refine h.bind fun schema _ => ?_
  dsimp only
  split
  · exact failsIn_ok _
  · split
    · exact type.map _
    · exact failsIn_ok _

/-- What is rendered for a record is a text, an error that is raised for a shape or a label, or given up as too deep. It
is given up only if the schema is, which with more expansions allowed ends unless a way from the shape does not. -/
theorem schemaDeclaration_ends_iff (x : Export) (r : Record) :
    ((∃ outcome, x.SchemaEnds [r.name] r.shape outcome) ↔
      ¬ Endless x.types (.shape r.shape) ∨ ∃ e, x.SchemaEnds [r.name] r.shape (.error e)) ∧
    (x.schemaDeclaration r ≠ .error .tooDeep → x.SchemaEnds [r.name] r.shape (x.schema [r.name] r.shape)) ∧
    FailsIn (fun e => e.IsRefusal ∨ e.IsBadLabel ∨ e = .tooDeep ∧ x.schema [r.name] r.shape = .error .tooDeep)
      (x.schemaDeclaration r) := by
  refine ⟨x.schemaEnds_iff _ _, fun h => schemaEnds_of_ne fun deep => h ?_, ?_⟩
  · unfold schemaDeclaration
    rw [schema, deep]
    rfl
  · refine failsIn_schemaDeclaration (fun e h => h.imp_right Or.inl) fun e h => ?_
    refine (x.settles expansionLimit (.shape r.shape) [r.name]).failsIn e h |>.imp_right (Or.imp_right ?_)
    rintro ⟨rfl, -⟩
    exact ⟨rfl, h⟩

/-! ### A map that is an argument for its own key

An `Index` is a label that is rendered with a map as the argument, and the keys of the map are `Index` again. -/

namespace Labels

def label : Record where
  id := ⟨⟨.static, 1⟩, "Label"⟩
  name := "Label"
  shape := .primitive .string
  parameters := ["T"]

def indexId : TypeId := ⟨⟨.static, 2⟩, "Index"⟩

/-- The label with a map as the argument. -/
def labelled : Shape := .reference label.id [.map (.reference indexId []) (.primitive .i32)]

def index : Record where
  id := indexId
  name := "Index"
  shape := .enum "Index" [{ name := "By", body := .positional [{ name := none, ty := labelled }] }] (some .untagged)

def labels : Export := ⟨{ language := .zod, banner := "" }, .ofRecords [label, index]⟩

theorem target_label (path : Path) : labels.target path label.id = .ok label := rfl

theorem target_index (path : Path) : labels.target path indexId = .ok index := rfl

theorem expand_index : index.expand [] = index.shape := by cbv

/-- The schema of `Index` holds that of the map, where the key comes first. -/
theorem schemaExpr_index {left : Nat} (path : Path)
    (h : ∀ path, labels.keySchema left [] path (.reference indexId []) = .error .tooDeep) :
    labels.schemaExpr left path index.shape = .error .tooDeep := by
  have map (path : Path) : labels.schemaExpr left path (.map (.reference indexId []) (.primitive .i32)) =
      .error .tooDeep := by
    rw [schemaExpr, h]
    rfl
  have inner (path : Path) : labels.schemaExpr left path labelled = .error .tooDeep := by
    rw [labelled, schemaExpr, target_label]
    show (labels.argumentSchemas left path _ >>= _) = _
    rw [argumentSchemas, map]
    rfl
  have variant (path : Path) (name : String) : labels.variantSchema left .untagged path name
      (.positional [{ name := none, ty := labelled }]) = .error .tooDeep := by
    rw [variantSchema, bodySchema]
    exact inner path
  have represented (path : Path) : labels.scope.represent path "Index"
      [{ name := "By", body := .positional [{ name := none, ty := labelled }] }] (some .untagged) = .ok .untagged := rfl
  rw [index, schemaExpr, represented]
  show (labels.variantSchemas left .untagged (path.enter "Index") _ >>= _) = _
  rw [variantSchemas, variant]
  rfl

/-- However many expansions are allowed, they are used up. -/
theorem schemaExpr_tooDeep (left : Nat) (path : Path) : labels.schemaExpr left path index.shape = .error .tooDeep := by
  induction left generalizing path with
  | zero => exact schemaExpr_index path fun path => keySchema_zero List.not_mem_nil
  | succ left ih =>
    refine schemaExpr_index path fun path => ?_
    rw [keySchema_succ List.not_mem_nil, target_index]
    show labels.keySchema left [indexId.key] path (index.expand []) = _
    rw [expand_index, index, keySchema]
    · exact ih path
    all_goals simp

/-- The records are accepted, and the declaration of `Index` does not end. -/
theorem index_does_not_end : labels.scope.validate = .ok () ∧
    (∀ outcome, ¬ labels.SchemaEnds [index.name] index.shape outcome) ∧
    labels.schemaDeclaration index = .error .tooDeep := by
  refine ⟨by cbv, ?_, ?_⟩
  · rintro outcome ⟨ended, left, h⟩
    exact ended ((h left le_rfl).symm.trans (schemaExpr_tooDeep left _))
  · unfold schemaDeclaration
    rw [schema, schemaExpr_tooDeep]
    rfl

end Labels

end Export

end ShapeExport
