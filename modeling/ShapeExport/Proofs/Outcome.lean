import Mathlib.Data.List.Forall2

/-!
# Outcomes

Checks and renderings give a result or an error.

* `bind_eq_ok`, `bind_eq_error`, `map_eq_ok` : the outcome of one step after another;
* `mapM_eq_ok`, `mapM_ok`, `exists_mapM`, `exists_of_mapM`, `exists_of_mem_results` : the results of a step for each
  item of a list;
* `eq_mapM_filter` : a function that takes a step for each item, apart from some;
* `mapM_eq_error` : it fails at the first item that the step fails for;
* `forM_eq_ok`, `exists_of_forM_error`, `allM_eq_true`, `exists_of_allM_error` : the outcome of a check of each item, or
  of a question about it; `eq_forM_filter`, `eq_allM_filter` : functions that do so, apart from some items;
* `FailsIn` : a failure is one of a set;
* `SameUnless` : two outcomes are the same, unless the first is a failure of a set;
* `Refuses` : a failure is one of a set, and there is one under a condition.
-/

namespace ShapeExport

variable {ε α β : Type}

theorem bind_eq_ok {x : Except ε α} {f : α → Except ε β} {b : β} :
    x >>= f = .ok b ↔ ∃ a, x = .ok a ∧ f a = .ok b := by
  cases x with
  | error e => exact ⟨nofun, nofun⟩
  | ok a => exact ⟨fun h => ⟨a, rfl, h⟩, fun ⟨_, ha, h⟩ => by cases ha; exact h⟩

theorem bind_eq_error {x : Except ε α} {f : α → Except ε β} {e : ε} :
    x >>= f = .error e ↔ x = .error e ∨ ∃ a, x = .ok a ∧ f a = .error e := by
  cases x with
  | error e' =>
    constructor
    · intro h
      cases h
      exact Or.inl rfl
    · rintro (h | ⟨_, ha, _⟩)
      · cases h
        rfl
      · cases ha
  | ok a =>
    constructor
    · intro h
      exact Or.inr ⟨a, rfl, h⟩
    · rintro (h | ⟨_, ha, h⟩)
      · cases h
      · cases ha
        exact h

theorem map_eq_ok {x : Except ε α} {f : α → β} {b : β} : x.map f = .ok b ↔ ∃ a, x = .ok a ∧ f a = b := by
  cases x with
  | error e =>
    constructor
    · intro h
      cases h
    · rintro ⟨_, ha, _⟩
      cases ha
  | ok a =>
    constructor
    · intro h
      exact ⟨a, rfl, Except.ok.inj h⟩
    · rintro ⟨_, ha, h⟩
      cases ha
      exact congrArg Except.ok h

theorem mapM_eq_ok {f : α → Except ε β} {as : List α} {bs : List β} :
    as.mapM f = .ok bs ↔ List.Forall₂ (fun a b => f a = .ok b) as bs := by
  induction as generalizing bs with
  | nil =>
    rw [List.mapM_nil, List.forall₂_nil_left_iff]
    exact ⟨fun h => by cases h; rfl, fun h => by rw [h]; rfl⟩
  | cons a as ih =>
    rw [List.mapM_cons, bind_eq_ok]
    constructor
    · rintro ⟨b, hb, h⟩
      obtain ⟨bs', hbs, h⟩ := bind_eq_ok.1 h
      cases h
      exact .cons hb (ih.1 hbs)
    · intro h
      cases h with
      | cons hb hbs => exact ⟨_, hb, bind_eq_ok.2 ⟨_, ih.2 hbs, rfl⟩⟩

/-- Results that are known make the list of all results. -/
theorem mapM_ok {f : α → Except ε β} {g : α → β} {as : List α} (h : ∀ a ∈ as, f a = .ok (g a)) :
    as.mapM f = .ok (as.map g) :=
  mapM_eq_ok.2 (List.forall₂_map_right_iff.2 (List.forall₂_same.2 h))

theorem exists_mapM {f : α → Except ε β} {as : List α} (h : ∀ a ∈ as, ∃ b, f a = .ok b) :
    ∃ bs, as.mapM f = .ok bs := by
  induction as with
  | nil => exact ⟨[], rfl⟩
  | cons a as ih =>
    rw [List.forall_mem_cons] at h
    obtain ⟨b, hb⟩ := h.1
    obtain ⟨bs, hbs⟩ := ih h.2
    exact ⟨b :: bs, mapM_eq_ok.2 (.cons hb (mapM_eq_ok.1 hbs))⟩

/-- Each item has a result. -/
theorem exists_of_mapM {f : α → Except ε β} {as : List α} {bs : List β} (h : as.mapM f = .ok bs) {a : α}
    (ha : a ∈ as) : ∃ b ∈ bs, f a = .ok b := by
  induction mapM_eq_ok.1 h with
  | nil => cases ha
  | cons hb hbs ih =>
    rcases List.mem_cons.1 ha with rfl | ha
    · exact ⟨_, List.mem_cons_self, hb⟩
    · obtain ⟨b, hm, hb⟩ := ih (mapM_eq_ok.2 hbs) ha
      exact ⟨b, List.mem_cons_of_mem _ hm, hb⟩

/-- Each result is that of an item. -/
theorem exists_of_mem_results {f : α → Except ε β} {as : List α} {bs : List β} (h : as.mapM f = .ok bs) {b : β}
    (hb : b ∈ bs) : ∃ a ∈ as, f a = .ok b := by
  induction mapM_eq_ok.1 h with
  | nil => cases hb
  | cons ha has ih =>
    rcases List.mem_cons.1 hb with rfl | hb
    · exact ⟨_, List.mem_cons_self, ha⟩
    · obtain ⟨a, hm, ha⟩ := ih (mapM_eq_ok.2 has) hb
      exact ⟨a, List.mem_cons_of_mem _ hm, ha⟩

theorem length_of_mapM {f : α → Except ε β} {as : List α} {bs : List β} (h : as.mapM f = .ok bs) :
    bs.length = as.length :=
  (mapM_eq_ok.1 h).length_eq.symm

/-- What the results have in common with their items. -/
theorem map_of_mapM {γ : Type} {f : α → Except ε β} {as : List α} {bs : List β} (h : as.mapM f = .ok bs) {g : β → γ}
    {k : α → γ} (each : ∀ a b, f a = .ok b → g b = k a) : bs.map g = as.map k := by
  induction mapM_eq_ok.1 h with
  | nil => rfl
  | cons hb hbs ih => rw [List.map_cons, List.map_cons, each _ _ hb, ih (mapM_eq_ok.2 hbs)]

theorem mapM_congr {f g : α → Except ε β} {as : List α} (h : ∀ a ∈ as, f a = g a) : as.mapM f = as.mapM g := by
  induction as with
  | nil => rfl
  | cons a as ih =>
    rw [List.forall_mem_cons] at h
    rw [List.mapM_cons, List.mapM_cons, h.1, ih h.2]

/-- A function that passes over some items and takes a step for each of the others. -/
theorem eq_mapM_filter {F : List α → Except ε (List β)} {f : α → Except ε β} {out : α → Bool} (nil : F [] = .ok [])
    (cons : ∀ a as, F (a :: as) = if out a then F as else do return (← f a) :: (← F as)) (as : List α) :
    F as = (as.filter (!out ·)).mapM f := by
  induction as with
  | nil => exact nil
  | cons a as ih =>
    rw [cons]
    split
    · next ha => rw [List.filter_cons_of_neg (by simp [ha]), ih]
    · next ha => rw [List.filter_cons_of_pos (by simp [ha]), List.mapM_cons, ih]

/-- The items before the one that fails have results. -/
theorem mapM_eq_error {f : α → Except ε β} {as : List α} {e : ε} : as.mapM f = .error e ↔
    ∃ before a after, as = before ++ a :: after ∧ (∀ b ∈ before, ∃ c, f b = .ok c) ∧ f a = .error e := by
  induction as with
  | nil =>
    constructor
    · intro h
      cases h
    · rintro ⟨before, a, after, h, -⟩
      exact absurd h (by simp)
  | cons a as ih =>
    rw [List.mapM_cons, bind_eq_error]
    constructor
    · rintro (ha | ⟨c, hc, h⟩)
      · exact ⟨[], a, as, rfl, List.forall_mem_nil _, ha⟩
      · rcases bind_eq_error.1 h with h | ⟨_, -, h⟩
        · obtain ⟨before, b, after, rfl, hb, he⟩ := ih.1 h
          exact ⟨a :: before, b, after, rfl, List.forall_mem_cons.2 ⟨⟨c, hc⟩, hb⟩, he⟩
        · cases h
    · rintro ⟨before, b, after, h, hb, he⟩
      cases before with
      | nil =>
        obtain ⟨rfl, rfl⟩ := List.cons.inj h
        exact Or.inl he
      | cons d before =>
        obtain ⟨rfl, rfl⟩ := List.cons.inj h
        rw [List.forall_mem_cons] at hb
        obtain ⟨c, hc⟩ := hb.1
        exact Or.inr ⟨c, hc, bind_eq_error.2 (Or.inl (ih.2 ⟨before, b, after, rfl, hb.2, he⟩))⟩

/-! ## Checks -/

/-- All items pass a check if each of them does. -/
theorem forM_eq_ok {f : α → Except ε Unit} {as : List α} : forM as f = .ok () ↔ ∀ a ∈ as, f a = .ok () := by
  induction as with
  | nil => exact iff_of_true rfl (List.forall_mem_nil _)
  | cons a as ih =>
    rw [List.forall_mem_cons, ← ih, List.forM_cons, bind_eq_ok]
    constructor
    · rintro ⟨_, ha, h⟩
      exact ⟨ha, h⟩
    · rintro ⟨ha, h⟩
      exact ⟨(), ha, h⟩

theorem exists_of_forM_error {f : α → Except ε Unit} {as : List α} {e : ε} (h : forM as f = .error e) :
    ∃ a ∈ as, f a = .error e := by
  induction as with
  | nil => cases h
  | cons a as ih =>
    rw [List.forM_cons] at h
    rcases bind_eq_error.1 h with h | ⟨_, -, h⟩
    · exact ⟨a, List.mem_cons_self, h⟩
    · obtain ⟨b, hb, h⟩ := ih h
      exact ⟨b, List.mem_cons_of_mem a hb, h⟩

theorem forM_congr {f g : α → Except ε Unit} {as : List α} (h : ∀ a ∈ as, f a = g a) : forM as f = forM as g := by
  induction as with
  | nil => rfl
  | cons a as ih =>
    rw [List.forall_mem_cons] at h
    rw [List.forM_cons, List.forM_cons, h.1, ih h.2]

/-- A function that passes over some items and checks each of the others. -/
theorem eq_forM_filter {F : List α → Except ε Unit} {f : α → Except ε Unit} {out : α → Bool} (nil : F [] = .ok ())
    (cons : ∀ a as, F (a :: as) = if out a then F as else f a >>= fun _ => F as) (as : List α) :
    F as = forM (as.filter (!out ·)) f := by
  induction as with
  | nil => exact nil
  | cons a as ih =>
    rw [cons]
    split
    · next ha => rw [List.filter_cons_of_neg (by simp [ha]), ih]
    · next ha => rw [List.filter_cons_of_pos (by simp [ha]), List.forM_cons, ih]

/-- The answer is yes for all items if it is for each of them. -/
theorem allM_eq_true {f : α → Except ε Bool} {as : List α} : as.allM f = .ok true ↔ ∀ a ∈ as, f a = .ok true := by
  induction as with
  | nil => exact iff_of_true rfl (List.forall_mem_nil _)
  | cons a as ih =>
    rw [List.forall_mem_cons, ← ih, List.allM_cons, bind_eq_ok]
    constructor
    · rintro ⟨answer, ha, h⟩
      cases answer with
      | true => exact ⟨ha, h⟩
      | false => cases h
    · rintro ⟨ha, h⟩
      exact ⟨true, ha, h⟩

theorem exists_of_allM_error {f : α → Except ε Bool} {as : List α} {e : ε} (h : as.allM f = .error e) :
    ∃ a ∈ as, f a = .error e := by
  induction as with
  | nil => cases h
  | cons a as ih =>
    rw [List.allM_cons] at h
    rcases bind_eq_error.1 h with h | ⟨answer, -, h⟩
    · exact ⟨a, List.mem_cons_self, h⟩
    · cases answer with
      | true =>
        obtain ⟨b, hb, h⟩ := ih h
        exact ⟨b, List.mem_cons_of_mem a hb, h⟩
      | false => cases h

theorem allM_congr {f g : α → Except ε Bool} {as : List α} (h : ∀ a ∈ as, f a = g a) : as.allM f = as.allM g := by
  induction as with
  | nil => rfl
  | cons a as ih =>
    rw [List.forall_mem_cons] at h
    rw [List.allM_cons, List.allM_cons, h.1, ih h.2]

/-- A function that passes over some items and asks for each of the others, until the answer is no. -/
theorem eq_allM_filter {F : List α → Except ε Bool} {f : α → Except ε Bool} {out : α → Bool} (nil : F [] = .ok true)
    (cons : ∀ a as, F (a :: as) = if out a then F as else do if ← f a then F as else return false) (as : List α) :
    F as = (as.filter (!out ·)).allM f := by
  induction as with
  | nil => exact nil
  | cons a as ih =>
    rw [cons]
    split
    · next ha => rw [List.filter_cons_of_neg (by simp [ha]), ih]
    · next ha => rw [List.filter_cons_of_pos (by simp [ha]), List.allM_cons, ih]

/-! ## Failures -/

/-- A failure is one of `E`. -/
def FailsIn (E : ε → Prop) (x : Except ε α) : Prop := ∀ e, x = .error e → E e

variable {E : ε → Prop}

theorem failsIn_ok (a : α) : FailsIn E (.ok a : Except ε α) := by
  intro e h
  cases h

theorem failsIn_error {e : ε} (h : E e) : FailsIn E (.error e : Except ε α) := by
  rintro _ ⟨⟩
  exact h

theorem FailsIn.bind {x : Except ε α} {f : α → Except ε β} (hx : FailsIn E x)
    (hf : ∀ a, x = .ok a → FailsIn E (f a)) : FailsIn E (x >>= f) := by
  intro e h
  rcases bind_eq_error.1 h with h | ⟨a, ha, h⟩
  · exact hx e h
  · exact hf a ha e h

/-- A step after which nothing else can fail. -/
theorem FailsIn.map {x : Except ε α} (hx : FailsIn E x) (f : α → β) : FailsIn E (x >>= fun a => pure (f a)) :=
  hx.bind fun a _ => failsIn_ok (f a)

theorem failsIn_map {x : Except ε α} (hx : FailsIn E x) (f : α → β) : FailsIn E (x.map f) := by
  cases x with
  | ok a => exact failsIn_ok (f a)
  | error e => exact failsIn_error (hx e rfl)

theorem failsIn_mapM {f : α → Except ε β} {as : List α} (h : ∀ a ∈ as, FailsIn E (f a)) :
    FailsIn E (as.mapM f) := by
  intro e he
  obtain ⟨before, a, after, rfl, -, ha⟩ := mapM_eq_error.1 he
  exact h a (List.mem_append_right _ List.mem_cons_self) e ha

theorem failsIn_forM {f : α → Except ε Unit} {as : List α} (h : ∀ a ∈ as, FailsIn E (f a)) :
    FailsIn E (forM as f) := by
  intro e he
  obtain ⟨a, ha, he⟩ := exists_of_forM_error he
  exact h a ha e he

theorem failsIn_allM {f : α → Except ε Bool} {as : List α} (h : ∀ a ∈ as, FailsIn E (f a)) :
    FailsIn E (as.allM f) := by
  intro e he
  obtain ⟨a, ha, he⟩ := exists_of_allM_error he
  exact h a ha e he

/-! ## Outcomes that are the same unless one is given up -/

/-- The outcomes are the same, unless the first one is a failure in `E`. -/
def SameUnless (E : ε → Prop) (x y : Except ε α) : Prop := x = y ∨ ∃ e, E e ∧ x = .error e

theorem sameUnless_rfl (x : Except ε α) : SameUnless E x x := Or.inl rfl

theorem sameUnless_error {e : ε} (h : E e) (x : Except ε α) : SameUnless E (.error e) x := Or.inr ⟨e, h, rfl⟩

theorem SameUnless.bind {x y : Except ε α} {f g : α → Except ε β} (h : SameUnless E x y)
    (hf : ∀ a, SameUnless E (f a) (g a)) : SameUnless E (x >>= f) (y >>= g) := by
  rcases h with rfl | ⟨e, he, rfl⟩
  · cases x with
    | error e => exact sameUnless_rfl _
    | ok a => exact hf a
  · exact sameUnless_error he _

/-- A step after which the same is done. -/
theorem SameUnless.before {x y : Except ε α} (h : SameUnless E x y) (f : α → Except ε β) :
    SameUnless E (x >>= f) (y >>= f) :=
  h.bind fun a => sameUnless_rfl (f a)

theorem sameUnless_mapM {f g : α → Except ε β} {as : List α} (h : ∀ a ∈ as, SameUnless E (f a) (g a)) :
    SameUnless E (as.mapM f) (as.mapM g) := by
  induction as with
  | nil => exact sameUnless_rfl _
  | cons a as ih =>
    rw [List.forall_mem_cons] at h
    rw [List.mapM_cons, List.mapM_cons]
    exact h.1.bind fun _ => (ih h.2).before _

theorem SameUnless.eq {x y : Except ε α} (h : SameUnless (fun _ => False) x y) : x = y :=
  h.resolve_right fun ⟨_, he, _⟩ => he

/-! ## Refusals -/

/-- A failure is one of `E`, and there is no result if `N`. -/
structure Refuses (E : ε → Prop) (N : Prop) (x : Except ε α) : Prop where
  failsIn : FailsIn E x
  fails : N → ∀ a, x ≠ .ok a

variable {M N : Prop}

theorem FailsIn.refuses {x : Except ε α} (h : FailsIn E x) : Refuses E False x :=
  ⟨h, False.elim⟩

theorem refuses_ok (a : α) : Refuses E False (.ok a : Except ε α) := (failsIn_ok a).refuses

theorem refuses_error {e : ε} (h : E e) : Refuses E N (.error e : Except ε α) := by
  refine ⟨failsIn_error h, fun _ a ha => ?_⟩
  cases ha

theorem Refuses.of_imp {x : Except ε α} (h : Refuses E N x) (imp : M → N) : Refuses E M x :=
  ⟨h.failsIn, fun hm => h.fails (imp hm)⟩

theorem Refuses.mono {E' : ε → Prop} {x : Except ε α} (h : Refuses E N x) (imp : ∀ e, E e → E' e) : Refuses E' N x :=
  ⟨fun e he => imp e (h.failsIn e he), h.fails⟩

theorem Refuses.bind {x : Except ε α} {f : α → Except ε β} (hx : Refuses E M x)
    (hf : ∀ a, x = .ok a → Refuses E N (f a)) : Refuses E (M ∨ N) (x >>= f) := by
  refine ⟨hx.failsIn.bind fun a ha => (hf a ha).failsIn, fun either b hb => ?_⟩
  obtain ⟨a, ha, hb⟩ := bind_eq_ok.1 hb
  rcases either with hm | hn
  · exact hx.fails hm a ha
  · exact (hf a ha).fails hn b hb

theorem Refuses.before {x : Except ε α} {f : α → Except ε β} (hx : Refuses E N x)
    (hf : ∀ a, FailsIn E (f a)) : Refuses E N (x >>= f) :=
  (hx.bind fun a _ => (hf a).refuses).of_imp Or.inl

/-- A step after which nothing else can fail. -/
theorem Refuses.map {x : Except ε α} (hx : Refuses E N x) (f : α → β) :
    Refuses E N (x >>= fun a => pure (f a)) :=
  hx.before fun a => failsIn_ok (f a)

/-- Nothing is refused for the members of the empty list. -/
theorem refuses_nil {N : β → Prop} (a : α) : Refuses E (∃ c ∈ ([] : List β), N c) (.ok a : Except ε α) := by
  refine ⟨failsIn_ok a, ?_⟩
  rintro ⟨c, hc, -⟩
  cases hc

theorem Refuses.singleton {N : β → Prop} {c : β} {x : Except ε α} (h : Refuses E (N c) x) :
    Refuses E (∃ d ∈ [c], N d) x := by
  refine h.of_imp ?_
  rintro ⟨d, hd, hn⟩
  rwa [List.mem_singleton.1 hd] at hn

theorem FailsIn.after {x : Except ε α} {f : α → Except ε β} (hx : FailsIn E x)
    (hf : ∀ a, x = .ok a → Refuses E N (f a)) : Refuses E N (x >>= f) :=
  (hx.refuses.bind hf).of_imp Or.inr

theorem refuses_map {x : Except ε α} (hx : Refuses E N x) (f : α → β) : Refuses E N (x.map f) := by
  refine ⟨failsIn_map hx.failsIn f, fun hn b hb => ?_⟩
  obtain ⟨a, ha, -⟩ := map_eq_ok.1 hb
  exact hx.fails hn a ha

theorem refuses_mapM {f : α → Except ε β} {as : List α} {N : α → Prop} (h : ∀ a ∈ as, Refuses E (N a) (f a)) :
    Refuses E (∃ a ∈ as, N a) (as.mapM f) := by
  refine ⟨failsIn_mapM fun a ha => (h a ha).failsIn, ?_⟩
  rintro ⟨a, ha, hn⟩ bs hbs
  obtain ⟨b, -, hb⟩ := exists_of_mapM hbs ha
  exact (h a ha).fails hn b hb

theorem refuses_mapM_zipIdx {f : α × Nat → Except ε β} {as : List α} {N : α → Prop}
    (h : ∀ a ∈ as, ∀ i, Refuses E (N a) (f (a, i))) (i : Nat) : Refuses E (∃ a ∈ as, N a) ((as.zipIdx i).mapM f) := by
  have each : ∀ p ∈ as.zipIdx i, Refuses E (N p.1) (f p) := fun p hp => h p.1 (List.fst_mem_of_mem_zipIdx hp) p.2
  refine (refuses_mapM each).of_imp ?_
  rintro ⟨a, ha, hn⟩
  rw [← List.zipIdx_map_fst i as] at ha
  obtain ⟨p, hp, rfl⟩ := List.mem_map.1 ha
  exact ⟨p, hp, hn⟩

end ShapeExport
