import Mathlib.Order.Filter.AtTopBot.Basic
import Mathlib.Order.Filter.Finite
import ShapeExport.JsonSchema.Render

/-!
# Values that satisfy a schema

A schema may refer to definitions, and these to each other without end. So a schema is judged in steps, and
a value satisfies it if some number of steps is enough to tell.

* `Reading` : the definitions that references lead to, and the meaning of some keywords that is left open;
* `Reading.Asks` : what a keyword asks of a value, from what its parts ask;
* `Reading.judge` : what can be told in some steps;
* `Reading.Satisfies` : a value satisfies a schema;
* `Schema.core` : the keywords that ask something;
* `Reading.satisfies_iff` : so a value satisfies a schema exactly if it has what each keyword asks for.
-/

namespace ShapeExport

/-- The value is the constant. Numbers are compared by value. No constant is an array or an object, so nothing inside
one is compared. -/
def Json.IsConstant (constant value : Json) : Prop :=
  match constant with
  | .number n => ∃ m, value = .number m ∧ n.eq m
  | constant => value = constant

namespace JsonSchema
open Filter

/-- The values of a type. A number without a fraction is an integer, however it is written. -/
def TypeName.Covers : TypeName → Json → Prop
  | null, v => v = .null
  | boolean, v => ∃ b, v = .bool b
  | integer, v => ∃ (n : Int) (m : Number), v = .number m ∧ (Number.integer n).eq m
  | number, v => ∃ m, v = .number m
  | string, v => ∃ s, v = .string s
  | array, v => ∃ items, v = .array items
  | object, v => ∃ members, v = .object members

/-- A property with this key is listed in a schema with these keywords. -/
def Lists (keywords : List (Keyword Schema)) (key : String) : Prop :=
  ∃ members, .properties members ∈ keywords ∧ key ∈ members.map (·.1)

/-- The item at this position has a schema of its own. -/
def Leads (keywords : List (Keyword Schema)) (i : Nat) : Prop :=
  ∃ version items, .leadingItems version items ∈ keywords ∧ i < items.length

/-- What a schema is read with. -/
structure Reading where
  definition? : TypeKey → Option Schema
  /-- What the keywords ask that are left open here: bounds, lengths, patterns, formats and items without repetitions. -/
  other : Keyword Schema → Json → Prop

namespace Reading

variable {R : Reading} {siblings : List (Keyword Schema)} {yes no yes' no' : Schema → Json → Prop} {v : Json}
  {k : Keyword Schema} {s : Schema}

/-- What a keyword asks of a value, beside the other keywords of its schema. `yes` and `no` say what its parts ask
where that makes it harder, and where it makes it easier. -/
def Asks (R : Reading) (siblings : List (Keyword Schema)) (yes no : Schema → Json → Prop) (v : Json) :
    Keyword Schema → Prop
  | .type name => name.Covers v
  | .const value => value.IsConstant v
  | .enum values => ∃ s ∈ values, v = .string s
  | .reference target _ => ∃ s, R.definition? target = some s ∧ yes s v
  | .items item => ∀ xs, v = .array xs → ∀ p ∈ xs.zipIdx, ¬ Leads siblings p.2 → yes item p.1
  | .leadingItems _ items => ∀ xs, v = .array xs → ∀ p ∈ items.zip xs, yes p.1 p.2
  | .noMoreItems _ => ∀ xs, v = .array xs → ∀ i < xs.length, Leads siblings i
  | .minItems n => ∀ xs, v = .array xs → n ≤ xs.length
  | .maxItems n => ∀ xs, v = .array xs → xs.length ≤ n
  | .properties members => ∀ os, v = .object os → ∀ m ∈ members, ∀ o ∈ os, o.1 = m.1 → yes m.2 o.2
  | .required keys => ∀ os, v = .object os → ∀ key ∈ keys, ∃ o ∈ os, key = .string o.1
  | .closed => ∀ os, v = .object os → ∀ o ∈ os, Lists siblings o.1
  | .values value => ∀ os, v = .object os → ∀ o ∈ os, ¬ Lists siblings o.1 → yes value o.2
  | .propertyNames names => ∀ os, v = .object os → ∀ o ∈ os, yes names (.string o.1)
  | .anyOf schemas => ∃ s ∈ schemas, yes s v
  | .allOf schemas => ∀ s ∈ schemas, yes s v
  | .not schema => ¬ no schema v
  | .description _ | .deprecated => True
  | k => R.other k v

/-- Whether a value satisfies a schema, as far as some steps tell. Where they are used up, the answer is `doubt`.
Under `not` the doubt turns around. -/
def judge (R : Reading) (doubt : Bool) : Nat → Schema → Json → Prop
  | 0, _, _ => doubt
  | n + 1, s, v => ∀ k ∈ s.keywords, R.Asks s.keywords (R.judge doubt n) (R.judge (!doubt) n) v k

/-- Some number of steps tells that the value satisfies the schema. -/
def Satisfies (R : Reading) (s : Schema) (v : Json) : Prop := ∃ n, R.judge false n s v

/-- No number of steps tells that the value does not satisfy the schema. -/
def Allows (R : Reading) (s : Schema) (v : Json) : Prop := ∀ n, R.judge true n s v

/-! ## What is asked of objects -/

section Objects

variable {os : List (String × Json)}

theorem forall_object {P : List (String × Json) → Prop} : (∀ ms, Json.object os = .object ms → P ms) ↔ P os := by
  constructor
  · exact fun h => h os rfl
  · rintro h _ ⟨⟩
    exact h

@[simp] theorem asks_type_object : R.Asks siblings yes no (.object os) (.type .object) := ⟨os, rfl⟩

@[simp] theorem asks_properties {members : List (String × Schema)} :
    R.Asks siblings yes no (.object os) (.properties members) ↔
      ∀ m ∈ members, ∀ o ∈ os, o.1 = m.1 → yes m.2 o.2 := forall_object

@[simp] theorem asks_required {keys : List Json} : R.Asks siblings yes no (.object os) (.required keys) ↔
    ∀ key ∈ keys, ∃ o ∈ os, key = .string o.1 := forall_object

@[simp] theorem asks_closed : R.Asks siblings yes no (.object os) .closed ↔ ∀ o ∈ os, Lists siblings o.1 := forall_object

@[simp] theorem asks_values {value : Schema} : R.Asks siblings yes no (.object os) (.values value) ↔
    ∀ o ∈ os, ¬ Lists siblings o.1 → yes value o.2 := forall_object

@[simp] theorem asks_propertyNames {names : Schema} : R.Asks siblings yes no (.object os) (.propertyNames names) ↔
    ∀ o ∈ os, yes names (.string o.1) := forall_object

end Objects

/-! ## More steps -/

theorem Asks.mono (hy : ∀ s v, yes s v → yes' s v) (hn : ∀ s v, no' s v → no s v)
    (h : R.Asks siblings yes no v k) : R.Asks siblings yes' no' v k := by
  cases k with
  | reference target uri =>
    obtain ⟨s, hs, h⟩ := h
    exact ⟨s, hs, hy s v h⟩
  | items item => exact fun xs hv p hp hl => hy _ _ (h xs hv p hp hl)
  | leadingItems version items => exact fun xs hv p hp => hy _ _ (h xs hv p hp)
  | properties members => exact fun os hv m hm o ho e => hy _ _ (h os hv m hm o ho e)
  | values value => exact fun os hv o ho hl => hy _ _ (h os hv o ho hl)
  | propertyNames names => exact fun os hv o ho => hy _ _ (h os hv o ho)
  | anyOf schemas =>
    obtain ⟨s, hs, h⟩ := h
    exact ⟨s, hs, hy s v h⟩
  | allOf schemas => exact fun s hs => hy s v (h s hs)
  | not schema => exact fun hs => h (hn schema v hs)
  | _ => exact h

/-- With more steps, what was told stays, and less is in doubt. -/
theorem judge_succ_of_judge (R : Reading) (n : Nat) :
    (∀ s v, R.judge false n s v → R.judge false (n + 1) s v) ∧
      ∀ s v, R.judge true (n + 1) s v → R.judge true n s v := by
  induction n with
  | zero => exact ⟨fun s v h => absurd h Bool.false_ne_true, fun s v _ => rfl⟩
  | succ n ih =>
    obtain ⟨told, doubted⟩ := ih
    exact ⟨fun s v h k hk => (h k hk).mono told doubted, fun s v h k hk => (h k hk).mono doubted told⟩

theorem judge_of_le {m n : Nat} (le : m ≤ n) (h : R.judge false m s v) : R.judge false n s v := by
  induction le with
  | refl => exact h
  | step _ ih => exact (R.judge_succ_of_judge _).1 s v ih

theorem judge_of_ge {m n : Nat} (le : m ≤ n) (h : R.judge true n s v) : R.judge true m s v := by
  induction le with
  | refl => exact h
  | step _ ih => exact ih ((R.judge_succ_of_judge _).2 s v h)

theorem Satisfies.eventually (h : R.Satisfies s v) : ∀ᶠ n in atTop, R.judge false n s v := by
  obtain ⟨n, h⟩ := h
  exact eventually_atTop.2 ⟨n, fun m le => judge_of_le le h⟩

end Reading

/-! ## Notes -/

namespace Keyword

variable {σ : Type}

/-- Descriptions and deprecation markers ask nothing. -/
def isNote (k : Keyword σ) : Bool := k.isDescription || k.isDeprecated

end Keyword

namespace Schema

/-- The keywords of a schema without its notes. -/
def core (s : Schema) : List (Keyword Schema) := s.keywords.filter (!·.isNote)

theorem core_set {isSame : Keyword Schema → Bool} {k : Keyword Schema} (note : k.isNote)
    (notes : ∀ l, isSame l → l.isNote) (s : Schema) : (s.set isSame k).core = s.core := by
  unfold set
  split
  · show (s.keywords.map fun l => if isSame l then k else l).filter (!·.isNote) = s.keywords.filter (!·.isNote)
    induction s.keywords with
    | nil => rfl
    | cons l ls ih =>
      rw [List.map_cons, List.filter_cons, List.filter_cons, ih]
      by_cases hl : isSame l
      · rw [if_pos hl, note, notes l hl]
        rfl
      · rw [if_neg hl]
  · show (s.keywords ++ [k]).filter (!·.isNote) = s.keywords.filter (!·.isNote)
    rw [List.filter_append, List.filter_cons_of_neg (by rw [note]; exact Bool.false_ne_true)]
    exact List.append_nil _

@[simp] theorem core_annotate (lines : List String) (isDeprecated : Bool) (s : Schema) :
    (s.annotate lines isDeprecated).core = s.core := by
  have described : (if lines.isEmpty then s
      else s.set Keyword.isDescription (.description ("\n".intercalate lines))).core = s.core := by
    split
    · rfl
    · refine core_set rfl (fun l hl => ?_) s
      rw [Keyword.isNote, hl, Bool.true_or]
  unfold annotate
  dsimp only
  split
  · rw [core_set rfl (fun l hl => by rw [Keyword.isNote, hl, Bool.or_true]), described]
  · exact described

end Schema

namespace Reading

variable {R : Reading} {yes no : Schema → Json → Prop} {v : Json} {k : Keyword Schema} {s : Schema} {doubt : Bool}
  {n : Nat}

theorem Asks.congr_siblings {ks ls : List (Keyword Schema)} (lists : ∀ key, Lists ks key ↔ Lists ls key)
    (leads : ∀ i, Leads ks i ↔ Leads ls i) : R.Asks ks yes no v k ↔ R.Asks ls yes no v k := by
  cases k with
  | items | noMoreItems => simp only [Asks, leads]
  | closed | values => simp only [Asks, lists]
  | _ => exact Iff.rfl

theorem asks_of_isNote {siblings : List (Keyword Schema)} (h : k.isNote) : R.Asks siblings yes no v k := by
  cases k with
  | description | deprecated => trivial
  | _ => cases h

/-- Notes make no difference. -/
theorem judge_core : R.judge doubt (n + 1) s v ↔
    ∀ k ∈ s.core, R.Asks s.core (R.judge doubt n) (R.judge (!doubt) n) v k := by
  have lists : ∀ key, Lists s.keywords key ↔ Lists s.core key := by
    intro key
    unfold Lists Schema.core
    simp [Keyword.isNote, Keyword.isDescription, Keyword.isDeprecated]
  have leads : ∀ i, Leads s.keywords i ↔ Leads s.core i := by
    intro i
    unfold Leads Schema.core
    simp [Keyword.isNote, Keyword.isDescription, Keyword.isDeprecated]
  constructor
  · intro h k hk
    exact (Asks.congr_siblings lists leads).1 (h k (List.mem_filter.1 hk).1)
  · intro h k hk
    cases note : k.isNote with
    | true => exact asks_of_isNote note
    | false => exact (Asks.congr_siblings lists leads).2 (h k (List.mem_filter.2 ⟨hk, by rw [note]; rfl⟩))

theorem judge_single (core : s.core = [k]) : R.judge doubt (n + 1) s v ↔
    R.Asks [k] (R.judge doubt n) (R.judge (!doubt) n) v k := by
  rw [judge_core, core, List.forall_mem_singleton]

/-! ## What satisfaction means -/

/-- What is asked of the items or members of a value, where the value has some. -/
theorem eventually_of_eq {α : Type} {f : α → Json} (inj : Function.Injective f) {P : Nat → α → Prop}
    (h : ∀ a, v = f a → ∀ᶠ n in atTop, P n a) : ∀ᶠ n in atTop, ∀ a, v = f a → P n a :=
  (eventually_all_finite (I := {a | v = f a})
    (Set.Subsingleton.finite fun _ ha _ hb => inj (ha.symm.trans hb))).2 h

theorem eventually_of_mem {α : Type} {l : List α} {P : Nat → α → Prop} (h : ∀ a ∈ l, ∀ᶠ n in atTop, P n a) :
    ∀ᶠ n in atTop, ∀ a ∈ l, P n a :=
  (eventually_all_finite l.finite_toSet).2 h

/-- A keyword looks at finitely many parts, so some number of steps is enough for all of them. -/
theorem Asks.eventually {siblings : List (Keyword Schema)} (h : R.Asks siblings R.Satisfies R.Allows v k) :
    ∀ᶠ n in atTop, R.Asks siblings (R.judge false n) (R.judge true n) v k := by
  have arrays : Function.Injective Json.array := fun _ _ => Json.array.inj
  have objects : Function.Injective Json.object := fun _ _ => Json.object.inj
  cases k with
  | reference target uri =>
    obtain ⟨s, hs, h⟩ := h
    exact h.eventually.mono fun n told => ⟨s, hs, told⟩
  | items item =>
    exact eventually_of_eq arrays fun xs hv => eventually_of_mem fun p hp =>
      eventually_imp_distrib_left.2 fun hl => (h xs hv p hp hl).eventually
  | leadingItems version items =>
    exact eventually_of_eq arrays fun xs hv => eventually_of_mem fun p hp => (h xs hv p hp).eventually
  | properties members =>
    exact eventually_of_eq objects fun os hv => eventually_of_mem fun m hm => eventually_of_mem fun o ho =>
      eventually_imp_distrib_left.2 fun e => (h os hv m hm o ho e).eventually
  | values value =>
    exact eventually_of_eq objects fun os hv => eventually_of_mem fun o ho =>
      eventually_imp_distrib_left.2 fun hl => (h os hv o ho hl).eventually
  | propertyNames names =>
    exact eventually_of_eq objects fun os hv => eventually_of_mem fun o ho => (h os hv o ho).eventually
  | anyOf schemas =>
    obtain ⟨s, hs, h⟩ := h
    exact h.eventually.mono fun n told => ⟨s, hs, told⟩
  | allOf schemas => exact eventually_of_mem fun s hs => (h s hs).eventually
  | not schema =>
    -- What is not allowed is refused after some steps, and stays refused.
    obtain ⟨n, hn⟩ := not_forall.1 h
    exact eventually_atTop.2 ⟨n, fun m le allowed => hn (judge_of_ge le allowed)⟩
  | _ => exact .of_forall fun _ => h

/-- A value satisfies a schema if it has what each keyword asks for. -/
theorem satisfies_iff : R.Satisfies s v ↔ ∀ k ∈ s.core, R.Asks s.core R.Satisfies R.Allows v k := by
  constructor
  · rintro ⟨n, h⟩ k hk
    have told := judge_core.1 (judge_of_le n.le_succ h) k hk
    exact told.mono (fun s v h => ⟨n, h⟩) fun s v h => h n
  · intro h
    obtain ⟨n, told⟩ := (eventually_of_mem fun k hk => (h k hk).eventually).exists
    exact ⟨n + 1, judge_core.2 told⟩

theorem satisfies_of_core {l : List (Keyword Schema)} (core : s.core = l) :
    R.Satisfies s v ↔ ∀ k ∈ l, R.Asks l R.Satisfies R.Allows v k := by
  rw [satisfies_iff, core]

theorem satisfies_single (core : s.core = [k]) : R.Satisfies s v ↔ R.Asks [k] R.Satisfies R.Allows v k := by
  rw [satisfies_of_core core, List.forall_mem_singleton]

theorem satisfies_const {text : String} : R.Satisfies (.const text) v ↔ v = .string text :=
  satisfies_single (k := .const (.string text)) rfl

end Reading

end JsonSchema

end ShapeExport
