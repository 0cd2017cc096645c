import ShapeExport.Proofs.Collection.Marks
import ShapeExport.Reachability

/-!
# References to ids that are missing

A producer gets a reference to each id that it asks for, also to one whose producer is still running.
When that producer fails its id is taken out again, and a record that was finished meanwhile may still
refer to it.

* `Collection.Closed` : each reference in a finished record leads to an id in the collection;
* `Producer.Sourced` : a producer refers only to ids that it was given;
* `Call.Abandons` : within a call a producer fails while a finished record refers to its id;
* `Workshop.Adds` : what a finished record refers to after a call;
* `Workshop.closed_registerEach_iff` : after any registrations references are whole just when each such
  id has come back, or the record that refers to it has gone.
-/

namespace ShapeExport

/-! ## Records of a collection after an operation -/

namespace Collection

/-- Each reference in a finished record leads to an id in the collection. -/
def Closed (c : Collection) : Prop := ∀ r ∈ c.members, ∀ k ∈ r.referenced, c.contains k

theorem mem_members_insert {c : Collection} {id : TypeId} {s r : Record}
    (h : r ∈ (c.insert id s).members) : r = s ∨ r ∈ c.members := by
  obtain ⟨k, hk⟩ := mem_members.1 h
  rw [resolve_insert] at hk
  split at hk
  · exact Or.inl (Option.some.inj hk).symm
  · exact Or.inr (mem_members.2 ⟨k, hk⟩)

theorem mem_members_mark {c : Collection} {id : TypeId} {r : Record}
    (h : r ∈ (c.mark id).members) : r ∈ c.members := by
  obtain ⟨k, hk⟩ := mem_members.1 h
  rw [resolve_mark] at hk
  split at hk
  · cases hk
  · exact mem_members.2 ⟨k, hk⟩

theorem mem_members_erase {c : Collection} {k : TypeKey} {r : Record}
    (h : r ∈ (c.erase k).members) : r ∈ c.members := by
  obtain ⟨k', hk⟩ := mem_members.1 h
  rw [resolve_erase] at hk
  split at hk
  · cases hk
  · exact mem_members.2 ⟨k', hk⟩

end Collection

/-! ## Where references come from -/

/-- The producer refers only to ids that it was given: those at the start, and those that it has asked
for or declared since. -/
def Producer.Sourced (catalog : Catalog) : List TypeKey → Producer → Prop
  | given, finish (.ok r) => ∀ k ∈ r.referenced, k ∈ given
  | _, finish (.error _) => True
  | given, inspect next => ∀ c, (next c).Sourced catalog given
  | given, ask name next =>
    (∀ source, catalog.lookup name = some source →
      (next (.ok source.id)).Sourced catalog (source.id.key :: given)) ∧
    ∀ e, (next (.error e)).Sourced catalog given
  | given, declare r next =>
    (∀ k ∈ r.referenced, k ∈ given) ∧
    (∀ serial, (next (.ok (.issued serial r.name))).Sourced catalog (⟨.virtual, serial⟩ :: given)) ∧
    ∀ e, (next (.error e)).Sourced catalog given

/-- Within the call a producer for the key fails, when the record is finished and refers to the key. -/
def Call.Abandons (catalog : Catalog) (c : Call) (k : TypeKey) (r : Record) : Prop :=
  ∃ d source, Call.Leads catalog c d ∧ d.Opens catalog source ∧ d.id.key = k ∧
    (∀ s, (d.run catalog source).2 = .ok s → s.id.key ≠ k) ∧
    r ∈ (d.run catalog source).1.types.members ∧ k ∈ r.referenced

namespace Workshop

variable {catalog : Catalog}

/-- A finished record was there before, or what it refers to is there, apart from what `P` tells. -/
def Adds (P : TypeKey → Record → Prop) (w v : Workshop) : Prop :=
  ∀ r ∈ v.types.members, r ∈ w.types.members ∨ ∀ k ∈ r.referenced, v.types.contains k ∨ P k r

theorem Adds.refl (P : TypeKey → Record → Prop) (w : Workshop) : Adds P w w := fun _ hr => Or.inl hr

theorem Adds.mono {P Q : TypeKey → Record → Prop} {w v : Workshop} (h : Adds P w v)
    (hPQ : ∀ k r, P k r → Q k r) : Adds Q w v := by
  intro r hr
  rcases h r hr with hr | hr
  · exact Or.inl hr
  · exact Or.inr fun k hk => (hr k hk).imp_right (hPQ k r)

theorem Adds.trans {P : TypeKey → Record → Prop} {w v u : Workshop} (h : Adds P w v) (h' : Adds P v u)
    (keeps : v.Keeps u) : Adds P w u := by
  intro r hr
  rcases h' r hr with hr | hr
  · rcases h r hr with hr | hr
    · exact Or.inl hr
    · exact Or.inr fun k hk => (hr k hk).imp_left keeps.contains
  · exact Or.inr hr

theorem adds_declare {P : TypeKey → Record → Prop} {w : Workshop} {r : Record}
    (h : ∀ k ∈ r.referenced, w.types.contains k) : Adds P w (w.declare r).1 := by
  intro s hs
  have keeps := keeps_declare w r
  obtain ⟨e, eq⟩ | eq := declare_cases w r
  · rw [eq] at hs
    exact Or.inl hs
  · rw [eq] at hs keeps ⊢
    rcases Collection.mem_members_insert hs with rfl | hs
    · exact Or.inr fun k hk => Or.inl (keeps.contains (h k hk))
    · exact Or.inl hs

theorem Adds.of_mark {P : TypeKey → Record → Prop} {w v : Workshop} {id : TypeId} {name : String}
    {source : Source} (h : Adds P (w.begin id name source) v) : Adds P w v :=
  fun r hr => (h r hr).imp_left Collection.mem_members_mark

theorem Adds.insert {P : TypeKey → Record → Prop} {w v : Workshop} (h : Adds P w v) (id : TypeId)
    {s : Record} (hs : ∀ k ∈ s.referenced, v.types.contains k) :
    Adds P w { v with types := v.types.insert id s } := by
  intro r hr
  rcases Collection.mem_members_insert hr with rfl | hr
  · exact Or.inr fun k hk => Or.inl (Collection.contains_insert.2 (Or.inr (hs k hk)))
  · rcases h r hr with hr | hr
    · exact Or.inl hr
    · exact Or.inr fun k hk => (hr k hk).imp_left fun hc => Collection.contains_insert.2 (Or.inr hc)

/-- When an id is taken away, `P` is to tell the records that refer to it. -/
theorem Adds.erase {P : TypeKey → Record → Prop} {w v : Workshop} (h : Adds P w v) {k : TypeKey}
    (lost : ∀ r ∈ v.types.members, k ∈ r.referenced → P k r) :
    Adds P w { v with types := v.types.erase k } := by
  intro r hr
  have member := Collection.mem_members_erase hr
  rcases h r member with before | whole
  · exact Or.inl before
  · refine Or.inr fun k' hk => ?_
    by_cases hid : k' = k
    · subst hid
      exact Or.inr (lost r member hk)
    · exact (whole k' hk).imp_left fun hc => Collection.contains_erase.2 ⟨hid, hc⟩

/-- A run adds what `P` tells, and all that the record of the run refers to is there. -/
def RunAdds (P : TypeKey → Record → Prop) (w : Workshop) (v : Workshop × Except Error Record) : Prop :=
  Adds P w v.1 ∧ ∀ r, v.2 = .ok r → ∀ k ∈ r.referenced, v.1.types.contains k

theorem RunAdds.after {P Q : TypeKey → Record → Prop} {w v : Workshop}
    {u : Workshop × Except Error Record} (h : RunAdds Q v u) (first : Adds P w v) (keeps : v.Keeps u.1)
    (hQP : ∀ k r, Q k r → P k r) : RunAdds P w u :=
  ⟨first.trans (h.1.mono hQP) keeps, h.2⟩

/-- How requests are answered while some ids are marked: an answer is the id of the producer, and it is in
the collection. -/
structure Answers (catalog : Catalog) (marked : List TypeKey)
    (P : String → Workshop → TypeKey → Record → Prop) (supply : Supply) : Prop where
  keeps : ∀ name w, Keeps w (supply name w).1
  adds : ∀ name w, (∀ k ∈ marked, w.types.contains k) → Adds (P name w) w (supply name w).1
  known : ∀ name w, (∀ k ∈ marked, w.types.contains k) → ∀ id, (supply name w).2 = .ok id →
    ∃ source, catalog.lookup name = some source ∧ source.id = id ∧
      (supply name w).1.types.contains id.key

/-- What a producer refers to was given to it, and stays in the collection to the end of the run. -/
theorem runAdds_of_sourced {marked : List TypeKey} {P : String → Workshop → TypeKey → Record → Prop}
    {supply : Supply} (hs : Answers catalog marked P supply) {producer : Producer}
    {given : List TypeKey} (sourced : producer.Sourced catalog given) {w : Workshop}
    (hm : ∀ k ∈ marked, w.types.contains k) (hg : ∀ k ∈ given, w.types.contains k) :
    RunAdds (fun k r => ∃ need v, producer.Asking supply w need v ∧ P need v k r) w
      (producer.run supply w) := by
  induction producer generalizing w given with
  | finish result =>
    refine ⟨.refl _ _, fun r hr k hk => ?_⟩
    obtain rfl : result = .ok r := hr
    exact hg k (sourced k hk)
  | inspect next ih =>
    refine (ih w.types (sourced w.types) hm hg).after (.refl _ _) (keeps_run hs.keeps _ w) ?_
    rintro k r ⟨need, v, asking, hp⟩
    exact ⟨need, v, .inspected asking, hp⟩
  | ask name next ih =>
    have keeps := hs.keeps name w
    have hm' : ∀ k ∈ marked, (supply name w).1.types.contains k := fun k hk => keeps.contains (hm k hk)
    have hg' : ∀ k ∈ given, (supply name w).1.types.contains k := fun k hk => keeps.contains (hg k hk)
    have first := (hs.adds name w hm).mono (Q := fun k r => ∃ need v,
      (Producer.ask name next).Asking supply w need v ∧ P need v k r) fun k r hp => ⟨name, w, .now, hp⟩
    have rest : RunAdds (fun k r => ∃ need v,
        (next (supply name w).2).Asking supply (supply name w).1 need v ∧ P need v k r) (supply name w).1
        ((next (supply name w).2).run supply (supply name w).1) := by
      cases answer : (supply name w).2 with
      | error e => exact ih _ (sourced.2 e) hm' hg'
      | ok id =>
        obtain ⟨source, hl, rfl, hid⟩ := hs.known name w hm id answer
        exact ih _ (sourced.1 source hl) hm' (List.forall_mem_cons.2 ⟨hid, hg'⟩)
    refine rest.after first (keeps_run hs.keeps _ _) ?_
    rintro k r ⟨need, v, asking, hp⟩
    exact ⟨need, v, .answered asking, hp⟩
  | declare record next ih =>
    -- A declared record may refer to what was given so far, and is then given itself.
    obtain ⟨refers, accepted, refused⟩ := sourced
    have keeps := keeps_declare w record
    have hm' : ∀ k ∈ marked, (w.declare record).1.types.contains k := fun k hk =>
      keeps.contains (hm k hk)
    have hg' : ∀ k ∈ given, (w.declare record).1.types.contains k := fun k hk =>
      keeps.contains (hg k hk)
    have rest : RunAdds (fun k r => ∃ need v,
        (next (w.declare record).2).Asking supply (w.declare record).1 need v ∧ P need v k r)
        (w.declare record).1 ((next (w.declare record).2).run supply (w.declare record).1) := by
      obtain ⟨e, eq⟩ | eq := declare_cases w record
      · rw [eq] at hm' hg' ⊢
        exact ih _ (refused e) hm' hg'
      · rw [eq] at hm' hg' ⊢
        refine ih _ (accepted w.serial) hm' (List.forall_mem_cons.2 ⟨?_, hg'⟩)
        exact Collection.contains_insert.2 (Or.inl rfl)
    refine rest.after (adds_declare fun k hk => hg k (refers k hk)) (keeps_run hs.keeps _ _) ?_
    rintro k r ⟨need, v, asking, hp⟩
    exact ⟨need, v, .declared asking, hp⟩

/-! ## Calls -/

/-- What the requests within a call abandon, the call abandons. -/
theorem abandons_of_asking {c : Call} {source : Source} (opens : c.Opens catalog source) {need : String}
    {v : Workshop} (asking : source.producer.Asking (c.supply catalog) (c.opened source) need v)
    {s : Source} (hl : catalog.lookup need = some s) {k : TypeKey} {r : Record}
    (h : Call.Abandons catalog ⟨c.id.key :: c.running, s.id, need, v⟩ k r) : c.Abandons catalog k r := by
  obtain ⟨d, t, leads, rest⟩ := h
  exact ⟨d, t, .head ⟨source, s, opens, hl, rfl, rfl, asking⟩ leads, rest⟩

/-- A request while the producers of some ids are running abandons what its call does. -/
def RequestAbandons (catalog : Catalog) (running : List TypeKey) (name : String) (w : Workshop)
    (k : TypeKey) (r : Record) : Prop :=
  ∃ s, catalog.lookup name = some s ∧ Call.Abandons catalog ⟨running, s.id, name, w⟩ k r

/-- A call that opens adds its record, or takes its id away from those who refer to it. -/
theorem adds_build {c : Call} {source : Source} (opens : c.Opens catalog source)
    (sourced : source.producer.Sourced catalog []) (hm : ∀ k ∈ c.running, c.workshop.types.contains k)
    (hs : Answers catalog (c.id.key :: c.running) (RequestAbandons catalog (c.id.key :: c.running))
      (c.supply catalog)) :
    Adds (c.Abandons catalog) c.workshop (build (c.supply catalog) c.id c.producer source c.workshop).1 ∧
      ∀ id, (build (c.supply catalog) c.id c.producer source c.workshop).2 = .ok id → c.id = id ∧
        (build (c.supply catalog) c.id c.producer source c.workshop).1.types.contains id.key := by
  have marked : ∀ k ∈ c.id.key :: c.running, (c.opened source).types.contains k := by
    intro k hk
    exact Collection.contains_mark.2 ((List.mem_cons.1 hk).imp_right (hm k))
  have run := runAdds_of_sourced hs sourced marked (List.forall_mem_nil _)
  obtain ⟨v, result, hv, ends⟩ := build_cases (c.supply catalog) c.id c.producer source c.workshop
  have hrun : c.run catalog source = (v, result) := hv
  have within : source.producer.run (c.supply catalog) (c.opened source) = (v, result) := hv
  rw [within] at run
  have adds : Adds (c.Abandons catalog) c.workshop v := by
    refine (run.1.mono ?_).of_mark
    rintro k r ⟨need, u, asking, s, hl, h⟩
    exact abandons_of_asking opens asking hl h
  obtain ⟨s, rfl, -, e⟩ | ⟨fails, error, e⟩ := ends
  · rw [e]
    refine ⟨adds.insert c.id (run.2 s rfl), fun id hid => ?_⟩
    obtain rfl := Except.ok.inj hid
    exact ⟨rfl, Collection.contains_insert.2 (Or.inl rfl)⟩
  · rw [e]
    refine ⟨adds.erase fun r hr hk => ?_, fun id hid => by cases hid⟩
    refine ⟨c, source, .refl, opens, rfl, ?_, ?_, hk⟩
    · rw [hrun]
      exact fails
    · rw [hrun]
      exact hr

variable (sourced : ∀ name source, catalog.lookup name = some source → source.producer.Sourced catalog [])
include sourced

theorem answers_request (running : List TypeKey) :
    Answers catalog running (RequestAbandons catalog running) (request catalog running) := by
  have all := @requestInduction catalog (fun running name w v =>
    (∀ k ∈ running, w.types.contains k) → Adds (RequestAbandons catalog running name w) w v.1 ∧
      ∀ id, v.2 = .ok id → ∃ source, catalog.lookup name = some source ∧ source.id = id ∧
        v.1.types.contains id.key) ?_ ?_ ?_
  · exact ⟨fun name w => keeps_request catalog running name w, fun name w hm => (all running name w hm).1,
      fun name w hm => (all running name w hm).2⟩
  · intro running name w hl hm
    exact ⟨.refl _ _, fun id hid => by cases hid⟩
  · intro running name w source hl hk hm
    refine ⟨.refl _ _, fun id hid => ?_⟩
    obtain rfl := Except.ok.inj hid
    exact ⟨source, hl, rfl, hk.elim (fun h => h) (hm _)⟩
  · intro running name w source hl hk ih hm
    have hs : Answers catalog (source.id.key :: running)
        (RequestAbandons catalog (source.id.key :: running))
        (request catalog (source.id.key :: running)) :=
      ⟨fun need v => keeps_request catalog _ need v, fun need v hv => (ih need v hv).1,
        fun need v hv => (ih need v hv).2⟩
    obtain ⟨adds, known⟩ := adds_build (c := ⟨running, source.id, name, w⟩) ⟨hl, hk⟩
      (sourced name source hl) hm hs
    refine ⟨adds.mono fun k r h => ⟨source, hl, h⟩, fun id hid => ?_⟩
    obtain ⟨rfl, here⟩ := known id hid
    exact ⟨source, hl, rfl, here⟩

theorem adds_register (id : TypeId) (name : String) (w : Workshop) :
    Adds (Call.Abandons catalog ⟨[], id, name, w⟩) w (w.register catalog id name).1 := by
  unfold register
  split
  · exact .refl _ _
  · next source hl =>
    split
    · exact .refl _ _
    · next hk =>
      exact (adds_build (c := ⟨[], id, name, w⟩) ⟨hl, hk⟩ (sourced name source hl)
        (List.forall_mem_nil _) (answers_request sourced _)).1

omit sourced

/-! ## One registration after another -/

/-- Registers ids one after another, whatever becomes of each. -/
def registerEach (catalog : Catalog) : List (TypeId × String) → Workshop → Workshop
  | [], w => w
  | (id, name) :: rest, w => registerEach catalog rest (w.register catalog id name).1

/-- In one of the registrations a producer for the key fails, when the record is finished and refers to
the key. -/
def AbandonsInOne (catalog : Catalog) : List (TypeId × String) → Workshop → TypeKey → Record → Prop
  | [], _, _, _ => False
  | (id, name) :: rest, w, k, r => Call.Abandons catalog ⟨[], id, name, w⟩ k r ∨
    AbandonsInOne catalog rest (w.register catalog id name).1 k r

theorem keeps_registerEach (calls : List (TypeId × String)) (w : Workshop) :
    w.Keeps (registerEach catalog calls w) := by
  induction calls generalizing w with
  | nil => exact .refl w
  | cons call rest ih => exact (keeps_register catalog call.1 call.2 w).trans (ih _)

include sourced

theorem adds_registerEach (calls : List (TypeId × String)) (w : Workshop) :
    Adds (AbandonsInOne catalog calls w) w (registerEach catalog calls w) := by
  induction calls generalizing w with
  | nil => exact .refl _ _
  | cons call rest ih =>
    have first := (adds_register sourced call.1 call.2 w).mono
      (Q := AbandonsInOne catalog (call :: rest) w) fun k r h => Or.inl h
    exact first.trans ((ih _).mono fun k r h => Or.inr h) (keeps_registerEach rest _)

omit sourced

theorem refers_of_abandonsInOne {calls : List (TypeId × String)} {w : Workshop} {k : TypeKey} {r : Record}
    (h : AbandonsInOne catalog calls w k r) : k ∈ r.referenced := by
  induction calls generalizing w with
  | nil => exact h.elim
  | cons call rest ih =>
    rcases h with ⟨_, _, -, -, -, -, -, hk⟩ | h
    · exact hk
    · exact ih h

/-- **When references stay whole.** Let producers refer only to ids that they were given. After any
registrations, whether they fail or not, each reference in a finished record leads to an id in the
collection just when this holds: where a producer failed while a finished record referred to its id, the
id is in the collection again or the record is there no more. -/
theorem closed_registerEach_iff (catalog : Catalog)
    (sourced : ∀ name source, catalog.lookup name = some source → source.producer.Sourced catalog [])
    (calls : List (TypeId × String)) {w : Workshop} (closed : w.types.Closed) :
    (registerEach catalog calls w).types.Closed ↔ ∀ k r, AbandonsInOne catalog calls w k r →
      r ∈ (registerEach catalog calls w).types.members → (registerEach catalog calls w).types.contains k := by
  constructor
  · intro h k r ha hr
    exact h r hr k (refers_of_abandonsInOne ha)
  · intro h r hr k hk
    rcases adds_registerEach sourced calls w r hr with hr' | hr'
    · exact (keeps_registerEach calls w).contains (closed r hr' k hk)
    · rcases hr' k hk with hc | ha
      · exact hc
      · exact h k r ha hr

end Workshop

/-! ## A record that refers to a failed producer -/

namespace Workshop.Abandoned

def outer : TypeId := ⟨⟨.static, 1⟩, "Outer"⟩

def inner : Record :=
  { id := ⟨⟨.static, 2⟩, "Inner"⟩, name := "Inner", shape := .list (.reference outer []) none false }

/-- `Outer` asks for `Inner`, which refers to `Outer`, and then fails. -/
def catalog : Catalog :=
  [("Outer", ⟨outer, .ask "Inner" fun _ => .finish (.error (.producerFailed "no"))⟩),
    ("Inner", ⟨inner.id, .ask "Outer" fun
      | .ok _ => .finish (.ok inner)
      | .error e => .finish (.error e)⟩)]

theorem referenced_inner : inner.referenced = [outer.key] := by
  simp [Record.referenced, inner, Shape.references_eq, Shape.ownReference, Shape.children]

theorem sourced_catalog : ∀ name source, catalog.lookup name = some source →
    source.producer.Sourced catalog [] := by
  intro name source h
  obtain ⟨l, r, e, -⟩ := List.lookup_eq_some_iff.1 h
  have hm : (name, source) ∈ catalog := by rw [e]; simp
  simp only [catalog, List.mem_cons, Prod.mk.injEq, List.not_mem_nil, or_false] at hm
  rcases hm with ⟨-, rfl⟩ | ⟨-, rfl⟩
  · exact ⟨fun _ _ => trivial, fun _ => trivial⟩
  · refine ⟨fun s hs => ?_, fun _ => trivial⟩
    obtain rfl : _ = s := Option.some.inj hs
    show ∀ k ∈ inner.referenced, k ∈ [outer.key]
    rw [referenced_inner]
    exact fun k hk => hk

theorem closed_empty : ({} : Workshop).types.Closed := List.forall_mem_nil _

theorem error_outer : ∃ e, (register catalog outer "Outer" {}).2 = .error e := by
  have fails : (register catalog outer "Outer" {}).2.toBool = false := by decide +kernel
  cases h : (register catalog outer "Outer" {}).2 with
  | error e => exact ⟨e, rfl⟩
  | ok id =>
    rw [h] at fails
    cases fails

theorem not_closed_outer : ¬ (register catalog outer "Outer" {}).1.types.Closed := by
  have lost : ((register catalog outer "Outer" {}).1.types.members.any fun r =>
      r.referenced.any fun k => !(register catalog outer "Outer" {}).1.types.contains k) = true := by
    decide +kernel
  intro closed
  obtain ⟨r, hr, hl⟩ := List.any_eq_true.1 lost
  obtain ⟨k, hk, hc⟩ := List.any_eq_true.1 hl
  rw [closed r hr k hk] at hc
  cases hc

/-- The registration of `Outer` fails and leaves `Inner`, which refers to it. -/
theorem failed_outer_not_closed :
    (∀ name source, catalog.lookup name = some source → source.producer.Sourced catalog []) ∧
      ({} : Workshop).types.Closed ∧ (∃ e, (register catalog outer "Outer" {}).2 = .error e) ∧
      ¬ (register catalog outer "Outer" {}).1.types.Closed :=
  ⟨sourced_catalog, closed_empty, error_outer, not_closed_outer⟩

theorem outer_abandons :
    (∀ name source, catalog.lookup name = some source → source.producer.Sourced catalog []) ∧
      ({} : Workshop).types.Closed ∧ ∃ k r, AbandonsInOne catalog [(outer, "Outer")] {} k r ∧
        r ∈ (registerEach catalog [(outer, "Outer")] {}).types.members ∧
        ¬ (registerEach catalog [(outer, "Outer")] {}).types.contains k := by
  refine ⟨sourced_catalog, closed_empty, ?_⟩
  have whole := closed_registerEach_iff catalog sourced_catalog [(outer, "Outer")] closed_empty
  by_contra none
  refine not_closed_outer (whole.2 fun k r ha hr => ?_)
  by_contra hk
  exact none ⟨k, r, ha, hr, hk⟩

end Workshop.Abandoned

end ShapeExport
