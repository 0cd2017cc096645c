import Mathlib.Logic.Relation
import ShapeExport.Proofs.Collection.Entries
import ShapeExport.Registry

/-!
# Calls, and the calls within them

A call for an id runs a producer unless the id is in the collection. The producer may make further
calls, so that a call is a tree of calls. A name in a catalog stands for an id together with a producer:
one producer may be there for several ids, and several for one id.

* `Producer.Asking` : what a producer asks for while it runs, and when;
* `Call` : an id and a producer, a workshop, and the ids whose producers are running;
* `Call.Opens`, `Call.opened`, `Call.run` : whether a call runs its producer, from where, and with what
  result;
* `Call.Makes` : the producer of one call makes another;
* `Workshop.declare_cases`, `Workshop.build_cases` : what a declaration does, and what becomes of a mark;
* `Workshop.request_of_some` : what a request does for a name in the catalog;
* `Workshop.requestInduction` : what holds of a request, by what the requests of its producer do;
* `Workshop.exists_runs_of_register` : the runs in the log are those of calls that opened.
-/

namespace ShapeExport
open Relation

/-- While a producer runs from one workshop, it asks for another producer in a second one. -/
inductive Producer.Asking (supply : Supply) : Producer → Workshop → String → Workshop → Prop
  | now {name : String} {next : Except Error TypeId → Producer} {w : Workshop} :
      Asking supply (.ask name next) w name w
  | inspected {next : Collection → Producer} {w v : Workshop} {name : String} :
      Asking supply (next w.types) w name v → Asking supply (.inspect next) w name v
  | answered {need name : String} {next : Except Error TypeId → Producer} {w v : Workshop} :
      Asking supply (next (supply need w).2) (supply need w).1 name v →
      Asking supply (.ask need next) w name v
  | declared {record : Record} {next : Except Error TypeId → Producer} {w v : Workshop} {name : String} :
      Asking supply (next (w.declare record).2) (w.declare record).1 name v →
      Asking supply (.declare record next) w name v

/-- A call for an id with the producer of the given name, while the producers of other ids are running. -/
structure Call where
  running : List TypeKey := []
  id : TypeId
  producer : String
  workshop : Workshop

namespace Call

variable (catalog : Catalog)

/-- The call runs its producer: the id is not in the collection. -/
def Opens (c : Call) (source : Source) : Prop :=
  catalog.lookup c.producer = some source ∧ ¬ c.workshop.types.contains c.id.key

/-- Where the run of the producer starts. -/
def opened (c : Call) (source : Source) : Workshop := c.workshop.begin c.id c.producer source

def supply (c : Call) : Supply := Workshop.request catalog (c.id.key :: c.running)

/-- What the run of the producer leaves and returns. -/
def run (c : Call) (source : Source) : Workshop × Except Error Record :=
  source.producer.run (c.supply catalog) (c.opened source)

/-- The producer of one call makes the other call. -/
def Makes (c d : Call) : Prop :=
  ∃ source s, c.Opens catalog source ∧ catalog.lookup d.producer = some s ∧ d.id = s.id ∧
    d.running = c.id.key :: c.running ∧
    source.producer.Asking (c.supply catalog) (c.opened source) d.producer d.workshop

/-- The other call is the call itself, or one that is made while its producer runs. -/
abbrev Leads : Call → Call → Prop := ReflTransGen (Makes catalog)

end Call

namespace Workshop

variable {catalog : Catalog}

/-- A declaration is refused and changes nothing, or its record stands under the next serial. -/
theorem declare_cases (w : Workshop) (r : Record) : (∃ e, w.declare r = (w, .error e)) ∨
    w.declare r = ({ w with
      types := w.types.insert (.issued w.serial r.name) (Collection.declared (.issued w.serial r.name) r)
      serial := w.serial + 1 }, .ok (.issued w.serial r.name)) := by
  unfold declare Collection.declare
  by_cases hg : r.isGeneric
  · rw [if_pos hg]
    exact Or.inl ⟨_, rfl⟩
  · rw [if_neg hg]
    exact Or.inr rfl

theorem build_of_error {supply : Supply} {id : TypeId} {name : String} {source : Source} {w v : Workshop}
    {e : Error} (h : source.producer.run supply (w.begin id name source) = (v, .error e)) :
    build supply id name source w = ({ v with types := v.types.erase id.key }, .error e) := by
  unfold build
  simp only [h]

theorem build_of_ok {supply : Supply} {id : TypeId} {name : String} {source : Source} {w v : Workshop}
    {r : Record} (h : source.producer.run supply (w.begin id name source) = (v, .ok r)) :
    build supply id name source w =
      if r.id.key = id.key then ({ v with types := v.types.insert id r }, .ok id)
      else ({ v with types := v.types.erase id.key }, .error (.wrongRecord id r.id)) := by
  unfold build
  simp only [h]

/-- After a run the record takes the place of the mark, or the mark is taken away. -/
theorem build_cases (supply : Supply) (id : TypeId) (name : String) (source : Source) (w : Workshop) :
    ∃ v result, source.producer.run supply (w.begin id name source) = (v, result) ∧
      ((∃ r, result = .ok r ∧ r.id.key = id.key ∧
          build supply id name source w = ({ v with types := v.types.insert id r }, .ok id)) ∨
        (∀ r, result = .ok r → r.id.key ≠ id.key) ∧
          ∃ e, build supply id name source w = ({ v with types := v.types.erase id.key }, .error e)) := by
  cases h : source.producer.run supply (w.begin id name source) with
  | mk v result =>
    refine ⟨v, result, rfl, ?_⟩
    cases result with
    | error e =>
      refine Or.inr ⟨fun r hr => ?_, e, build_of_error h⟩
      cases hr
    | ok r =>
      have eq := build_of_ok h
      by_cases hk : r.id.key = id.key
      · rw [if_pos hk] at eq
        exact Or.inl ⟨r, rfl, hk, eq⟩
      · rw [if_neg hk] at eq
        refine Or.inr ⟨fun s hs => ?_, _, eq⟩
        obtain rfl := Except.ok.inj hs
        exact hk

theorem request_of_none {name : String} (h : catalog.lookup name = none) (running : List TypeKey) (w : Workshop) :
    request catalog running name w = (w, .error (.unknownProducer name)) := by
  rw [request.eq_def]
  split
  · rfl
  · next s hs =>
    rw [h] at hs
    cases hs

theorem request_of_some {name : String} {source : Source} (h : catalog.lookup name = some source)
    (running : List TypeKey) (w : Workshop) : request catalog running name w =
      if w.types.contains source.id.key ∨ source.id.key ∈ running then (w, .ok source.id)
      else build (request catalog (source.id.key :: running)) source.id name source w := by
  rw [request.eq_def]
  split
  · next hn =>
    rw [h] at hn
    cases hn
  · next s hs =>
    obtain rfl := Option.some.inj (h.symm.trans hs)
    rw [dite_eq_ite]

/-- Induction over the calls that a request leads to. -/
theorem requestInduction
    {motive : List TypeKey → String → Workshop → Workshop × Except Error TypeId → Prop}
    (unknown : ∀ running name w, catalog.lookup name = none →
      motive running name w (w, .error (.unknownProducer name)))
    (known : ∀ running name w source, catalog.lookup name = some source →
      w.types.contains source.id.key ∨ source.id.key ∈ running → motive running name w (w, .ok source.id))
    (build : ∀ running name w source, catalog.lookup name = some source →
      ¬ w.types.contains source.id.key →
      (∀ need v, motive (source.id.key :: running) need v
        (request catalog (source.id.key :: running) need v)) →
      motive running name w
        (build (request catalog (source.id.key :: running)) source.id name source w))
    (running : List TypeKey) (name : String) (w : Workshop) :
    motive running name w (request catalog running name w) := by
  induction running, name, w using request.induct catalog with
  | case1 running name w h =>
    rw [request_of_none h]
    exact unknown running name w h
  | case2 running name w source h hk =>
    rw [request_of_some h, if_pos hk]
    exact known running name w source h hk
  | case3 running name w source h hk ih =>
    rw [request_of_some h, if_neg hk]
    exact build running name w source h (fun hc => hk (Or.inl hc)) ih

/-- A reference registers its target under the target's own id. -/
theorem request_eq_register {name : String} {source : Source} (h : catalog.lookup name = some source)
    (w : Workshop) : w.request catalog [] name = w.register catalog source.id name := by
  rw [request_of_some h, register, h]
  simp only [List.not_mem_nil, or_false]

/-! ## The log -/

/-- The runs that the producer adds to the log come from what it asks for. -/
theorem exists_runs_of_run {supply : Supply} {P : String → Workshop → Run → Prop}
    (hs : ∀ name w, ∃ runs, (supply name w).1.runs = w.runs ++ runs ∧ ∀ run ∈ runs, P name w run)
    (producer : Producer) (w : Workshop) :
    ∃ runs, (producer.run supply w).1.runs = w.runs ++ runs ∧
      ∀ run ∈ runs, ∃ need v, producer.Asking supply w need v ∧ P need v run := by
  induction producer generalizing w with
  | finish result => exact ⟨[], (List.append_nil _).symm, List.forall_mem_nil _⟩
  | inspect next ih =>
    obtain ⟨runs, e, h⟩ := ih w.types w
    refine ⟨runs, e, fun run hr => ?_⟩
    obtain ⟨need, v, ha, hp⟩ := h run hr
    exact ⟨need, v, .inspected ha, hp⟩
  | ask name next ih =>
    obtain ⟨first, e, h⟩ := hs name w
    obtain ⟨rest, e', h'⟩ := ih (supply name w).2 (supply name w).1
    refine ⟨first ++ rest, ?_, fun run hr => ?_⟩
    · rw [← List.append_assoc, ← e]
      exact e'
    · rcases List.mem_append.1 hr with hr | hr
      · exact ⟨name, w, .now, h run hr⟩
      · obtain ⟨need, v, ha, hp⟩ := h' run hr
        exact ⟨need, v, .answered ha, hp⟩
  | declare record next ih =>
    obtain ⟨runs, e, h⟩ := ih (w.declare record).2 (w.declare record).1
    refine ⟨runs, ?_, fun run hr => ?_⟩
    · have same : (w.declare record).1.runs = w.runs := by
        obtain ⟨_, h⟩ | h := declare_cases w record <;> rw [h]
      rw [← same]
      exact e
    · obtain ⟨need, v, ha, hp⟩ := h run hr
      exact ⟨need, v, .declared ha, hp⟩

theorem runs_build (supply : Supply) (id : TypeId) (name : String) (source : Source) (w : Workshop) :
    (build supply id name source w).1.runs =
      (source.producer.run supply (w.begin id name source)).1.runs := by
  obtain ⟨v, result, hv, ⟨record, -, -, h⟩ | ⟨-, e, h⟩⟩ := build_cases supply id name source w
  · rw [h, hv]
  · rw [h, hv]

/-- The run is what is logged of a call that opened. -/
def IsRunOf (catalog : Catalog) (c : Call) (run : Run) : Prop :=
  ∃ d source, Call.Leads catalog c d ∧ d.Opens catalog source ∧ run = d.workshop.runOf d.id d.producer source

theorem exists_runs_of_build {c : Call} {source : Source} (opens : c.Opens catalog source)
    (hs : ∀ name w, ∃ runs, (c.supply catalog name w).1.runs = w.runs ++ runs ∧ ∀ run ∈ runs,
      ∃ s, catalog.lookup name = some s ∧ IsRunOf catalog ⟨c.id.key :: c.running, s.id, name, w⟩ run) :
    ∃ runs, (build (c.supply catalog) c.id c.producer source c.workshop).1.runs =
      c.workshop.runs ++ runs ∧ ∀ run ∈ runs, IsRunOf catalog c run := by
  obtain ⟨runs, e, h⟩ := exists_runs_of_run hs source.producer (c.opened source)
  refine ⟨c.workshop.runOf c.id c.producer source :: runs, ?_, ?_⟩
  · rw [runs_build, List.append_cons]
    exact e
  · intro run hr
    rcases List.mem_cons.1 hr with rfl | hr
    · exact ⟨c, source, .refl, opens, rfl⟩
    · obtain ⟨need, v, ha, s, hl, d, t, hd, ho, hp⟩ := h run hr
      have makes : c.Makes catalog ⟨c.id.key :: c.running, s.id, need, v⟩ :=
        ⟨source, s, opens, hl, rfl, rfl, ha⟩
      exact ⟨d, t, .head makes hd, ho, hp⟩

theorem exists_runs_of_request (running : List TypeKey) (name : String) (w : Workshop) :
    ∃ runs, (request catalog running name w).1.runs = w.runs ++ runs ∧ ∀ run ∈ runs,
      ∃ s, catalog.lookup name = some s ∧ IsRunOf catalog ⟨running, s.id, name, w⟩ run := by
  refine requestInduction (motive := fun running name w v => ∃ runs, v.1.runs = w.runs ++ runs ∧
    ∀ run ∈ runs, ∃ s, catalog.lookup name = some s ∧ IsRunOf catalog ⟨running, s.id, name, w⟩ run)
    ?_ ?_ ?_ running name w
  · exact fun _ _ w _ => ⟨[], (List.append_nil _).symm, List.forall_mem_nil _⟩
  · exact fun _ _ w _ _ _ => ⟨[], (List.append_nil _).symm, List.forall_mem_nil _⟩
  · intro running name w source hl hk ih
    obtain ⟨runs, e, h⟩ := exists_runs_of_build (c := ⟨running, source.id, name, w⟩) ⟨hl, hk⟩ ih
    exact ⟨runs, e, fun run hr => ⟨source, hl, h run hr⟩⟩

/-- The runs that a registration adds to the log are those of calls that opened. -/
theorem exists_runs_of_register (id : TypeId) (name : String) (w : Workshop) :
    ∃ runs, (w.register catalog id name).1.runs = w.runs ++ runs ∧
      ∀ run ∈ runs, IsRunOf catalog ⟨[], id, name, w⟩ run := by
  unfold register
  split
  · exact ⟨[], (List.append_nil _).symm, List.forall_mem_nil _⟩
  · next source hl =>
    split
    · exact ⟨[], (List.append_nil _).symm, List.forall_mem_nil _⟩
    · next hk =>
      exact exists_runs_of_build (c := ⟨[], id, name, w⟩) ⟨hl, hk⟩ (exists_runs_of_request _)

end Workshop

end ShapeExport
