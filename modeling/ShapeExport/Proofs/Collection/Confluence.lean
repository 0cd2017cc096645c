import ShapeExport.Proofs.Collection.Calls

/-!
# Registration in any order

A plan fixes, for each id, a producer that asks for a list of others and then returns its record. A
request marks an id, runs the producer, and skips ids that are marked; so an id can be skipped because
its record is there or because its producer is still running. Neither loses a record:

* `Producer.Asks` : a producer asks for given producers and returns a given record;
* `Plan` : a catalog of such producers, one for each id;
* `Plan.Grows` : what a request does to a collection. An entry stays as it was, or it was absent and is
  now finished, and all that its producer asks for is in the collection;
* `Plan.request_grows`, `Plan.registerAll_grows` : requests and registrations grow the collection;
* `Collection.resolve_extend` : the records of a merged collection;
* `Assembly` : collections that are registered apart and merged;
* `Plan.resolve_assembly` : however the roots are registered, a record is there just when a root leads
  to it.
-/

namespace ShapeExport
open Relation

/-- The producer asks for the producers `needs`, one after another, and then returns `record`. What it
sees of the collection on the way changes nothing. -/
inductive Producer.Asks (catalog : Catalog) : List String → Record → Producer → Prop
  | finish (record : Record) : Asks catalog [] record (.finish (.ok record))
  | inspect {needs : List String} {record : Record} {next : Collection → Producer} :
      (∀ c, Asks catalog needs record (next c)) → Asks catalog needs record (.inspect next)
  | ask {name : String} {source : Source} {needs : List String} {record : Record}
      {next : Except Error TypeId → Producer} :
      catalog.lookup name = some source → Asks catalog needs record (next (.ok source.id)) →
      Asks catalog (name :: needs) record (.ask name next)

theorem Producer.Asks.lookup {catalog : Catalog} {needs : List String} {record : Record}
    {producer : Producer} (h : producer.Asks catalog needs record) :
    ∀ need ∈ needs, ∃ source, catalog.lookup need = some source := by
  induction h with
  | finish _ => intro need hn; cases hn
  | inspect _ ih => exact ih .empty
  | @ask name source _ _ _ hl _ ih =>
    intro need hn
    rcases List.mem_cons.1 hn with rfl | hn
    · exact ⟨source, hl⟩
    · exact ih need hn

/-- A catalog with one producer for each id, where it is settled what each asks for and returns. -/
structure Plan where
  catalog : Catalog
  needs : String → List String
  record : String → Record
  asks : ∀ {name source}, catalog.lookup name = some source →
    source.producer.Asks catalog (needs name) (record name)
  ownId : ∀ {name source}, catalog.lookup name = some source → (record name).id.key = source.id.key
  unique : ∀ {m n s t}, catalog.lookup m = some s → catalog.lookup n = some t →
    s.id.key = t.id.key → m = n

/-! ## Merged collections -/

namespace Collection

theorem resolve_adopt (c : Collection) (e : Entry) (k : TypeKey) :
    (c.adopt e).resolve k = if e.key = k then e.record <|> c.resolve k else c.resolve k := by
  unfold adopt
  cases he : e.record with
  | some r =>
    simp only [resolve, find?_insert, eq_comm (a := k)]
    split <;> simp
  | none =>
    have hnone : ∀ o : Option Record, (none <|> o) = o := fun o => rfl
    simp only [hnone, ite_self]
    split
    · rfl
    · next hc =>
      simp only [resolve, find?_mark]
      split
      · next hk =>
        rw [hk, find?_of_not_contains hc]
        rfl
      · rfl

theorem resolve_foldl_adopt {entries : List Entry} (h : (entries.map Entry.key).Nodup)
    (c : Collection) (k : TypeKey) :
    (entries.foldl adopt c).resolve k =
      ((entries.find? (·.key = k)).bind (·.record) <|> c.resolve k) := by
  induction entries generalizing c with
  | nil => simp
  | cons e entries ih =>
    obtain ⟨hne, hnd⟩ := List.nodup_cons.1 h
    rw [List.foldl_cons, ih hnd, resolve_adopt]
    by_cases hk : e.key = k
    · have hnone : entries.find? (·.key = k) = none := by
        rw [List.find?_eq_none]
        intro x hx hxk
        exact hne (List.mem_map.2 ⟨x, hx, (of_decide_eq_true hxk).trans hk.symm⟩)
      simp [hk, hnone]
    · simp [hk]

/-- The records of the collection that is taken in win. -/
theorem resolve_extend (c d : Collection) (k : TypeKey) :
    (c.extend d).resolve k = (d.resolve k <|> c.resolve k) := by
  unfold extend
  rw [resolve_foldl_adopt d.distinct]
  congr 1
  unfold resolve find?
  cases d.entries.find? (·.key = k) <;> rfl

end Collection

namespace Plan

variable {p : Plan}

/-! ## What leads to what -/

/-- The first producer asks for the second. -/
def Needs (p : Plan) (m n : String) : Prop := n ∈ p.needs m

/-- One of the names leads to the producer. -/
def Reaches (p : Plan) (names : List String) (n : String) : Prop :=
  ∃ m ∈ names, ReflTransGen p.Needs m n

/-- The record belongs at the key: one of the names leads to the producer with that id. -/
def Builds (p : Plan) (names : List String) (k : TypeKey) (r : Record) : Prop :=
  ∃ name source, p.Reaches names name ∧ p.catalog.lookup name = some source ∧ source.id.key = k ∧
    r = p.record name

/-- The id is that of a producer of the plan. -/
def Knows (p : Plan) (root : TypeId × String) : Prop :=
  ∃ source, p.catalog.lookup root.2 = some source ∧ source.id.key = root.1.key

theorem Reaches.of_mem {names : List String} {n : String} (h : n ∈ names) : p.Reaches names n :=
  ⟨n, h, .refl⟩

theorem Reaches.mono {names more : List String} {n : String} (h : p.Reaches names n)
    (hm : ∀ m ∈ names, m ∈ more) : p.Reaches more n := by
  obtain ⟨m, hn, hr⟩ := h
  exact ⟨m, hm m hn, hr⟩

/-- What the needs of a producer lead to, the producer leads to. -/
theorem Reaches.of_needs {name n : String} (h : p.Reaches (p.needs name) n) : p.Reaches [name] n := by
  obtain ⟨m, hm, hr⟩ := h
  exact ⟨name, List.mem_singleton_self name, ReflTransGen.head hm hr⟩

theorem Builds.eq {names more : List String} {k : TypeKey} {r s : Record} (h : p.Builds names k r)
    (h' : p.Builds more k s) : r = s := by
  obtain ⟨m, t, -, hm, hk, rfl⟩ := h
  obtain ⟨n, u, -, hn, hl, rfl⟩ := h'
  rw [p.unique hm hn (hk.trans hl.symm)]

theorem builds_append {names more : List String} {k : TypeKey} {r : Record} :
    p.Builds (names ++ more) k r ↔ p.Builds names k r ∨ p.Builds more k r := by
  constructor
  · rintro ⟨n, s, ⟨m, hm, hr⟩, h⟩
    rcases List.mem_append.1 hm with hm | hm
    · exact Or.inl ⟨n, s, ⟨m, hm, hr⟩, h⟩
    · exact Or.inr ⟨n, s, ⟨m, hm, hr⟩, h⟩
  · rintro (⟨n, s, hr, h⟩ | ⟨n, s, hr, h⟩)
    · exact ⟨n, s, hr.mono fun _ => List.mem_append_left _, h⟩
    · exact ⟨n, s, hr.mono fun _ => List.mem_append_right _, h⟩

theorem builds_congr {names more : List String} (h : ∀ n, n ∈ names ↔ n ∈ more) {k : TypeKey}
    {r : Record} : p.Builds names k r ↔ p.Builds more k r := by
  constructor
  · rintro ⟨n, s, hr, ht⟩
    exact ⟨n, s, hr.mono fun m => (h m).1, ht⟩
  · rintro ⟨n, s, hr, ht⟩
    exact ⟨n, s, hr.mono fun m => (h m).2, ht⟩

/-! ## What a request does -/

/-- All that the producer asks for is in the collection, finished or in progress. -/
def Covers (p : Plan) (c : Collection) (name : String) : Prop :=
  ∀ need ∈ p.needs name, ∀ source, p.catalog.lookup need = some source → c.contains source.id.key

/-- Each entry stays as it was, or it was absent and now has the record of a producer that the names
lead to. Then all that this producer asks for is there as well. -/
def Grows (p : Plan) (names : List String) (c d : Collection) : Prop :=
  ∀ k, d.find? k = c.find? k ∨ c.find? k = none ∧ ∃ name source, p.Reaches names name ∧
    p.catalog.lookup name = some source ∧ source.id.key = k ∧
    d.find? k = some (some (p.record name)) ∧ p.Covers d name

theorem Grows.refl (names : List String) (c : Collection) : p.Grows names c c := fun _ => Or.inl rfl

theorem Grows.contains {names : List String} {c d : Collection} (h : p.Grows names c d) {k : TypeKey}
    (hk : c.contains k) : d.contains k := by
  rw [Collection.contains_eq_isSome] at hk ⊢
  rcases h k with e | ⟨e, -⟩
  · rwa [e]
  · simp [e] at hk

theorem Covers.mono {c d : Collection} {name : String} (h : p.Covers c name)
    (hd : ∀ k, c.contains k → d.contains k) : p.Covers d name :=
  fun need hn source hs => hd _ (h need hn source hs)

theorem Grows.mono {names more : List String} {c d : Collection} (h : p.Grows names c d)
    (hm : ∀ m ∈ names, m ∈ more) : p.Grows more c d := by
  intro k
  rcases h k with e | ⟨e, n, s, hr, ht⟩
  · exact Or.inl e
  · exact Or.inr ⟨e, n, s, hr.mono hm, ht⟩

theorem Grows.trans {names : List String} {c d e : Collection} (h : p.Grows names c d)
    (h' : p.Grows names d e) : p.Grows names c e := by
  intro k
  rcases h k with hcd | ⟨hc, n, s, hr, hs, hk, hd, hn⟩
  · rcases h' k with hde | ⟨hd, ht⟩
    · exact Or.inl (hde.trans hcd)
    · exact Or.inr ⟨hcd ▸ hd, ht⟩
  · rcases h' k with hde | ⟨hd', -⟩
    · exact Or.inr ⟨hc, n, s, hr, hs, hk, hde.trans hd, hn.mono fun _ => h'.contains⟩
    · rw [hd] at hd'
      cases hd'

/-- How a request is answered while some ids are marked: with the id of the producer's record. The
collection grows by what the producer leads to, and the id is in it. -/
def Serves (p : Plan) (marked : List TypeKey) (supply : Supply) : Prop :=
  ∀ {name source} (w : Workshop), p.catalog.lookup name = some source →
    (∀ k ∈ marked, w.types.contains k) →
    ∃ w', supply name w = (w', .ok source.id) ∧ p.Grows [name] w.types w'.types ∧
      w'.types.contains source.id.key

/-- A producer gets all that it asks for, and returns its record. -/
theorem run_of_asks {marked : List TypeKey} {supply : Supply} (hs : p.Serves marked supply)
    {needs : List String} {r : Record} {producer : Producer} (h : producer.Asks p.catalog needs r)
    (w : Workshop) (hw : ∀ k ∈ marked, w.types.contains k) :
    ∃ w', producer.run supply w = (w', .ok r) ∧ p.Grows needs w.types w'.types ∧
      ∀ need ∈ needs, ∀ source, p.catalog.lookup need = some source →
        w'.types.contains source.id.key := by
  induction h generalizing w with
  | finish r => exact ⟨w, rfl, Grows.refl _ _, fun _ h => by cases h⟩
  | inspect _ ih => exact ih w.types w hw
  | @ask name source needs r next hl _ ih =>
    obtain ⟨v, hv, hg, hc⟩ := hs w hl hw
    obtain ⟨u, hu, hg', hc'⟩ := ih v fun k hk => hg.contains (hw k hk)
    refine ⟨u, ?_, (hg.mono ?_).trans (hg'.mono fun _ => List.mem_cons_of_mem _), ?_⟩
    · simp only [Producer.run, hv]
      exact hu
    · intro m hm
      rw [List.mem_singleton.1 hm]
      exact List.mem_cons_self
    · intro need hn t ht
      rcases List.mem_cons.1 hn with rfl | hn
      · rw [hl] at ht
        cases ht
        exact hg'.contains hc
      · exact hc' need hn t ht

/-- Building the record of an absent id marks the id, grows the collection by what the producer needs,
and replaces the mark by the record. -/
theorem build_grows {marked : List TypeKey} {supply : Supply} {id : TypeId}
    (hs : p.Serves (id.key :: marked) supply) {name : String} {source : Source}
    (hl : p.catalog.lookup name = some source) (hid : source.id.key = id.key) (w : Workshop)
    (hw : ∀ k ∈ marked, w.types.contains k) (habs : ¬ w.types.contains id.key) :
    ∃ w', Workshop.build supply id name source w = (w', .ok id) ∧ p.Grows [name] w.types w'.types ∧
      w'.types.contains id.key := by
  have hmark : ∀ k ∈ id.key :: marked, (w.types.mark id).contains k := by
    intro k hk
    rw [Collection.contains_eq_isSome, Collection.find?_mark]
    split
    · rfl
    · next hne =>
      exact hw k ((List.mem_cons.1 hk).resolve_left hne)
  obtain ⟨v, hv, hg, hc⟩ := run_of_asks hs (p.asks hl) (w.begin id name source) hmark
  have hown : (p.record name).id.key = id.key := (p.ownId hl).trans hid
  -- The record takes the place of the mark, so no id is lost.
  have hmono : ∀ k, v.types.contains k → (v.types.insert id (p.record name)).contains k := by
    intro k hk
    rw [Collection.contains_eq_isSome] at hk ⊢
    rw [Collection.find?_insert]
    split
    · rfl
    · exact hk
  have hcov : p.Covers (v.types.insert id (p.record name)) name :=
    fun need hn t ht => hmono _ (hc need hn t ht)
  refine ⟨{ v with types := v.types.insert id (p.record name) }, ?_, ?_, ?_⟩
  · simp only [Workshop.build, hv, hown, if_pos]
  · intro k
    show (v.types.insert id (p.record name)).find? k = _ ∨ _
    by_cases hk : k = id.key
    · subst hk
      refine Or.inr ⟨Collection.find?_of_not_contains habs, name, source,
        Reaches.of_mem (List.mem_singleton_self name), hl, hid, ?_, hcov⟩
      rw [Collection.find?_insert, if_pos rfl]
    · have hm : (w.types.mark id).find? k = w.types.find? k := by
        rw [Collection.find?_mark, if_neg hk]
      rcases hg k with e | ⟨e, n, s, hr, hn, hsk, hf, hcn⟩
      · refine Or.inl ?_
        rw [Collection.find?_insert, if_neg hk, e]
        exact hm
      · refine Or.inr ⟨hm ▸ e, n, s, hr.of_needs, hn, hsk, ?_, hcn.mono hmono⟩
        rw [Collection.find?_insert, if_neg hk]
        exact hf
  · apply Collection.contains_of_find? (o := some (p.record name))
    show (v.types.insert id (p.record name)).find? id.key = _
    rw [Collection.find?_insert, if_pos rfl]

/-- Requests are served, whichever producers are running. -/
theorem request_serves (p : Plan) (running : List TypeKey) :
    p.Serves running (Workshop.request p.catalog running) := by
  -- on the number of producers that are not running
  induction h : Workshop.idle p.catalog running using Nat.strongRecOn generalizing running with
  | ind n ih =>
  intro name source w hl hw
  rw [Workshop.request_of_some hl]
  split
  · next hc => exact ⟨w, rfl, Grows.refl _ _, hc.elim id (hw _)⟩
  · next hc =>
    have hr : source.id.key ∉ running := fun hr => hc (Or.inr hr)
    have hlt := h ▸ Workshop.idle_cons_lt hl hr
    exact build_grows (ih _ hlt _ rfl) hl rfl w hw fun hk => hc (Or.inl hk)

/-- The ids are registered one after another. -/
theorem registerAll_grows (roots : List (TypeId × String)) (known : ∀ root ∈ roots, p.Knows root)
    (w : Workshop) :
    ∃ w', Registry.registerAll p.catalog roots w = (w', .ok ()) ∧
      p.Grows (roots.map (·.2)) w.types w'.types ∧ ∀ root ∈ roots, w'.types.contains root.1.key := by
  induction roots generalizing w with
  | nil => exact ⟨w, rfl, Grows.refl _ _, fun _ h => by cases h⟩
  | cons root roots ih =>
    obtain ⟨id, name⟩ := root
    obtain ⟨source, hl, hid⟩ := known _ List.mem_cons_self
    have step : ∃ v, w.register p.catalog id name = (v, .ok id) ∧
        p.Grows [name] w.types v.types ∧ v.types.contains id.key := by
      simp only at hl hid
      unfold Workshop.register
      rw [hl]
      simp only
      split
      · next hc => exact ⟨w, rfl, Grows.refl _ _, hc⟩
      · next hc => exact build_grows (request_serves p [id.key]) hl hid w (fun _ h => by cases h) hc
    obtain ⟨v, hv, hg, hc⟩ := step
    obtain ⟨u, hu, hg', hc'⟩ := ih (fun root hr => known root (List.mem_cons_of_mem _ hr)) v
    refine ⟨u, ?_, (hg.mono ?_).trans (hg'.mono fun _ => List.mem_cons_of_mem _), ?_⟩
    · simp only [Registry.registerAll, hv]
      exact hu
    · intro m hm
      rw [List.mem_singleton.1 hm]
      exact List.mem_cons_self
    · intro root hr
      rcases List.mem_cons.1 hr with rfl | hr
      · exact hg'.contains hc
      · exact hc' root hr

/-! ## Records after registration -/

/-- A collection that grew from nothing holds just what the names lead to, if it holds the names. -/
theorem resolve_of_grows {names : List String} {c : Collection} (h : p.Grows names .empty c)
    (hc : ∀ name ∈ names, ∃ source, p.catalog.lookup name = some source ∧ c.contains source.id.key)
    {k : TypeKey} {r : Record} : c.resolve k = some r ↔ p.Builds names k r := by
  rw [Collection.resolve_eq_some_iff]
  have entry : ∀ k o, c.find? k = some o → ∃ name source, p.Reaches names name ∧
      p.catalog.lookup name = some source ∧ source.id.key = k ∧ o = some (p.record name) ∧
      p.Covers c name := by
    intro k o ho
    rcases h k with e | ⟨-, n, s, hr, hs, hk, hf, hn⟩
    · rw [ho, Collection.find?_empty] at e
      cases e
    · rw [ho] at hf
      exact ⟨n, s, hr, hs, hk, Option.some.inj hf, hn⟩
  -- an id that is there is finished, since nothing was in progress to begin with
  have finished : ∀ name source, p.catalog.lookup name = some source → c.contains source.id.key →
      c.find? source.id.key = some (some (p.record name)) ∧ p.Covers c name := by
    intro name source hl hin
    rw [Collection.contains_eq_isSome] at hin
    obtain ⟨o, ho⟩ := Option.isSome_iff_exists.1 hin
    obtain ⟨n, s, -, hs, hk, rfl, hn⟩ := entry _ o ho
    rw [← p.unique hs hl hk]
    exact ⟨ho, hn⟩
  constructor
  · intro hf
    obtain ⟨n, s, hr, hs, hk, e, -⟩ := entry k _ hf
    exact ⟨n, s, hr, hs, hk, Option.some.inj e⟩
  · rintro ⟨n, s, ⟨m, hm, hr⟩, hs, rfl, rfl⟩
    have reached : ∃ t, p.catalog.lookup n = some t ∧ c.contains t.id.key := by
      clear hs
      induction hr with
      | refl => exact hc m hm
      | @tail b d _ hbd ih =>
        obtain ⟨u, hu, hin⟩ := ih
        obtain ⟨t, ht⟩ := (p.asks hu).lookup d hbd
        exact ⟨t, ht, (finished b u hu hin).2 d hbd t ht⟩
    obtain ⟨t, ht, hin⟩ := reached
    rw [hs] at ht
    cases ht
    exact (finished n s hs hin).1

end Plan

/-! ## Registered apart and merged -/

/-- Collections that are registered from nothing, each from its own roots, and merged in some order. -/
inductive Assembly
  | registered (roots : List (TypeId × String))
  | merged (into other : Assembly)

namespace Assembly

def roots : Assembly → List (TypeId × String)
  | registered roots => roots
  | merged into other => into.roots ++ other.roots

def collection (catalog : Catalog) : Assembly → Except Error Collection
  | registered roots =>
    match Registry.registerAll catalog roots {} with
    | (w, .ok _) => .ok w.types
    | (_, .error e) => .error e
  | merged into other => do return (← into.collection catalog).extend (← other.collection catalog)

end Assembly

namespace Plan

variable {p : Plan}

theorem contains_roots {roots : List (TypeId × String)} (known : ∀ root ∈ roots, p.Knows root)
    {c : Collection} (hc : ∀ root ∈ roots, c.contains root.1.key) :
    ∀ name ∈ roots.map (·.2), ∃ source, p.catalog.lookup name = some source ∧
      c.contains source.id.key := by
  intro name hn
  obtain ⟨root, hr, rfl⟩ := List.mem_map.1 hn
  obtain ⟨source, hl, hid⟩ := known root hr
  exact ⟨source, hl, hid ▸ hc root hr⟩

/-- However the roots are registered, a record is there just when a root leads to it. -/
theorem resolve_assembly (a : Assembly) (known : ∀ root ∈ a.roots, p.Knows root) :
    ∃ c, a.collection p.catalog = .ok c ∧
      ∀ k r, c.resolve k = some r ↔ p.Builds (a.roots.map (·.2)) k r := by
  induction a with
  | registered roots =>
    obtain ⟨w, hw, hg, hc⟩ := registerAll_grows roots known {}
    refine ⟨w.types, ?_, fun k r => resolve_of_grows hg (contains_roots known hc)⟩
    simp only [Assembly.collection, hw]
  | merged into other ih ih' =>
    obtain ⟨c, hc, hi⟩ := ih fun root hr => known root (List.mem_append_left _ hr)
    obtain ⟨d, hd, ho⟩ := ih' fun root hr => known root (List.mem_append_right _ hr)
    refine ⟨c.extend d, ?_, fun k r => ?_⟩
    · simp only [Assembly.collection, hc, hd]
      rfl
    · rw [Assembly.roots, List.map_append, builds_append, ← hi, ← ho, Collection.resolve_extend]
      cases h : d.resolve k with
      | none => simp
      | some s =>
        have agree : ∀ t, c.resolve k = some t → t = s := fun t ht =>
          ((hi k t).1 ht).eq ((ho k s).1 h)
        show some s = some r ↔ _ ∨ some s = some r
        constructor
        · exact Or.inr
        · rintro (ht | ht)
          · rw [agree r ht]
          · exact ht

/-- The names of roots with the same ids are the same. -/
theorem names_of_ids {roots more : List (TypeId × String)} (known : ∀ root ∈ roots, p.Knows root)
    (known' : ∀ root ∈ more, p.Knows root)
    (h : ∀ k, k ∈ roots.map (·.1.key) → k ∈ more.map (·.1.key)) :
    ∀ n, n ∈ roots.map (·.2) → n ∈ more.map (·.2) := by
  intro n hn
  obtain ⟨root, hr, rfl⟩ := List.mem_map.1 hn
  obtain ⟨root', hr', e⟩ := List.mem_map.1 (h _ (List.mem_map.2 ⟨root, hr, rfl⟩))
  obtain ⟨s, hs, hk⟩ := known root hr
  obtain ⟨s', hs', hk'⟩ := known' root' hr'
  exact List.mem_map.2 ⟨root', hr', p.unique hs' hs (by rw [hk, hk', e])⟩

/-- **Registration is confluent.** Roots that are registered in any order, with repetitions, apart or
together, give each id the record that belongs to it if a root leads to it, and none otherwise; and so
does a registry that stores the roots. -/
theorem registration_confluent (p : Plan) (a : Assembly) (known : ∀ root ∈ a.roots, p.Knows root) :
    ∃ c, a.collection p.catalog = .ok c ∧
      (∀ k r, c.resolve k = some r ↔ p.Builds (a.roots.map (·.2)) k r) ∧
      (∀ b : Assembly, (∀ root ∈ b.roots, p.Knows root) →
        (∀ k, k ∈ b.roots.map (·.1.key) ↔ k ∈ a.roots.map (·.1.key)) →
        ∃ d, b.collection p.catalog = .ok d ∧ ∀ k, d.resolve k = c.resolve k) ∧
      ∀ (g : Registry) (w : Workshop), (∀ root ∈ g.sources, p.Knows root) →
        (∀ k, k ∈ g.sources.map (·.1.key) ↔ k ∈ a.roots.map (·.1.key)) →
        ∃ d, (g.collect p.catalog w).2 = .ok d ∧ ∀ k, d.resolve k = c.resolve k := by
  obtain ⟨c, hc, ha⟩ := resolve_assembly a known
  have same : ∀ (roots : List (TypeId × String)) (d : Collection), (∀ root ∈ roots, p.Knows root) →
      (∀ k, k ∈ roots.map (·.1.key) ↔ k ∈ a.roots.map (·.1.key)) →
      (∀ k r, d.resolve k = some r ↔ p.Builds (roots.map (·.2)) k r) →
      ∀ k, d.resolve k = c.resolve k := by
    intro roots d known' ids hd k
    apply Option.ext
    intro r
    rw [hd, ha]
    exact builds_congr fun n => ⟨names_of_ids known' known (fun k => (ids k).1) n,
      names_of_ids known known' (fun k => (ids k).2) n⟩
  refine ⟨c, hc, ha, fun b known' ids => ?_, fun g w known' ids => ?_⟩
  · obtain ⟨d, hd, hb⟩ := resolve_assembly b known'
    exact ⟨d, hd, same b.roots d known' ids hb⟩
  · have mem : ∀ root, root ∈ g.snapshot ↔ root ∈ g.sources := fun root => List.mem_mergeSort
    have known'' : ∀ root ∈ g.snapshot, p.Knows root := fun root hr => known' root ((mem root).1 hr)
    obtain ⟨v, hv, hg, hin⟩ := registerAll_grows g.snapshot known'' { w with types := .empty }
    refine ⟨v.types, ?_, same g.snapshot v.types known'' (fun k => ?_)
      fun k r => resolve_of_grows hg (contains_roots known'' hin)⟩
    · simp only [Registry.collect, hv]
    · rw [← ids k]
      simp only [List.mem_map, mem]

/-! ## Records that need each other -/

/-- A record without contents. -/
def plainRecord (hash : Nat) (name : String) : Record :=
  { id := ⟨⟨.static, hash⟩, name⟩, name, shape := .struct name .unit }

/-- A source that asks for the given producers and returns a record without contents. -/
def plainSource (hash : Nat) (name : String) (needs : List String) : Source :=
  ⟨(plainRecord hash name).id,
    needs.foldr (fun need rest => .ask need fun _ => rest) (.finish (.ok (plainRecord hash name)))⟩

/-- `A` asks for `B` and for itself, `B` for `A`, and no one for `C`. -/
def ringCatalog : Catalog :=
  [("A", plainSource 1 "A" ["B", "A"]), ("B", plainSource 2 "B" ["A"]),
    ("C", plainSource 3 "C" ["A"])]

theorem ringCatalog_cases {name : String} {source : Source}
    (h : ringCatalog.lookup name = some source) :
    name = "A" ∧ source = plainSource 1 "A" ["B", "A"] ∨ name = "B" ∧ source = plainSource 2 "B" ["A"] ∨
      name = "C" ∧ source = plainSource 3 "C" ["A"] := by
  obtain ⟨l, r, e, -⟩ := List.lookup_eq_some_iff.1 h
  have hm : (name, source) ∈ ringCatalog := by rw [e]; simp
  simpa [ringCatalog] using hm

def ring : Plan where
  catalog := ringCatalog
  needs name := if name = "A" then ["B", "A"] else ["A"]
  record name := plainRecord (if name = "A" then 1 else if name = "B" then 2 else 3) name
  asks h := by
    rcases ringCatalog_cases h with ⟨rfl, rfl⟩ | ⟨rfl, rfl⟩ | ⟨rfl, rfl⟩
    · exact .ask rfl (.ask rfl (.finish _))
    · exact .ask rfl (.finish _)
    · exact .ask rfl (.finish _)
  ownId h := by rcases ringCatalog_cases h with ⟨rfl, rfl⟩ | ⟨rfl, rfl⟩ | ⟨rfl, rfl⟩ <;> rfl
  unique hm hn hk := by
    rcases ringCatalog_cases hm with ⟨rfl, rfl⟩ | ⟨rfl, rfl⟩ | ⟨rfl, rfl⟩ <;>
      rcases ringCatalog_cases hn with ⟨rfl, rfl⟩ | ⟨rfl, rfl⟩ | ⟨rfl, rfl⟩ <;>
      first | rfl | cases hk

/-- `B`, and apart from it `A` twice; then both are merged. -/
def ringAssembly : Assembly :=
  .merged (.registered [((plainRecord 2 "B").id, "B")])
    (.registered [((plainRecord 1 "A").id, "A"), ((plainRecord 1 "A").id, "A")])

theorem registration_confluent_ring :
    (∀ root ∈ ringAssembly.roots, ring.Knows root) ∧
      ∃ c, ringAssembly.collection ring.catalog = .ok c ∧
        c.resolve ⟨.static, 1⟩ = some (plainRecord 1 "A") ∧
        c.resolve ⟨.static, 2⟩ = some (plainRecord 2 "B") ∧ c.resolve ⟨.static, 3⟩ = none := by
  have known : ∀ root ∈ ringAssembly.roots, ring.Knows root := by
    intro root hr
    simp only [ringAssembly, Assembly.roots, List.cons_append, List.nil_append, List.mem_cons,
      List.not_mem_nil, or_false] at hr
    rcases hr with rfl | rfl | rfl
    · exact ⟨_, rfl, rfl⟩
    · exact ⟨_, rfl, rfl⟩
    · exact ⟨_, rfl, rfl⟩
  obtain ⟨c, hc, hb, -⟩ := registration_confluent ring ringAssembly known
  refine ⟨known, c, hc, ?_, ?_, ?_⟩
  · exact (hb _ _).2 ⟨"A", _, .of_mem (by decide), rfl, rfl, rfl⟩
  · exact (hb _ _).2 ⟨"B", _, .of_mem (by decide), rfl, rfl, rfl⟩
  · cases h : c.resolve ⟨.static, 3⟩ with
    | none => rfl
    | some r =>
      obtain ⟨n, s, ⟨m, hm, hr⟩, hs, hk, -⟩ := (hb _ _).1 h
      have closed : n ∈ ["A", "B"] := by
        clear hs
        induction hr with
        | refl => simpa [ringAssembly, Assembly.roots, or_comm] using hm
        | @tail b d _ hbd ih =>
          simp only [Needs, ring] at hbd
          split at hbd
          · simpa [or_comm] using hbd
          · simp [List.mem_singleton.1 hbd]
      rcases ringCatalog_cases hs with ⟨rfl, rfl⟩ | ⟨rfl, rfl⟩ | ⟨rfl, rfl⟩
      · cases hk
      · cases hk
      · exact absurd closed (by decide)

end Plan

end ShapeExport
