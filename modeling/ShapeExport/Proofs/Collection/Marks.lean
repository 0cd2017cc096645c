import ShapeExport.Proofs.Collection.Calls
import ShapeExport.Proofs.Collection.Records

/-!
# Marks before and after a call

Between the mark and the record of an id its producer makes any calls it likes, and each of them may
end with a record, with an error or with a record of another id. The declarations on the way take new
serials, so they touch no entry whose serial was issued.

* `Workshop.Issued` : a counter that has come so far issues the key no more;
* `Workshop.Keeps` : what a call may do to a workshop. Entries stay, and no mark is left behind;
* `Workshop.Keeps.unmark` : an id that is marked for the time of a run may be set or taken away after it;
* `Workshop.keeps_run`, `Workshop.keeps_build`, `Workshop.keeps_request` : runs, builds and requests do
  no more than that;
* `Call.Makes.inProgress` : while a producer runs, its id is in progress;
* `Workshop.register_keeps_marks` : a call leaves the marks and the records as they were.
-/

namespace ShapeExport
open Relation

namespace Workshop

/-- The key is static, or its serial was issued. -/
def Issued (w : Workshop) (k : TypeKey) : Prop := k.kind = .virtual → k.hash < w.serial

/-- What a call may do: it adds ids, but changes no entry whose id the counter cannot issue any more,
and it leaves no mark behind. -/
structure Keeps (w v : Workshop) : Prop where
  serial : w.serial ≤ v.serial
  contains : ∀ {k}, w.types.contains k → v.types.contains k
  entry : ∀ {k}, w.types.contains k → w.Issued k → v.types.find? k = w.types.find? k
  marked : ∀ {k}, v.types.find? k = some none → w.types.find? k = some none
  own : w.types.OwnIds → v.types.OwnIds

theorem Keeps.refl (w : Workshop) : w.Keeps w := ⟨Nat.le_refl _, id, fun _ _ => rfl, id, id⟩

theorem Issued.mono {w v : Workshop} {k : TypeKey} (h : w.Issued k) (hs : w.serial ≤ v.serial) :
    v.Issued k :=
  fun hk => Nat.lt_of_lt_of_le (h hk) hs

theorem Keeps.trans {u v w : Workshop} (h : w.Keeps v) (h' : v.Keeps u) : w.Keeps u where
  serial := Nat.le_trans h.serial h'.serial
  contains hk := h'.contains (h.contains hk)
  entry hk hi := (h'.entry (h.contains hk) (hi.mono h.serial)).trans (h.entry hk hi)
  marked hk := h.marked (h'.marked hk)
  own ho := h'.own (h.own ho)

/-! ## Steps -/

/-- A declared record stands under a serial that was not issued. -/
theorem keeps_declare (w : Workshop) (r : Record) : w.Keeps (w.declare r).1 := by
  obtain ⟨e, h⟩ | h := declare_cases w r
  · rw [h]
    exact .refl w
  · rw [h]
    have new : ∀ {k}, w.Issued k → k ≠ (TypeId.issued w.serial r.name).key := by
      rintro k hi rfl
      exact Nat.lt_irrefl _ (hi rfl)
    refine ⟨Nat.le_succ _, fun hk => ?_, fun _ hi => ?_, fun hk => ?_, fun ho => ?_⟩
    · exact Collection.contains_insert.2 (Or.inr hk)
    · rw [Collection.find?_insert, if_neg (new hi)]
    · rw [Collection.find?_insert] at hk
      split at hk
      · cases hk
      · exact hk
    · exact ho.insert rfl

/-- What keeps the workshop that has a mark, keeps the one without it, once the mark is gone. -/
theorem Keeps.unmark {id : TypeId} {name : String} {source : Source} {w v u : Workshop}
    (habs : ¬ w.types.contains id.key) (keeps : (w.begin id name source).Keeps v)
    (serial : u.serial = v.serial) (other : ∀ {k}, k ≠ id.key → u.types.find? k = v.types.find? k)
    (done : u.types.find? id.key ≠ some none) (own : v.types.OwnIds → u.types.OwnIds) : w.Keeps u := by
  have apart : ∀ {k}, w.types.contains k → k ≠ id.key := by
    rintro k hk rfl
    exact habs hk
  have begun : ∀ {k}, k ≠ id.key → (w.begin id name source).types.find? k = w.types.find? k := by
    intro k hk
    show (w.types.mark id).find? k = _
    rw [Collection.find?_mark, if_neg hk]
  have here : ∀ {k}, w.types.contains k → (w.begin id name source).types.contains k := fun hk =>
    Collection.contains_mark.2 (Or.inr hk)
  refine ⟨serial ▸ keeps.serial, fun hk => ?_, fun hk hi => ?_, fun {k} hk => ?_, fun ho => ?_⟩
  · rw [Collection.contains_eq_isSome, other (apart hk)]
    exact keeps.contains (here hk)
  · rw [other (apart hk), keeps.entry (here hk) hi, begun (apart hk)]
  · by_cases hid : k = id.key
    · subst hid
      exact absurd hk done
    · rw [other hid] at hk
      rw [← begun hid]
      exact keeps.marked hk
  · exact own (keeps.own (ho.mark id))

variable {supply : Supply} (hs : ∀ name w, Keeps w (supply name w).1)
include hs

theorem keeps_run (producer : Producer) (w : Workshop) : w.Keeps (producer.run supply w).1 := by
  induction producer generalizing w with
  | finish result => exact .refl w
  | inspect next ih => exact ih w.types w
  | ask name next ih => exact (hs name w).trans (ih _ _)
  | declare record next ih => exact (keeps_declare w record).trans (ih _ _)

theorem keeps_asking {producer : Producer} {w v : Workshop} {need : String}
    (h : producer.Asking supply w need v) : w.Keeps v := by
  induction h with
  | now => exact .refl _
  | inspected _ ih => exact ih
  | answered _ ih => exact (hs _ _).trans ih
  | declared _ ih => exact (keeps_declare _ _).trans ih

theorem keeps_build {id : TypeId} (name : String) (source : Source) {w : Workshop}
    (habs : ¬ w.types.contains id.key) : w.Keeps (build supply id name source w).1 := by
  obtain ⟨v, result, hv, ends⟩ := build_cases supply id name source w
  have keeps : (w.begin id name source).Keeps v := by
    have run := keeps_run hs source.producer (w.begin id name source)
    rwa [hv] at run
  obtain ⟨r, -, hr, e⟩ | ⟨-, error, e⟩ := ends
  · rw [e]
    refine keeps.unmark habs rfl (fun hk => ?_) ?_ fun ho => ho.insert hr
    · rw [Collection.find?_insert, if_neg hk]
    · rw [Collection.find?_insert, if_pos rfl]
      intro h
      cases h
  · rw [e]
    refine keeps.unmark habs rfl (fun hk => ?_) ?_ fun ho => ho.erase _
    · rw [Collection.find?_erase, if_neg hk]
    · rw [Collection.find?_erase, if_pos rfl]
      intro h
      cases h

omit hs

theorem keeps_request (catalog : Catalog) (running : List TypeKey) (name : String) (w : Workshop) :
    w.Keeps (request catalog running name w).1 := by
  refine requestInduction (motive := fun _ _ w v => w.Keeps v.1) ?_ ?_ ?_ running name w
  · exact fun _ _ w _ => .refl w
  · exact fun _ _ w _ _ _ => .refl w
  · exact fun _ name w source _ habs ih => keeps_build ih name source habs

theorem keeps_register (catalog : Catalog) (id : TypeId) (name : String) (w : Workshop) :
    w.Keeps (w.register catalog id name).1 := by
  unfold register
  split
  · exact .refl w
  · next source _ =>
    split
    · exact .refl w
    · next habs => exact keeps_build (keeps_request catalog _) name source habs

end Workshop

/-! ## While a producer runs -/

namespace Call

variable {catalog : Catalog} {c d : Call}

theorem Makes.keeps (h : c.Makes catalog d) : ∃ source, c.Opens catalog source ∧
    (c.opened source).Keeps d.workshop := by
  obtain ⟨source, s, opens, -, -, -, asking⟩ := h
  exact ⟨source, opens, Workshop.keeps_asking (Workshop.keeps_request catalog _) asking⟩

theorem Leads.serial (h : Leads catalog c d) : c.workshop.serial ≤ d.workshop.serial := by
  induction h with
  | refl => exact Nat.le_refl _
  | tail _ hbd ih =>
    obtain ⟨source, -, keeps⟩ := hbd.keeps
    exact Nat.le_trans ih keeps.serial

/-- An entry that is there when a call is made is there in the calls that it leads to. -/
theorem Leads.entry (h : Leads catalog c d) {k : TypeKey} (hk : c.workshop.types.contains k) :
    d.workshop.types.contains k ∧
      (c.workshop.Issued k → d.workshop.types.find? k = c.workshop.types.find? k) := by
  induction h with
  | refl => exact ⟨hk, fun _ => rfl⟩
  | @tail b d hcb hbd ih =>
    obtain ⟨hb, entry⟩ := ih
    obtain ⟨source, ⟨-, habs⟩, keeps⟩ := hbd.keeps
    have hne : k ≠ b.id.key := by
      rintro rfl
      exact habs hb
    have begun : (b.opened source).types.find? k = b.workshop.types.find? k := by
      show (b.workshop.types.mark b.id).find? k = _
      rw [Collection.find?_mark, if_neg hne]
    have here : (b.opened source).types.contains k := Collection.contains_mark.2 (Or.inr hb)
    refine ⟨keeps.contains here, fun hi => ?_⟩
    rw [keeps.entry here (hi.mono (Leads.serial hcb)), begun, entry hi]

/-- In a call that is made while the producer of another id runs, that id is in the collection, and it is
in progress unless the counter can still issue it. -/
theorem Makes.inProgress (h : TransGen (Makes catalog) c d) :
    d.workshop.types.contains c.id.key ∧
      (c.workshop.Issued c.id.key → d.workshop.types.isInProgress c.id.key) := by
  obtain ⟨b, hcb, hbd⟩ := TransGen.head'_iff.1 h
  obtain ⟨source, -, keeps⟩ := hcb.keeps
  have marked : (c.opened source).types.find? c.id.key = some none := by
    show (c.workshop.types.mark c.id).find? c.id.key = _
    rw [Collection.find?_mark, if_pos rfl]
  have here := keeps.contains (Collection.contains_of_find? marked)
  obtain ⟨there, entry⟩ := Leads.entry hbd here
  refine ⟨there, fun hi => Collection.isInProgress_iff.2 ?_⟩
  rw [entry (hi.mono keeps.serial), keeps.entry (Collection.contains_of_find? marked) hi, marked]

end Call

namespace Workshop

/-- **A call leaves the marks as they were.** The ids in progress are those from before the call, each
finished record is still there, and each is under its own id. Each run in the log is that of a call for its id, and the
collection did not know the id before; and while it lasted, the id was in progress. A reference is a registration of its
target. -/
theorem register_keeps_marks (catalog : Catalog) (id : TypeId) (name : String) {w : Workshop}
    (own : w.types.OwnIds) (issued : ∀ k, w.types.contains k → w.Issued k) :
    (∀ k, (w.register catalog id name).1.types.isInProgress k = w.types.isInProgress k) ∧
      (∀ k r, w.types.resolve k = some r → (w.register catalog id name).1.types.resolve k = some r) ∧
      (w.register catalog id name).1.types.OwnIds ∧
      (∃ runs, (w.register catalog id name).1.runs = w.runs ++ runs ∧ ∀ run ∈ runs,
        run.wasKnown = false ∧ ∃ d, Call.Leads catalog ⟨[], id, name, w⟩ d ∧ d.id = run.id ∧
          d.producer = run.producer ∧ d.workshop.types.find? run.id.key = none) ∧
      (∀ c d, Call.Leads catalog ⟨[], id, name, w⟩ c → TransGen (Call.Makes catalog) c d →
        d.workshop.types.contains c.id.key ∧
          (w.Issued c.id.key → d.workshop.types.isInProgress c.id.key)) ∧
      ∀ source, catalog.lookup name = some source →
        request catalog [] name = register catalog source.id name := by
  have keeps := keeps_register catalog id name w
  refine ⟨fun k => ?_, fun k r hr => ?_, keeps.own own, ?_, fun c d hc hd => ?_, fun source hl => ?_⟩
  · apply Bool.eq_iff_iff.2
    rw [Collection.isInProgress_iff, Collection.isInProgress_iff]
    constructor
    · exact keeps.marked
    · intro hk
      have here := Collection.contains_of_find? hk
      rw [keeps.entry here (issued k here), hk]
  · have hf := Collection.resolve_eq_some_iff.1 hr
    have here := Collection.contains_of_find? hf
    rw [Collection.resolve_eq_some_iff, keeps.entry here (issued k here), hf]
  · obtain ⟨runs, e, h⟩ := @exists_runs_of_register catalog id name w
    refine ⟨runs, e, fun run hr => ?_⟩
    obtain ⟨d, source, leads, ⟨-, habs⟩, rfl⟩ := h run hr
    refine ⟨?_, d, leads, rfl, rfl, Collection.find?_of_not_contains habs⟩
    exact Bool.eq_false_iff.2 habs
  · obtain ⟨here, progress⟩ := Call.Makes.inProgress hd
    exact ⟨here, fun hi => progress (hi.mono (Call.Leads.serial hc))⟩
  · exact funext fun w => request_eq_register hl w

/-! ## A producer that catches an error -/

namespace Caught

def first : Record := { id := ⟨⟨.static, 1⟩, "First"⟩, name := "First", shape := .struct "First" .unit }

def second : Record := { first with id := ⟨⟨.static, 2⟩, "Second"⟩, name := "Second" }

/-- `First` goes on when `Second` fails, which it does after it has asked for `First`. -/
def catalog : Catalog :=
  [("First", ⟨first.id, .ask "Second" fun _ => .finish (.ok first)⟩),
    ("Second", ⟨second.id, .ask "First" fun _ => .declare second fun _ => .finish (.error (.producerFailed "no"))⟩)]

def third : Record := { first with id := TypeId.issued 0 "Third", name := "Third" }

def fourth : TypeId := ⟨⟨.static, 4⟩, "Fourth"⟩

/-- A declared record and an id in progress. -/
def start : Workshop := { types := (Collection.ofRecords [third]).mark fourth, serial := 1 }

theorem issued_start (k : TypeKey) (h : start.types.contains k) : start.Issued k := by
  rcases Collection.contains_mark.1 h with rfl | h
  · exact fun hk => absurd hk (by decide)
  · rcases Collection.contains_insert (c := .empty) (r := third).1 h with rfl | h
    · exact fun _ => Nat.zero_lt_one
    · exact absurd h (by simp [Collection.contains])

theorem first_keeps_marks :
    start.types.OwnIds ∧ (∀ k, start.types.contains k → start.Issued k) ∧
      (start.register catalog first.id "First").1.types.isInProgress fourth.key = true ∧
      (start.register catalog first.id "First").1.types.isInProgress first.id.key = false ∧
      (start.register catalog first.id "First").1.types.resolve third.id.key = some third := by
  have own : start.types.OwnIds := (Collection.ownIds_ofRecords _).mark _
  obtain ⟨marks, records, -⟩ := register_keeps_marks catalog first.id "First" own issued_start
  refine ⟨own, issued_start, ?_, ?_, records _ _ rfl⟩
  · rw [marks]
    decide
  · rw [marks]
    decide

end Caught

end Workshop

end ShapeExport
