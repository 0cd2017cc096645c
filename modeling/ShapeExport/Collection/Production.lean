import ShapeExport.Collection.Basic

/-!
# Producers

A producer builds the record of one id. While it runs it may ask for other records, which their own
producers build, and its own id is in progress, so that a producer that asks for an id on the way to
itself gets a reference and no second run.

* `Producer` : a program over the collection. What it asks for may fail, and it may go on after that;
* `Producer.run` : runs a program, where a function supplies the records it asks for;
* `Catalog` : the producers by name;
* `Workshop` : a collection in the making, the serial of the next issued id, and the log of runs;
* `Workshop.begin`, `Workshop.build` : the marker discipline of one id;
* `Workshop.request`, `Workshop.register` : build an id unless it is known.
-/

namespace ShapeExport

/-- A program that builds a record. -/
inductive Producer
  | finish (result : Except Error Record)
  /-- Looks at the collection. -/
  | inspect (next : Collection → Producer)
  /-- Asks for the record of another producer, and gets its id. -/
  | ask (producer : String) (next : Except Error TypeId → Producer)
  /-- Declares a record under a new id, and gets that. -/
  | declare (record : Record) (next : Except Error TypeId → Producer)

/-- A producer and the id that its record has. -/
structure Source where
  id : TypeId
  producer : Producer

abbrev Catalog := List (String × Source)

/-- A run of a producer for an id: whether the collection knew the id before it was marked, and how the producer's own id
stood in it when the run began. -/
structure Run where
  producer : String
  id : TypeId
  wasKnown : Bool
  inProgress : Bool
  unresolved : Bool
deriving DecidableEq, Repr

structure Workshop where
  types : Collection := .empty
  serial : Nat := 0
  runs : List Run := []

namespace Workshop

/-- Declares a record and moves on to the next serial. -/
def declare (w : Workshop) (r : Record) : Workshop × Except Error TypeId :=
  match w.types.declare w.serial r with
  | .ok (types, id) => ({ w with types := types, serial := w.serial + 1 }, .ok id)
  | .error e => (w, .error e)

end Workshop

/-- How a workshop supplies the records that a producer asks for. -/
abbrev Supply := String → Workshop → Workshop × Except Error TypeId

def Producer.run (supply : Supply) : Producer → Workshop → Workshop × Except Error Record
  | finish result, w => (w, result)
  | inspect next, w => (next w.types).run supply w
  | ask producer next, w =>
    let (w, answer) := supply producer w
    (next answer).run supply w
  | declare record next, w =>
    let (w, answer) := w.declare record
    (next answer).run supply w

namespace Workshop

/-- What is logged of a run. -/
def runOf (w : Workshop) (id : TypeId) (name : String) (source : Source) : Run where
  producer := name
  id := id
  wasKnown := w.types.contains id.key
  inProgress := (w.types.mark id).isInProgress source.id.key
  unresolved := ((w.types.mark id).resolve source.id.key).isNone

/-- The workshop in which the producer of an id starts: the id is marked. -/
def begin (w : Workshop) (id : TypeId) (name : String) (source : Source) : Workshop :=
  { w with types := w.types.mark id, runs := w.runs ++ [w.runOf id name source] }

/-- Runs a producer for an id that is not in the collection. The id is marked for the time of the
run. A failure takes the mark away, and so does a record with another id. -/
def build (supply : Supply) (id : TypeId) (name : String) (source : Source) (w : Workshop) :
    Workshop × Except Error TypeId :=
  match source.producer.run supply (w.begin id name source) with
  | (w, .error e) => ({ w with types := w.types.erase id.key }, .error e)
  | (w, .ok record) =>
    if record.id.key = id.key then ({ w with types := w.types.insert id record }, .ok id)
    else ({ w with types := w.types.erase id.key }, .error (.wrongRecord id record.id))

/-- How many producers are for ids that are not being produced. -/
def idle (catalog : Catalog) (running : List TypeKey) : Nat :=
  (catalog.filter fun p => !running.contains p.2.id.key).length

theorem idle_cons_lt {catalog : Catalog} {running : List TypeKey} {name : String} {source : Source}
    (h : catalog.lookup name = some source) (hr : source.id.key ∉ running) :
    idle catalog (source.id.key :: running) < idle catalog running := by
  obtain ⟨l, r, e, _⟩ := List.lookup_eq_some_iff.1 h
  have hm : (name, source) ∈ catalog := by simp [e]
  unfold idle
  have hs : (catalog.filter fun p => !(source.id.key :: running).contains p.2.id.key) =
      (catalog.filter fun p => !running.contains p.2.id.key).filter
        fun p => decide (p.2.id.key ≠ source.id.key) := by
    rw [List.filter_filter]
    congr 1
    funext x
    simp
  rw [hs]
  refine List.length_filter_lt_length_iff_exists.2 ⟨(name, source), ?_, ?_⟩
  · exact List.mem_filter.2 ⟨hm, by simpa using hr⟩
  · simp

/-- Builds the record of a producer under its own id, unless the id is in the collection. An id
whose producer is running is in progress there; that the running ids are asked for a second time
shows that requests cannot go on for ever. -/
def request (catalog : Catalog) (running : List TypeKey) (name : String) (w : Workshop) :
    Workshop × Except Error TypeId :=
  match _ : catalog.lookup name with
  | none => (w, .error (.unknownProducer name))
  | some source =>
    if _ : w.types.contains source.id.key ∨ source.id.key ∈ running then (w, .ok source.id)
    else build (request catalog (source.id.key :: running)) source.id name source w
termination_by idle catalog running
decreasing_by exact idle_cons_lt ‹_› fun hr => ‹¬(_ ∨ _)› (Or.inr hr)

/-- Builds the record of a producer under the given id, unless the id is in the collection. -/
def register (catalog : Catalog) (id : TypeId) (name : String) (w : Workshop) :
    Workshop × Except Error TypeId :=
  match catalog.lookup name with
  | none => (w, .error (.unknownProducer name))
  | some source =>
    if w.types.contains id.key then (w, .ok id)
    else build (request catalog [id.key]) id name source w

end Workshop

end ShapeExport
