import ShapeExport.Error

/-!
# Collections

A collection maps ids to records for one export. An id whose record is still being produced is there
without a record: it is in progress.

* `Collection.find?` : the view that the operations are described by: the record of a key, if any,
  when the key is present;
* `Collection.set` : sets an id to a record or to "in progress". An id that is present keeps its
  place and its label;
* `Collection.extend` : merges another collection. Its records win, its markers do not;
* `Collection.records` : the records in the order of their names and, among equal names, ids;
* `Collection.unseen` : how many ids are left to visit, which bounds every walk along references.
-/

namespace ShapeExport

/-- The order of records: by name, then by id. -/
def Record.le (a b : Record) : Bool :=
  if a.name = b.name then a.id.key.le b.id.key else decide (a.name < b.name)

structure Entry where
  id : TypeId
  /-- Absent while the record is being produced. -/
  record : Option Record

abbrev Entry.key (e : Entry) : TypeKey := e.id.key

/-- The keys of the entries differ. -/
structure Collection where
  entries : List Entry
  distinct : (entries.map Entry.key).Nodup

namespace Collection

def empty : Collection := ⟨[], List.nodup_nil⟩

instance : Inhabited Collection := ⟨empty⟩

/-- The record of a key that is present. -/
def find? (c : Collection) (k : TypeKey) : Option (Option Record) :=
  (c.entries.find? (·.key = k)).map (·.record)

def contains (c : Collection) (k : TypeKey) : Bool := (c.find? k).isSome

/-- The finished record of a key. -/
def resolve (c : Collection) (k : TypeKey) : Option Record := (c.find? k).join

def isInProgress (c : Collection) (k : TypeKey) : Bool := c.find? k matches some none

/-- Replaces the record of the entry with the given key. -/
def replaceIn (k : TypeKey) (r : Option Record) (e : Entry) : Entry :=
  if e.key = k then { e with record := r } else e

@[simp] theorem key_replaceIn (k : TypeKey) (r : Option Record) (e : Entry) :
    (replaceIn k r e).key = e.key := by
  unfold replaceIn
  split <;> rfl

theorem contains_iff {c : Collection} {k : TypeKey} :
    c.contains k ↔ k ∈ c.entries.map Entry.key := by
  simp [contains, find?, Entry.key]

def set (c : Collection) (id : TypeId) (r : Option Record) : Collection :=
  if h : c.contains id.key then
    ⟨c.entries.map (replaceIn id.key r), by
      have e : Entry.key ∘ replaceIn id.key r = Entry.key := funext fun e => key_replaceIn _ _ e
      rw [List.map_map, e]
      exact c.distinct⟩
  else
    ⟨c.entries ++ [⟨id, r⟩], by
      have : id.key ∉ c.entries.map Entry.key := fun hm => h (contains_iff.2 hm)
      rw [List.map_append]
      exact List.nodup_append.2 ⟨c.distinct, by simp, by
        rintro a ha b hb rfl
        rw [List.map_singleton, List.mem_singleton] at hb
        rw [hb] at ha
        exact this ha⟩⟩

def insert (c : Collection) (id : TypeId) (r : Record) : Collection := c.set id (some r)

/-- Marks an id as in progress. -/
def mark (c : Collection) (id : TypeId) : Collection := c.set id none

def erase (c : Collection) (k : TypeKey) : Collection :=
  ⟨c.entries.filter (·.key ≠ k), c.distinct.sublist (List.filter_sublist.map _)⟩

def ofRecords (rs : List Record) : Collection :=
  rs.foldl (fun c r => c.insert r.id r) empty

/-- Takes over one entry of another collection. -/
def adopt (c : Collection) (e : Entry) : Collection :=
  match e.record with
  | some r => c.insert e.id r
  | none => if c.contains e.key then c else c.mark e.id

def extend (c other : Collection) : Collection := other.entries.foldl adopt c

/-- The finished records, in the order of their names and ids. -/
def records (c : Collection) : List Record :=
  (c.entries.filterMap (·.record)).mergeSort Record.le

/-- The ids in progress, in order. -/
def pending (c : Collection) : List TypeId :=
  ((c.entries.filter (·.record.isNone)).map (·.id)).mergeSort fun a b => a.key.le b.key

/-- The number of finished records. -/
def size (c : Collection) : Nat := (c.entries.filter (·.record.isSome)).length

/-- Refuses a collection with an id in progress. -/
def checkComplete (c : Collection) : Except Error Unit :=
  if c.pending.isEmpty then .ok () else .error (.unfinished c.pending)

/-- The names of the records, as a text. -/
def text (c : Collection) : String :=
  "TypeCollection(" ++ (Json.array (c.records.map (Json.string ·.name))).quoted ++ ")"

/-- The record that a declaration enters: it takes the new id, and has no parameters. -/
def declared (id : TypeId) (r : Record) : Record := { r with id := id, parameters := [] }

/-- Enters a record under the id with the given serial. -/
def declare (c : Collection) (serial : Nat) (r : Record) : Except Error (Collection × TypeId) :=
  if r.isGeneric then .error (.genericDeclaration r.name)
  else
    let id := TypeId.issued serial r.name
    .ok (c.insert id (declared id r), id)

/-! ## The view after an operation -/

@[simp] theorem find?_empty (k : TypeKey) : empty.find? k = none := rfl

theorem find?_set (c : Collection) (id : TypeId) (r : Option Record) (k : TypeKey) :
    (c.set id r).find? k = if k = id.key then some r else c.find? k := by
  unfold set
  split
  · next h =>
    simp only [find?, List.find?_map]
    have e : ((fun x => decide (x.key = k)) ∘ replaceIn id.key r) = fun x => decide (x.key = k) := by
      funext x; simp
    rw [e]
    split
    · next hk =>
      subst hk
      obtain ⟨x, hx, hxk⟩ := List.mem_map.1 (contains_iff.1 h)
      obtain ⟨y, hy⟩ := Option.isSome_iff_exists.1
        (List.find?_isSome.2 ⟨x, hx, by simpa using hxk⟩ :
          (c.entries.find? (·.key = id.key)).isSome)
      have := List.find?_some hy
      simp only [decide_eq_true_eq] at this
      simp [hy, replaceIn, this]
    · next hk =>
      cases hf : c.entries.find? (·.key = k) with
      | none => simp
      | some y =>
        have := List.find?_some hf
        simp only [decide_eq_true_eq] at this
        simp [replaceIn, this, hk]
  · next h =>
    have h' : c.entries.find? (·.key = id.key) = none := by simpa [contains, find?] using h
    simp only [find?, List.find?_append]
    split
    · next hk =>
      subst hk
      rw [h']
      simp [Entry.key]
    · next hk =>
      have : ¬ id.key = k := fun e => hk e.symm
      simp [Entry.key, this]

theorem find?_erase (c : Collection) (k k' : TypeKey) :
    (c.erase k).find? k' = if k' = k then none else c.find? k' := by
  unfold find? erase
  split
  · next h =>
    subst h
    simp
  · next h =>
    congr 1
    simp only [List.find?_filter]
    congr 1
    funext e
    by_cases he : e.key = k'
    · simp [he, h]
    · simp [he]

/-! ## Walks along references -/

/-- The finished records, in the order of the entries. -/
def members (c : Collection) : List Record := c.entries.filterMap (·.record)

theorem mem_members_of_resolve {c : Collection} {k : TypeKey} {r : Record}
    (h : c.resolve k = some r) : r ∈ c.members := by
  unfold resolve find? at h
  cases hf : c.entries.find? (·.key = k) with
  | none => simp [hf] at h
  | some e =>
    simp only [hf, Option.map_some, Option.join_some] at h
    exact List.mem_filterMap.2 ⟨e, List.mem_of_find?_eq_some hf, h⟩

/-- How many ids are not among those seen. -/
def unseen (c : Collection) (seen : List TypeKey) : Nat :=
  (c.entries.filter fun e => !seen.contains e.key).length

theorem unseen_cons_lt {c : Collection} {seen : List TypeKey} {k : TypeKey} {r : Record}
    (h : c.resolve k = some r) (hk : k ∉ seen) : c.unseen (k :: seen) < c.unseen seen := by
  have hc : c.contains k := by
    unfold resolve at h
    cases hf : c.find? k with
    | none => simp [hf] at h
    | some o => simp [contains, hf]
  obtain ⟨e, he, hek⟩ := List.mem_map.1 (contains_iff.1 hc)
  unfold unseen
  have hs : (c.entries.filter fun e => !(k :: seen).contains e.key) =
      (c.entries.filter fun e => !seen.contains e.key).filter fun e => decide (e.key ≠ k) := by
    rw [List.filter_filter]
    congr 1
    funext x
    simp
  rw [hs]
  refine List.length_filter_lt_length_iff_exists.2 ⟨e, ?_, ?_⟩
  · exact List.mem_filter.2 ⟨he, by simpa [hek] using hk⟩
  · simpa using hek

/-- How many records have an id that is not among those checked. -/
def unchecked (c : Collection) (checked : List TypeKey) : Nat :=
  (c.members.filter fun r => !checked.contains r.id.key).length

theorem unchecked_cons_lt {c : Collection} {checked : List TypeKey} {r : Record}
    (h : r ∈ c.members) (hr : r.id.key ∉ checked) :
    c.unchecked (r.id.key :: checked) < c.unchecked checked := by
  unfold unchecked
  have hs : (c.members.filter fun s => !(r.id.key :: checked).contains s.id.key) =
      (c.members.filter fun s => !checked.contains s.id.key).filter
        fun s => decide (s.id.key ≠ r.id.key) := by
    rw [List.filter_filter]
    congr 1
    funext x
    simp
  rw [hs]
  refine List.length_filter_lt_length_iff_exists.2 ⟨r, ?_, ?_⟩
  · exact List.mem_filter.2 ⟨h, by simpa using hr⟩
  · simp

theorem mem_records {c : Collection} {r : Record} : r ∈ c.records ↔ r ∈ c.members :=
  List.mem_mergeSort

end Collection

end ShapeExport
