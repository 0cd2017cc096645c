/-!
# Values by key, in order

An ordered map is a list of keyed values. The order is the one in which the keys came.

* `OrderedMap.insert` : sets the value of a key, which keeps its place if it is there already;
* `OrderedMap.insertAll` : sets the values of another map one after another;
* `OrderedMap.mem_keys_insert` : the keys after an insertion.
-/

namespace ShapeExport

abbrev OrderedMap (α : Type) (κ : Type := String) := List (κ × α)

namespace OrderedMap

variable {α κ : Type}

def keys (m : OrderedMap α κ) : List κ := m.map (·.1)

variable [DecidableEq κ]

def insert (m : OrderedMap α κ) (key : κ) (value : α) : OrderedMap α κ :=
  if m.any (·.1 == key) then m.map fun p => if p.1 == key then (p.1, value) else p
  else m ++ [(key, value)]

def insertAll (m more : OrderedMap α κ) : OrderedMap α κ :=
  more.foldl (fun m p => m.insert p.1 p.2) m

theorem mem_keys_insert {m : OrderedMap α κ} {key k : κ} {value : α} :
    k ∈ (m.insert key value).keys ↔ k ∈ m.keys ∨ k = key := by
  unfold insert keys
  split
  · next h =>
    have e : (m.map fun p => if p.1 == key then (p.1, value) else p).map (·.1) = m.map (·.1) := by
      simp only [List.map_map]
      congr 1
      funext p
      simp only [Function.comp]
      split <;> rfl
    rw [e]
    constructor
    · exact Or.inl
    · rintro (hk | rfl)
      · exact hk
      · obtain ⟨p, hp, hk⟩ := List.any_eq_true.1 h
        exact List.mem_map.2 ⟨p, hp, by simpa using hk⟩
  · simp

end OrderedMap

end ShapeExport
