import ShapeExport.Collection.Production

/-!
# Registries

A registry remembers which producer builds which id. The first producer of an id stays.

* `Registry.insert` : remembers a producer, and tells whether the id was new;
* `Registry.snapshot` : the ids in order, with their producers;
* `Registry.collect` : registers every id in order, and stops at the first failure.
-/

namespace ShapeExport

structure Registry where
  sources : List (TypeId × String) := []

namespace Registry

def contains (r : Registry) (k : TypeKey) : Bool := r.sources.any (·.1.key = k)

def insert (r : Registry) (id : TypeId) (producer : String) : Registry × Bool :=
  if r.contains id.key then (r, false) else (⟨r.sources ++ [(id, producer)]⟩, true)

def size (r : Registry) : Nat := r.sources.length

def snapshot (r : Registry) : List (TypeId × String) :=
  r.sources.mergeSort fun a b => a.1.key.le b.1.key

/-- Registers ids one after another. -/
def registerAll (catalog : Catalog) :
    List (TypeId × String) → Workshop → Workshop × Except Error Unit
  | [], w => (w, .ok ())
  | (id, producer) :: rest, w =>
    match w.register catalog id producer with
    | (w, .ok _) => registerAll catalog rest w
    | (w, .error e) => (w, .error e)

/-- Builds every id into a new collection. -/
def collect (r : Registry) (catalog : Catalog) (w : Workshop) : Workshop × Except Error Collection :=
  match registerAll catalog r.snapshot { w with types := .empty } with
  | (w, .ok _) => (w, .ok w.types)
  | (w, .error e) => (w, .error e)

end Registry

end ShapeExport
