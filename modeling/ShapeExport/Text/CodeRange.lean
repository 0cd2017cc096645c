/-!
# Tables of code points

* `inRanges` : membership in a list of closed ranges;
* `inRuns` : membership in a list of runs, which step over code points between their ends.
-/

namespace ShapeExport.Text

def inRanges (ranges : List (Nat × Nat)) (c : Char) : Bool :=
  ranges.any fun (lo, hi) => lo ≤ c.toNat && c.toNat ≤ hi

/-- A run `(lo, hi, step)` holds `lo`, `lo + step`, and so on up to `hi`. -/
def inRuns (runs : List (Nat × Nat × Nat)) (c : Char) : Bool :=
  runs.any fun (lo, hi, step) => lo ≤ c.toNat && c.toNat ≤ hi && (c.toNat - lo) % step == 0

end ShapeExport.Text
