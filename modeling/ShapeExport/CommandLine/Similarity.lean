/-!
# Similar words

What to propose for a word that is not known.

* `matching` : how many characters two words share: those of the longest common block, and of the
  blocks on either side of it;
* `closeMatches` : the words that share at least three tenths of the characters of both.
-/

namespace ShapeExport.CommandLine

/-- The length of the common beginning. -/
def commonStart : List Char → List Char → Nat
  | a :: as, b :: bs => if a = b then commonStart as bs + 1 else 0
  | _, _ => 0

/-- A common block: where it starts in either word, and its length. -/
structure Block where
  left : Nat := 0
  right : Nat := 0
  length : Nat := 0

/-- The longest common block; of several, the one that starts first in `as`, and then in `bs`. -/
def longestBlock (as bs : List Char) : Block :=
  (List.range as.length).foldl
    (fun best i =>
      (List.range bs.length).foldl
        (fun best j =>
          let n := commonStart (as.drop i) (bs.drop j)
          if best.length < n then ⟨i, j, n⟩ else best)
        best)
    {}

def matching (as bs : List Char) : Nat :=
  let block := longestBlock as bs
  if _ : 0 < block.length ∧ block.left < as.length then
    matching (as.take block.left) (bs.take block.right) + block.length
      + matching (as.drop (block.left + block.length)) (bs.drop (block.right + block.length))
  else 0
termination_by as.length
decreasing_by
  · simp only [List.length_take, block] at *
    omega
  · simp only [List.length_drop, block] at *
    omega

/-- How much two words share, as a fraction of the characters of both. -/
structure Similarity where
  shared : Nat
  total : Nat

def similarity (known word : String) : Similarity :=
  ⟨matching known.toList word.toList, known.length + word.length⟩

namespace Similarity

def isClose (s : Similarity) : Bool := 3 * s.total ≤ 10 * s.shared

def le (s t : Similarity) : Bool := s.shared * t.total ≤ t.shared * s.total

end Similarity

/-- The most similar of the known words, three at most, in alphabetical order. -/
def closeMatches (known : List String) (word : String) : List String :=
  let scored := (known.map fun k => (similarity k word, k)).filter (·.1.isClose)
  let best := scored.mergeSort fun a b => !a.1.le b.1 || (b.1.le a.1 && decide (b.2 ≤ a.2))
  ((best.take 3).map (·.2)).mergeSort fun a b => decide (a ≤ b)

end ShapeExport.CommandLine
