/-!
# Cutting and joining texts

* `splitChars`, `split` : the pieces between the occurrences of a separating character; there is
  always one piece more than there are separators;
* `replaceChars`, `replace` : every occurrence of a pattern replaced, from the left;
* `distinctBy` : a list without the elements whose key came before.
-/

namespace ShapeExport.Text

def splitChars (sep : Char) : List Char → List (List Char)
  | [] => [[]]
  | c :: cs =>
    if c = sep then [] :: splitChars sep cs
    else match splitChars sep cs with
      | [] => [[c]]
      | piece :: pieces => (c :: piece) :: pieces

def split (sep : Char) (s : String) : List String := (splitChars sep s.toList).map String.ofList

theorem splitChars_ne_nil (sep : Char) (cs : List Char) : splitChars sep cs ≠ [] := by
  cases cs with
  | nil => simp [splitChars]
  | cons c cs => unfold splitChars; split <;> (try split) <;> simp

/-- The pieces hold no separator. -/
theorem not_mem_of_mem_splitChars {sep : Char} {cs p : List Char} (h : p ∈ splitChars sep cs) :
    sep ∉ p := by
  induction cs generalizing p with
  | nil => simp [splitChars] at h; simp [h]
  | cons c cs ih =>
    by_cases hc : c = sep
    · simp only [splitChars, if_pos hc, List.mem_cons] at h
      rcases h with rfl | h
      · simp
      · exact ih h
    · simp only [splitChars, if_neg hc] at h
      split at h
      · simp at h; subst h; simpa using Ne.symm hc
      · next piece pieces e =>
        rcases List.mem_cons.1 h with rfl | h
        · have := ih (p := piece) (by simp [e])
          simpa [Ne.symm hc] using this
        · exact ih (by simp [e, h])

/-- Replaces `pattern` by `by'` in `cs`; `skip` characters of an occurrence are still to pass. -/
def replaceFrom (pattern by' : List Char) (skip : Nat) : List Char → List Char
  | [] => []
  | c :: cs =>
    match skip with
    | n + 1 => replaceFrom pattern by' n cs
    | 0 =>
      if pattern.isPrefixOf (c :: cs) && !pattern.isEmpty then
        by' ++ replaceFrom pattern by' (pattern.length - 1) cs
      else c :: replaceFrom pattern by' 0 cs

def replace (s pattern by' : String) : String :=
  String.ofList (replaceFrom pattern.toList by'.toList 0 s.toList)

/-- Keeps the first of the elements with one key. The keys in `seen` are those that came before. -/
def distinctFrom {α κ : Type} [BEq κ] (key : α → κ) (seen : List κ) : List α → List α
  | [] => []
  | x :: xs =>
    if seen.contains (key x) then distinctFrom key seen xs
    else x :: distinctFrom key (key x :: seen) xs

def distinctBy {α κ : Type} [BEq κ] (key : α → κ) (xs : List α) : List α := distinctFrom key [] xs

end ShapeExport.Text
