import Mathlib
import ShapeExport.Json.Reader
import ShapeExport.Proofs.Json.Scanning

/-!
# Written JSON is read

* `Json.opens_pretty` : the text of a value does not start like the end of an array;
* `Json.reads_pretty`, `Json.reads_items`, `Json.reads_members` : a value, the items behind one and the members
  behind one are read up to what stands behind them;
* `Json.exists_read` : a value that is not too deep and has no long integers is read after it was written.
-/

namespace ShapeExport.Json

variable {stack : List Frame} {rest : List Char}

/-! ## Steps of the reader -/

section Steps

variable {ts : List Token}

attribute [local simp] readValue readAfter

theorem not_isFull (room : stack.length < maxDepth) : ¬ isFull stack = true := by
  rw [isFull, decide_eq_true_eq]
  omega

theorem readValue_openArray (room : stack.length < maxDepth) (more : ts.head? ≠ some .closeArray) :
    readValue stack (.openArray :: ts) = readValue (.array [] :: stack) ts := by
  rw [readValue, if_neg (not_isFull room)]
  rintro ts' rfl
  exact more rfl

theorem readValue_emptyArray (room : stack.length < maxDepth) :
    readValue stack (.openArray :: .closeArray :: ts) = readAfter stack (.array []) ts := by
  simp [not_isFull room]

theorem readValue_openObject (room : stack.length < maxDepth) (key : String) :
    readValue stack (.openObject :: .string key :: .colon :: ts) = readValue (.object [] key :: stack) ts := by
  simp [not_isFull room]

theorem readValue_emptyObject (room : stack.length < maxDepth) :
    readValue stack (.openObject :: .closeObject :: ts) = readAfter stack (.object []) ts := by
  simp [not_isFull room]

theorem readAfter_item (done : List Json) (value : Json) :
    readAfter (.array done :: stack) value (.comma :: ts) = readValue (.array (value :: done) :: stack) ts := by
  simp

theorem readAfter_closeArray (done : List Json) (value : Json) :
    readAfter (.array done :: stack) value (.closeArray :: ts) =
      readAfter stack (.array (value :: done).reverse) ts := by
  simp

theorem readAfter_member (done : Members) (key next : String) (value : Json) :
    readAfter (.object done key :: stack) value (.comma :: .string next :: .colon :: ts) =
      readValue (.object (done.insert key value) next :: stack) ts := by
  simp

theorem readAfter_closeObject (done : Members) (key : String) (value : Json) :
    readAfter (.object done key :: stack) value (.closeObject :: ts) =
      readAfter stack (.object (done.insert key value)) ts := by
  simp

end Steps

/-! ## The texts of values -/

theorem stops_prettyItems (level : Nat) (xs : List Json) : Stops (prettyItems .unicode level xs ++ rest) := by
  cases xs with
  | nil => exact Or.inr rfl
  | cons x xs => exact Or.inl rfl

theorem stops_prettyMembers (level : Nat) (ms : List (String × Json)) :
    Stops (prettyMembers .unicode level ms ++ rest) := by
  cases ms with
  | nil => exact Or.inr rfl
  | cons m ms => exact Or.inl rfl

/-- A text does not start like the end of an array. -/
def Opens (cs : List Char) : Prop := ∃ t ts, Token.scan cs = t :: ts ∧ t ≠ .closeArray

theorem opens_pretty {j : Json} (short : j.hasShortIntegers) (level : Nat) (stops : Stops rest) :
    Opens (prettyChars .unicode level j ++ rest) := by
  cases j with
  | null => exact ⟨_, _, Token.scan_of_first? (c := 'n') rfl rfl, nofun⟩
  | bool b =>
    cases b
    · exact ⟨_, _, Token.scan_of_first? (c := 'f') rfl rfl, nofun⟩
    · exact ⟨_, _, Token.scan_of_first? (c := 't') rfl rfl, nofun⟩
  | number n =>
    obtain ⟨j, scanned⟩ := Token.scan_number short stops
    exact ⟨_, _, scanned, nofun⟩
  | string s => exact ⟨_, _, Token.scan_literal s, nofun⟩
  | array xs => cases xs <;> exact ⟨_, _, Token.scan_punctuation (c := '[') rfl, nofun⟩
  | object ms => cases ms <;> exact ⟨_, _, Token.scan_punctuation (c := '\x7b') rfl, nofun⟩

/-- Behind an opened array, a value that comes next is read as an item. -/
theorem readValue_item {cs : List Char} (room : stack.length < maxDepth) (level : Nat) (opens : Opens cs) :
    readValue stack (Token.scan ('[' :: (lineBreak level ++ cs))) =
      readValue (.array [] :: stack) (Token.scan cs) := by
  obtain ⟨t, ts, scanned, other⟩ := opens
  rw [Token.scan_punctuation rfl, Token.scan_lineBreak, scanned]
  exact readValue_openArray room fun e => other (Option.some.inj e)

/-- Behind a key, a value that comes next is read as its member. -/
theorem scan_key (level : Nat) (key : String) (cs : List Char) :
    Token.scan (lineBreak level ++ (Text.literalChars .unicode key.toList ++ ':' :: ' ' :: cs)) =
      .string key :: .colon :: Token.scan cs := by
  have blank : Token.scan (' ' :: cs) = Token.scan cs := by
    rw [Token.scan, if_pos (by decide)]
  rw [Token.scan_lineBreak, Token.scan_literal, Token.scan_punctuation rfl, blank]

mutual

/-- A value is read up to what stands behind it. -/
theorem reads_pretty (j : Json) (level : Nat) (stack : List Frame) (short : j.hasShortIntegers)
    (room : stack.length + j.depth ≤ maxDepth) (rest : List Char) (stops : Stops rest) :
    ∃ v, readValue stack (Token.scan (prettyChars .unicode level j ++ rest)) =
      readAfter stack v (Token.scan rest) := by
  match j with
  | .null =>
    show ∃ v, readValue stack (Token.scan ('n' :: 'u' :: 'l' :: 'l' :: rest)) = _
    rw [Token.scan_of_first? rfl rfl, readValue]
    exact ⟨_, rfl⟩
  | .bool false =>
    show ∃ v, readValue stack (Token.scan ('f' :: 'a' :: 'l' :: 's' :: 'e' :: rest)) = _
    rw [Token.scan_of_first? rfl rfl, readValue]
    exact ⟨_, rfl⟩
  | .bool true =>
    show ∃ v, readValue stack (Token.scan ('t' :: 'r' :: 'u' :: 'e' :: rest)) = _
    rw [Token.scan_of_first? rfl rfl, readValue]
    exact ⟨_, rfl⟩
  | .number n =>
    obtain ⟨j, scanned⟩ := Token.scan_number short stops
    show ∃ v, readValue stack (Token.scan ((n.text .json).toList ++ rest)) = _
    rw [scanned, readValue]
    exact ⟨j, rfl⟩
  | .string s =>
    show ∃ v, readValue stack (Token.scan (Text.literalChars .unicode s.toList ++ rest)) = _
    rw [Token.scan_literal, readValue]
    exact ⟨.string s, rfl⟩
  | .array [] =>
    show ∃ v, readValue stack (Token.scan ('[' :: ']' :: rest)) = _
    rw [Token.scan_punctuation rfl, Token.scan_punctuation rfl, readValue_emptyArray (by exact room)]
    exact ⟨_, rfl⟩
  | .array (x :: xs) =>
    obtain ⟨shortItem, shortItems⟩ := Bool.and_eq_true_iff.1 short
    have depths : stack.length + (max x.depth (itemsDepth xs) + 1) ≤ maxDepth := room
    -- A number is read as far as it goes, so what comes next must not continue it.
    have behind : Stops (prettyItems .unicode level xs ++ rest) := stops_prettyItems level xs
    show ∃ v, readValue stack (Token.scan (('[' ::
      (lineBreak (level + 1) ++ prettyChars .unicode (level + 1) x ++ prettyItems .unicode level xs)) ++ rest)) = _
    rw [List.cons_append, List.append_assoc, List.append_assoc,
      readValue_item (by omega) _ (opens_pretty shortItem _ behind)]
    obtain ⟨v, item⟩ := reads_pretty x (level + 1) (.array [] :: stack) shortItem
      (by rw [List.length_cons]; omega) _ behind
    obtain ⟨w, items⟩ := reads_items xs level stack [] v shortItems (by omega) rest
    exact ⟨w, item.trans items⟩
  | .object [] =>
    show ∃ v, readValue stack (Token.scan ('\x7b' :: '\x7d' :: rest)) = _
    rw [Token.scan_punctuation rfl, Token.scan_punctuation rfl, readValue_emptyObject (by exact room)]
    exact ⟨_, rfl⟩
  | .object ((key, value) :: ms) =>
    obtain ⟨shortValue, shortMembers⟩ := Bool.and_eq_true_iff.1 short
    have depths : stack.length + (max value.depth (membersDepth ms) + 1) ≤ maxDepth := room
    have behind : Stops (prettyMembers .unicode level ms ++ rest) := stops_prettyMembers level ms
    show ∃ v, readValue stack (Token.scan (('\x7b' ::
      (lineBreak (level + 1) ++ Text.literalChars .unicode key.toList ++ ':' :: ' ' ::
        (prettyChars .unicode (level + 1) value ++ prettyMembers .unicode level ms))) ++ rest)) = _
    rw [List.cons_append, List.append_assoc, List.append_assoc, List.cons_append, List.cons_append,
      List.append_assoc, Token.scan_punctuation rfl, scan_key, readValue_openObject (by omega)]
    obtain ⟨v, member⟩ := reads_pretty value (level + 1) (.object [] key :: stack) shortValue
      (by rw [List.length_cons]; omega) _ behind
    obtain ⟨w, members⟩ := reads_members ms level stack [] key v shortMembers (by omega) rest
    exact ⟨w, member.trans members⟩

/-- The items behind one are read up to the end of the array. -/
theorem reads_items (xs : List Json) (level : Nat) (stack : List Frame) (done : List Json) (value : Json)
    (short : itemsHaveShortIntegers xs) (room : stack.length + 1 + itemsDepth xs ≤ maxDepth) (rest : List Char) :
    ∃ v, readAfter (.array done :: stack) value (Token.scan (prettyItems .unicode level xs ++ rest)) =
      readAfter stack v (Token.scan rest) := by
  match xs with
  | [] =>
    show ∃ v, readAfter _ value (Token.scan (lineBreak level ++ [']'] ++ rest)) = _
    rw [List.append_assoc, Token.scan_lineBreak, List.singleton_append, Token.scan_punctuation rfl,
      readAfter_closeArray]
    exact ⟨_, rfl⟩
  | x :: xs =>
    obtain ⟨shortItem, shortItems⟩ := Bool.and_eq_true_iff.1 short
    have depths : stack.length + 1 + max x.depth (itemsDepth xs) ≤ maxDepth := room
    show ∃ v, readAfter _ value (Token.scan ((',' ::
      (lineBreak (level + 1) ++ prettyChars .unicode (level + 1) x ++ prettyItems .unicode level xs)) ++ rest)) = _
    rw [List.cons_append, List.append_assoc, List.append_assoc, Token.scan_punctuation rfl, Token.scan_lineBreak,
      readAfter_item]
    obtain ⟨v, item⟩ := reads_pretty x (level + 1) (.array (value :: done) :: stack) shortItem
      (by rw [List.length_cons]; omega) _ (stops_prettyItems level xs)
    obtain ⟨w, items⟩ := reads_items xs level stack (value :: done) v shortItems (by omega) rest
    exact ⟨w, item.trans items⟩

/-- The members behind one are read up to the end of the object. -/
theorem reads_members (ms : List (String × Json)) (level : Nat) (stack : List Frame) (done : Members)
    (key : String) (value : Json) (short : membersHaveShortIntegers ms)
    (room : stack.length + 1 + membersDepth ms ≤ maxDepth) (rest : List Char) :
    ∃ v, readAfter (.object done key :: stack) value (Token.scan (prettyMembers .unicode level ms ++ rest)) =
      readAfter stack v (Token.scan rest) := by
  match ms with
  | [] =>
    show ∃ v, readAfter _ value (Token.scan (lineBreak level ++ ['\x7d'] ++ rest)) = _
    rw [List.append_assoc, Token.scan_lineBreak, List.singleton_append, Token.scan_punctuation rfl,
      readAfter_closeObject]
    exact ⟨_, rfl⟩
  | (next, other) :: ms =>
    obtain ⟨shortValue, shortMembers⟩ := Bool.and_eq_true_iff.1 short
    have depths : stack.length + 1 + max other.depth (membersDepth ms) ≤ maxDepth := room
    show ∃ v, readAfter _ value (Token.scan ((',' ::
      (lineBreak (level + 1) ++ Text.literalChars .unicode next.toList ++ ':' :: ' ' ::
        (prettyChars .unicode (level + 1) other ++ prettyMembers .unicode level ms))) ++ rest)) = _
    rw [List.cons_append, List.append_assoc, List.append_assoc, List.cons_append, List.cons_append,
      List.append_assoc, Token.scan_punctuation rfl, scan_key, readAfter_member]
    obtain ⟨v, member⟩ := reads_pretty other (level + 1) (.object (done.insert key value) next :: stack) shortValue
      (by rw [List.length_cons]; omega) _ (stops_prettyMembers level ms)
    obtain ⟨w, members⟩ := reads_members ms level stack (done.insert key value) next v shortMembers (by omega) rest
    exact ⟨w, member.trans members⟩

end

/-- A value that is not too deep and has no long integers is read after it was written on lines of its own. -/
theorem exists_read {j : Json} (short : j.hasShortIntegers) (shallow : j.depth ≤ maxDepth) :
    ∃ v, read (j.pretty .unicode ++ "\n") = .ok v := by
  obtain ⟨v, h⟩ := reads_pretty j 0 [] short (by rwa [List.length_nil, Nat.zero_add]) ['\n'] (Or.inr rfl)
  have ends : Token.scan ['\n'] = [] := by
    rw [Token.scan, if_pos (by decide), Token.scan]
  refine ⟨v, ?_⟩
  rw [read, String.toList_append, pretty, String.toList_ofList]
  rw [ends, readAfter] at h
  exact h

end ShapeExport.Json
