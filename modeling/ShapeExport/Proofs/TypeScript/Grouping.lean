import Mathlib
import ShapeExport.Proofs.Export.Names
import ShapeExport.Proofs.TypeScript.Formed
import ShapeExport.Proofs.TypeScript.Outer

/-!
# Operators and brackets

Which operators a rendered type has outside its brackets.

* `TypeScript.topOperators?` : the operators of a text outside brackets, literals and comments;
* `TypeScript.TypeExpr.operators` : those of a type;
* `TypeScript.TypeExpr.isChoice` : a type that is a choice between types side by side;
* `TypeScript.TypeExpr.Formed.hasOperators` : the text of a formed type has the operators of the type;
* `Export.covers_of_checkNames` : names that were checked have no operators in them;
* `Export.grouping_typeExpr` : arrays have none, and the payload behind a tag has a bar exactly if it is
  such a choice.
-/

namespace ShapeExport.TypeScript

/-! ## Texts -/

/-- Unions and intersections. -/
def isOperator (c : Char) : Bool := c == '|' || c == '&'

/-- The operators of a text outside its brackets, string literals and comments. -/
def topOperators? (s : String) : Option (List Char) := (outer? s).map (·.filter isOperator)

/-- Wherever the text stands, a scan passes over it and meets these operators outside its brackets. None of
them stands in a text without blanks. -/
structure HasOperators (s : String) (os : List Char) : Prop where
  outside : ∃ outer, Whole s.toList outer ∧ outer.filter isOperator = os
  spaced : ∀ o ∈ os, o ∈ s.toList ∧ ' ' ∈ s.toList

namespace HasOperators

variable {s t : String} {os ps : List Char}

theorem topOperators? (h : HasOperators s os) : topOperators? s = some os := by
  obtain ⟨outer, hw, rfl⟩ := h.outside
  rw [TypeScript.topOperators?, hw.outer?, Option.map_some]

theorem append (hs : HasOperators s os) (ht : HasOperators t ps) : HasOperators (s ++ t) (os ++ ps) := by
  constructor
  · obtain ⟨o, ho, rfl⟩ := hs.outside
    obtain ⟨p, hp, rfl⟩ := ht.outside
    refine ⟨o ++ p, ?_, List.filter_append _ _⟩
    rw [String.toList_append]
    exact ho.append hp
  · intro o ho
    rw [String.toList_append, List.mem_append, List.mem_append]
    rcases List.mem_append.1 ho with ho | ho
    · exact ⟨Or.inl (hs.spaced o ho).1, Or.inl (hs.spaced o ho).2⟩
    · exact ⟨Or.inr (ht.spaced o ho).1, Or.inr (ht.spaced o ho).2⟩

theorem of_isPlain (h : s.toList.all isPlain) (blank : ' ' ∈ s.toList) :
    HasOperators s (s.toList.filter isOperator) :=
  ⟨⟨s.toList, Whole.chars (List.all_eq_true.1 h), rfl⟩, fun _ ho => ⟨(List.mem_filter.1 ho).1, blank⟩⟩

theorem of_whole {outer : List Char} (h : Whole s.toList outer) (none : outer.filter isOperator = []) :
    HasOperators s [] :=
  ⟨⟨outer, h, none⟩, List.forall_mem_nil _⟩

theorem of_toList (h : HasOperators s os) (ht : t.toList = s.toList) : HasOperators t os := by
  rwa [String.toList_inj.1 ht]

theorem bracketed {opening closing : Char} (hp : (opening, closing) ∈ brackets) (hs : HasOperators s os)
    (ht : t.toList = opening :: (s.toList ++ [closing])) : HasOperators t [] := by
  obtain ⟨outer, ho, -⟩ := hs.outside
  refine of_whole (?_ : Whole t.toList []) rfl
  rw [ht]
  exact ho.bracketed hp

theorem enclosed {opening closing : Char} (hp : (opening, closing) ∈ brackets) (hs : HasOperators s os) :
    HasOperators (String.singleton opening ++ s ++ String.singleton closing) [] :=
  hs.bracketed hp (by simp)

theorem needsGroup (h : HasOperators s os) (hne : os ≠ []) : TypeExpr.needsGroup s := by
  obtain ⟨c, hc⟩ := List.exists_mem_of_ne_nil os hne
  have operator : c = '|' ∨ c = '&' := by
    obtain ⟨outer, -, rfl⟩ := h.outside
    simpa [isOperator] using (List.mem_filter.1 hc).2
  obtain ⟨hm, hb⟩ := h.spaced c hc
  rcases operator with rfl | rfl
  · simp [TypeExpr.needsGroup, hb, hm]
  · simp [TypeExpr.needsGroup, hb, hm]

end HasOperators

/-! ### Names, keys and comments -/

/-- A text that is passed over character by character, and has no operator. -/
def isPlainText (s : String) : Bool := s.toList.all fun c => isPlain c && !isOperator c

theorem hasOperators_of_isPlainText {s : String} (h : isPlainText s) : HasOperators s [] := by
  have plain {c : Char} (hc : c ∈ s.toList) : isPlain c = true ∧ ¬ isOperator c = true := by
    simpa using List.all_eq_true.1 h c hc
  exact .of_whole (Whole.chars fun c hc => (plain hc).1) (List.filter_eq_nil_iff.2 fun c hc => (plain hc).2)

/-- The characters that open or close something, and the operators. -/
def marks : List Char :=
  ['"', Char.ofNat 0x27, Char.ofNat 0x60, '/', '<', '>', '\x7b', '\x7d', '[', ']', '(', ')', '|', '&']

theorem isPlainText_of_not_mem {s : String} (h : ∀ c ∈ s.toList, c ∉ marks) : isPlainText s := by
  refine List.all_eq_true.2 fun c hc => ?_
  have hm := h c hc
  simp only [marks, List.mem_cons, List.not_mem_nil, or_false, not_or] at hm
  simp [isPlain, isOperator, Script.isQuote, hm]

/-- A mark is no character of a kind that has no marks. -/
theorem not_mem_marks {p : Char → Bool} (h : marks.all fun c => !p c) {c : Char} (hc : p c) : c ∉ marks := by
  intro hm
  have hp := List.all_eq_true.1 h c hm
  rw [hc] at hp
  cases hp

theorem isPlainText_of_isNumberChar {s : String} (h : ∀ c ∈ s.toList, IsNumberChar c) : isPlainText s := by
  refine isPlainText_of_not_mem fun c hc => ?_
  rcases h c hc with ha | hs
  · exact not_mem_marks (p := Char.isAlphanum) (by decide) ha
  · exact not_mem_marks (p := ['-', '+', '.'].contains) (by decide) (List.contains_iff_mem.2 hs)

theorem isPlainText_of_isTypeName {s : String} (h : isTypeName s) : isPlainText s := by
  refine isPlainText_of_not_mem fun c hc => ?_
  rcases isWordChar_of_isTypeName h hc with hw | rfl
  · exact not_mem_marks (p := Text.isWordChar) (by decide) hw
  · decide

theorem not_mem_marks_of_isIdentifierChars {cs : List Char} (h : isIdentifierChars cs) : ∀ c ∈ cs, c ∉ marks := by
  intro c hc
  cases cs with
  | nil => cases hc
  | cons d ds =>
    obtain ⟨hd, hs⟩ := Bool.and_eq_true_iff.1 h
    rcases List.mem_cons.1 hc with rfl | hc
    · exact not_mem_marks (p := isIdentifierStart) (by decide) hd
    · exact not_mem_marks (p := isIdentifierChar) (by decide) (List.all_eq_true.1 hs c hc)

theorem isPlainText_of_isPlainKey {s : String} (h : isPlainKey s) : isPlainText s := by
  refine isPlainText_of_not_mem fun c hc => ?_
  rcases Bool.or_eq_true_iff.1 h with hi | hi
  · exact not_mem_marks_of_isIdentifierChars hi c hc
  · obtain ⟨hl, hi⟩ := Bool.and_eq_true_iff.1 hi
    rw [← List.dropLast_append_getLast? '\n' (beq_iff_eq.1 hl), List.mem_append, List.mem_singleton] at hc
    rcases hc with hc | rfl
    · exact not_mem_marks_of_isIdentifierChars hi c hc
    · decide

theorem hasOperators_literal (repertoire : Text.Repertoire) (s : String) :
    HasOperators (Text.literal repertoire s) [] :=
  .of_whole (Whole.literal repertoire s) rfl

theorem hasOperators_scriptKey (key : String) : HasOperators (scriptKey key) [] := by
  unfold scriptKey Language.propertyKey
  split
  · next h => exact hasOperators_of_isPlainText (isPlainText_of_isPlainKey (Bool.and_eq_true_iff.1 h).1)
  · exact hasOperators_literal .ascii key

theorem hasOperators_inlineComment (style : CommentStyle) (docs : List String)
    (deprecation : Option Deprecation) : HasOperators (inlineComment style docs deprecation) [] := by
  unfold inlineComment
  split
  · next line lines _ =>
    have body := not_infix_star (c := ' ') (not_infix_escapeComment (joinLines (line :: lines))) (by decide) (by decide)
    have whole := (Whole.comment body).append (Whole.char (c := ' ') rfl)
    refine .of_whole (?_ : Whole _ ([] ++ [' '])) rfl
    convert whole using 1
    simp
  · exact hasOperators_of_isPlainText (s := "") rfl

/-! ## Types -/

namespace TypeExpr

mutual

/-- The operators of a type outside its brackets. -/
def operators : TypeExpr → List Char
  | nullable inner => inner.operators ++ ['|']
  | union [] => []
  | union (e :: es) => e.operators ++ furtherOperators es
  | intersection left right => left.operators ++ '&' :: right.operators
  | builtin _ | constant _ | verbatim _ | parameter _ | named _ _ _ | array _ | tuple _ | mapped _ _
  | emptyObject | object _ | grouped _ => []

/-- The operators of further members of a union. -/
def furtherOperators : List TypeExpr → List Char
  | [] => []
  | e :: es => '|' :: (e.operators ++ furtherOperators es)

end

/-- Types stand side by side for a choice, with no brackets around them. -/
inductive IsChoice : TypeExpr → Prop
  | nullable (e : TypeExpr) : IsChoice (.nullable e)
  | union (e f : TypeExpr) (es : List TypeExpr) : IsChoice (.union (e :: f :: es))
  | alone {e : TypeExpr} : IsChoice e → IsChoice (.union [e])
  | left {l : TypeExpr} (r : TypeExpr) : IsChoice l → IsChoice (.intersection l r)
  | right (l : TypeExpr) {r : TypeExpr} : IsChoice r → IsChoice (.intersection l r)

variable {e : TypeExpr}

theorem isChoice_of_mem_operators : (e : TypeExpr) → '|' ∈ e.operators → e.IsChoice
  | nullable inner, _ => .nullable inner
  | union (e :: f :: es), _ => .union e f es
  | union [e], h => by
    rw [operators, furtherOperators, List.append_nil] at h
    exact .alone (isChoice_of_mem_operators e h)
  | intersection left right, h => by
    rw [operators, List.mem_append, List.mem_cons] at h
    rcases h with h | h | h
    · exact .left right (isChoice_of_mem_operators left h)
    · cases h
    · exact .right left (isChoice_of_mem_operators right h)
  | union [], h | builtin _, h | constant _, h | verbatim _, h | parameter _, h | named _ _ _, h | array _, h
  | tuple _, h | mapped _ _, h | emptyObject, h | object _, h | grouped _, h => by
    rw [operators] at h
    cases h

theorem mem_operators_iff : '|' ∈ e.operators ↔ e.IsChoice := by
  refine ⟨isChoice_of_mem_operators e, fun h => ?_⟩
  induction h with
  | nullable | union => simp [operators, furtherOperators]
  | alone _ ih => simp [operators, ih]
  | left _ _ ih | right _ _ ih => simp [operators, ih]

theorem furtherOperators_eq (es : List TypeExpr) :
    furtherOperators es = es.flatMap fun e => '|' :: e.operators := by
  induction es with
  | nil => rfl
  | cons e es ih => rw [furtherOperators, ih, List.flatMap_cons, List.cons_append]

/-! ### Texts of types -/

theorem hasOperators_texts {separator : String} {os : List Char} (hs : HasOperators separator os)
    {es : List TypeExpr} (h : ∀ e ∈ es, HasOperators e.text e.operators) :
    HasOperators (texts separator es) (es.flatMap fun e => os ++ e.operators) := by
  induction es with
  | nil => exact hasOperators_of_isPlainText (s := "") (by decide)
  | cons e es ih =>
    rw [List.forall_mem_cons] at h
    rw [List.flatMap_cons]
    show HasOperators (separator ++ e.text ++ texts separator es) _
    exact (hs.append h.1).append (ih h.2)

theorem hasOperators_memberText {m : Member TypeExpr} (hw : m.IsWritten)
    (h : HasOperators m.type.text m.type.operators) : HasOperators (memberText m) m.type.operators := by
  obtain ⟨comment, name, optional, type⟩ := m
  obtain ⟨⟨style, docs, deprecation, hc⟩, key, hk⟩ := hw
  have label : HasOperators (comment ++ name) [] := by
    rw [show comment = _ from hc, show name = _ from hk]
    exact (hasOperators_inlineComment style docs deprecation).append (hasOperators_scriptKey key)
  have mark : HasOperators (if optional then "?" else "") [] := by
    cases optional
    · exact hasOperators_of_isPlainText (s := "") (by decide)
    · exact hasOperators_of_isPlainText (s := "?") (by decide)
  have colon : HasOperators ": " [] := hasOperators_of_isPlainText (by decide)
  exact ((label.append mark).append colon).append h

theorem hasOperators_memberTexts {ms : List (Member TypeExpr)} (hw : ∀ m ∈ ms, m.IsWritten)
    (h : ∀ m ∈ ms, HasOperators m.type.text m.type.operators) :
    HasOperators (memberTexts ms) (ms.flatMap (·.type.operators)) := by
  induction ms with
  | nil => exact hasOperators_of_isPlainText (s := "") (by decide)
  | cons m ms ih =>
    rw [List.forall_mem_cons] at hw h
    rw [List.flatMap_cons]
    show HasOperators ("; " ++ memberText m ++ memberTexts ms) _
    have semicolon : HasOperators "; " [] := hasOperators_of_isPlainText (by decide)
    exact (semicolon.append (hasOperators_memberText hw.1 h.1)).append (ih hw.2 h.2)

theorem hasOperators_grouped {os : List Char} (h : HasOperators e.text os) :
    HasOperators (grouped e).text [] := by
  show HasOperators ("(" ++ e.text ++ ")") []
  have parentheses : ('(', ')') ∈ brackets := by decide
  exact h.bracketed parentheses (by simp)

/-- Parentheses are put around every text with an operator, so none is left in front of brackets. -/
theorem hasOperators_groupFor (h : HasOperators e.text e.operators) : HasOperators e.groupFor.text [] := by
  unfold groupFor
  split
  · exact hasOperators_grouped h
  · next hg =>
    have none : e.operators = [] := by
      by_contra hne
      exact hg (h.needsGroup hne)
    rwa [none] at h

/-- A separator and a list of types in brackets. -/
theorem hasOperators_list {opening closing : Char} (hp : (opening, closing) ∈ brackets) {es : List TypeExpr}
    (h : ∀ a ∈ e :: es, HasOperators a.text a.operators) {t : String}
    (ht : t.toList = opening :: ((e.text ++ texts ", " es).toList ++ [closing])) : HasOperators t [] := by
  rw [List.forall_mem_cons] at h
  have comma : HasOperators ", " [] := hasOperators_of_isPlainText (by decide)
  exact (h.1.append (hasOperators_texts comma h.2)).bracketed hp ht

end TypeExpr

/-! ## Formed types -/

/-- Plain names, and no hand-written types. -/
def plainNames : Vocabulary := ⟨fun _ name _ => isPlainText name, fun name => isPlainText name, fun _ => False⟩

namespace TypeExpr

variable {e : TypeExpr}

/-- The text of a formed type has the operators of the type outside its brackets. -/
theorem Formed.hasOperators (h : Formed plainNames e) : HasOperators e.text e.operators := by
  have angles : ('<', '>') ∈ brackets := by decide
  have squares : ('[', ']') ∈ brackets := by decide
  have braces : ('\x7b', '\x7d') ∈ brackets := by decide
  have plain {s : String} (h : isPlainText s) : HasOperators s [] := hasOperators_of_isPlainText h
  have emptyBrackets : HasOperators "[]" [] := (plain (s := "") (by decide)).bracketed squares (by simp)
  induction h with
  | builtin h =>
    have names : ["string", "number", "bigint", "boolean", "null", "never"].all isPlainText := by decide
    exact plain (List.all_eq_true.1 names _ h)
  | string s => exact hasOperators_literal .ascii s
  | constant h => exact plain (isPlainText_of_isNumberChar h)
  | verbatim h => exact h.elim
  | parameter h => exact plain h
  | @named target name arguments hn _ ih =>
    have head : HasOperators name [] := plain hn
    cases arguments with
    | nil => exact head
    | cons a as =>
      -- Operators within the brackets are not operators of the type.
      have inside := hasOperators_list angles (t := "<" ++ (a.text ++ texts ", " as) ++ ">") ih (by simp)
      refine (head.append inside).of_toList ?_
      show (name ++ "<" ++ a.text ++ texts ", " as ++ ">").toList = _
      simp
  | array _ ih => exact (hasOperators_groupFor ih).append emptyBrackets
  | @tuple es _ ih =>
    cases es with
    | nil => exact emptyBrackets
    | cons e es => exact hasOperators_list squares (t := "[" ++ e.text ++ texts ", " es ++ "]") ih (by simp)
  | @mapped key value _ _ ihk ihv =>
    have index := ((plain (s := "key in ") (by decide)).append ihk).enclosed squares
    have blank : HasOperators " " [] := plain (by decide)
    have colon : HasOperators ": " [] := plain (by decide)
    have entry := (((blank.append index).append colon).append ihv).append blank
    have whole := (plain (s := "Partial") (by decide)).append ((entry.enclosed braces).enclosed angles)
    refine whole.of_toList ?_
    show ("Partial<\x7b [key in " ++ key.text ++ "]: " ++ value.text ++ " \x7d>").toList = _
    simp
  | nullable _ ih =>
    have bar : HasOperators " | null" ['|'] := .of_isPlain (s := " | null") (by decide) (by decide)
    exact ih.append bar
  | emptyObject =>
    have arguments := (plain (s := "string, never") (by decide)).enclosed angles
    exact (plain (s := "Record") (by decide)).append arguments
  | @object ms hw _ ih =>
    have blank : HasOperators " " [] := plain (by decide)
    cases ms with
    | nil => exact (blank.append blank).bracketed braces (t := "\x7b  \x7d") (by simp)
    | cons m ms =>
      rw [List.forall_mem_cons] at hw ih
      have inside := (hasOperators_memberText hw.1 ih.1).append (hasOperators_memberTexts hw.2 ih.2)
      exact ((blank.append inside).append blank).bracketed braces
        (t := "\x7b " ++ memberText m ++ memberTexts ms ++ " \x7d") (by simp)
  | @union es _ ih =>
    have bar : HasOperators " | " ['|'] := .of_isPlain (s := " | ") (by decide) (by decide)
    cases es with
    | nil => exact plain (s := "") (by decide)
    | cons e es =>
      rw [List.forall_mem_cons] at ih
      have whole := ih.1.append (hasOperators_texts bar ih.2)
      rw [operators, furtherOperators_eq]
      exact whole
  | intersection _ _ ihl ihr =>
    have ampersand : HasOperators " & " ['&'] := .of_isPlain (s := " & ") (by decide) (by decide)
    have whole := (ihl.append ampersand).append ihr
    rw [List.append_assoc] at whole
    exact whole
  | grouped _ ih => exact hasOperators_grouped ih

end TypeExpr

end ShapeExport.TypeScript

namespace ShapeExport.Export
open TypeScript TypeScript.TypeExpr

/-- After the check of names only the parameters and the hand-written types of a shape are left to see to. -/
theorem covers_of_checkNames {x : Export} {s : Shape} (checked : x.checkNames = .ok ())
    (parameters : ∀ name, s.Holds (.placeholder name) → isPlainText name)
    (texts : ∀ text, ¬ s.Holds (.foreign (.verbatim text))) : plainNames.Covers x s := by
  intro t ht
  cases t with
  | reference id arguments =>
    intro r hr
    have hm : r ∈ x.types.records := Collection.mem_records.2 (Collection.mem_members_of_resolve hr)
    exact isPlainText_of_isTypeName (isTypeName_of_checkNames checked hm)
  | placeholder name => exact parameters name ht
  | foreign value =>
    cases value with
    | verbatim text => exact absurd ht (texts text)
    | named kind => trivial
  | _ => trivial

/-- **Grouping.** With plain names and no hand-written types, an array has no operator outside brackets,
however deep it stands in a rendered type. The payload that is joined with a tag has a bar there exactly if
it is a choice. -/
theorem grouping_typeExpr {x : Export} {path : Path} {s : Shape} {e : TypeExpr} (names : plainNames.Covers x s)
    (h : x.typeExpr path s = .ok e) :
    (∀ element, e.Holds (.array element) → topOperators? (array element).text = some []) ∧
      ∀ tag payload, e.Holds (.intersection tag payload) →
        ∃ os, topOperators? payload.text = some os ∧ ('|' ∈ os ↔ payload.IsChoice) := by
  have formed := formed_typeExpr names h
  constructor
  · intro element he
    exact (formed.of_holds he).hasOperators.topOperators?
  · intro tag payload he
    have part : payload ∈ (intersection tag payload).children := List.mem_cons_of_mem _ List.mem_cons_self
    have whole := ((formed.of_holds he).of_child part).hasOperators
    exact ⟨payload.operators, whole.topOperators?, mem_operators_iff⟩

/-! ## A choice behind a tag -/

namespace Tagged

/-- A variant with a number. -/
def amount (name : String) : Variant Shape :=
  { name, body := .positional [{ name := none, ty := .primitive .i32 }] }

def change : Shape := .enum "Change" [amount "Insert", amount "Remove"] none

/-- A variant that puts a change behind a tag. -/
def changed : Variant Shape := { name := "Change", body := .positional [{ name := none, ty := change }] }

def event : Shape := .enum "Event" [changed] (some (.internal (.string "kind")))

def empty : Export := ⟨{}, .empty⟩

def tag : TypeExpr := .object [{ key := "kind", type := .constant "\"Change\"" }]

def amounts : List TypeExpr :=
  [.object [{ key := "Insert", type := .builtin "number" }],
    .object [{ key := "Remove", type := .builtin "number" }]]

theorem covers_change : plainNames.Covers empty change := by
  refine Vocabulary.covers_of_kept trivial fun c hc => ?_
  have numbers : c ∈ [Shape.primitive .i32, .primitive .i32] := hc
  have number : c = .primitive .i32 := by simpa using numbers
  rw [number]
  exact Vocabulary.covers_of_kept trivial (List.forall_mem_nil _)

theorem covers_event : plainNames.Covers empty event :=
  Vocabulary.covers_of_kept trivial (List.forall_mem_singleton.2 covers_change)

theorem typeExpr_change (path : Path) : empty.typeExpr path change = .ok (.union amounts) := by
  have variants (path : Path) :
      empty.variantExprs .external path [amount "Insert", amount "Remove"] = .ok amounts := by cbv
  have texts : (amounts.map TypeExpr.text).Nodup := by decide
  rw [change, typeExpr, if_neg (by decide)]
  show (do return unionOf (← empty.variantExprs .external _ _)) = _
  rw [variants]
  show Except.ok (unionOf amounts) = _
  rw [unionOf, Text.distinctBy_of_nodup texts]

theorem typeExpr_event (path : Path) :
    empty.typeExpr path event = .ok (.union [.grouped (.intersection tag (.union amounts))]) := by
  have represented (path : Path) : empty.scope.represent path "Event" [changed]
      (some (.internal (.string "kind"))) = .ok (.internal (.string "kind")) := by
    cases path <;> cbv
  have payload (path : Path) : empty.variantExpr (.internal (.string "kind")) path "Change" changed.body =
      .ok (.grouped (.intersection tag (.union amounts))) := by
    show empty.variantExpr _ _ _ (.positional [{ name := none, ty := change }]) = _
    rw [variantExpr]
    show empty.taggedPayload (tagMember "kind" "Change") _ _ = _
    rw [taggedPayload, if_neg (by decide), typeExpr_change]
    rfl
  have variants (path : Path) : empty.variantExprs (.internal (.string "kind")) path [changed] =
      .ok [.grouped (.intersection tag (.union amounts))] := by
    rw [variantExprs, if_neg (by decide), variantExprs]
    exact bind_eq_ok.2 ⟨_, payload _, rfl⟩
  rw [event, typeExpr, if_neg (by decide), represented]
  exact bind_eq_ok.2 ⟨_, rfl, bind_eq_ok.2 ⟨_, variants _, rfl⟩⟩

/-- Behind its tag the choice stands without parentheses, so the tag is joined with the first alternative
alone. -/
theorem event_not_grouped : plainNames.Covers empty event ∧
    ∃ e, empty.typeExpr [] event = .ok e ∧ e.Holds (.intersection tag (.union amounts)) ∧
      topOperators? (union amounts).text = some ['|'] ∧
      e.text = "(\x7b kind: \"Change\" \x7d & \x7b Insert: number \x7d | \x7b Remove: number \x7d)" := by
  refine ⟨covers_event, _, typeExpr_event [], ?_, ?_, by rfl⟩
  · exact .child List.mem_cons_self (.child List.mem_cons_self (.here _))
  · cbv

/-- A list of changes, and an event. -/
def log : Shape := .tuple [.list change none false, event]

def logExpr : TypeExpr :=
  .tuple [.array (.grouped (.union amounts)), .union [.grouped (.intersection tag (.union amounts))]]

theorem covers_log : plainNames.Covers empty log := by
  have listed : plainNames.Covers empty (.list change none false) :=
    Vocabulary.covers_of_kept trivial (List.forall_mem_singleton.2 covers_change)
  have both : ∀ c ∈ [.list change none false, event], plainNames.Covers empty c :=
    List.forall_mem_cons.2 ⟨listed, List.forall_mem_singleton.2 covers_event⟩
  exact Vocabulary.covers_of_kept trivial both

theorem typeExpr_log : empty.typeExpr [] log = .ok logExpr := by
  have listed (path : Path) :
      empty.typeExpr path (.list change none false) = .ok (.array (.grouped (.union amounts))) := by
    rw [typeExpr, typeExpr_change]
    rfl
  rw [log, typeExpr, elementExprs, elementExprs, elementExprs, listed, typeExpr_event]
  · rfl
  · intro h
    cases h

/-- The list is grouped, and the event is not. -/
theorem grouping_log : plainNames.Covers empty log ∧ empty.typeExpr [] log = .ok logExpr ∧
    topOperators? (array (grouped (union amounts))).text = some [] ∧
    ∃ os, topOperators? (union amounts).text = some os ∧ ('|' ∈ os ↔ (union amounts).IsChoice) := by
  obtain ⟨arrays, payloads⟩ := grouping_typeExpr covers_log typeExpr_log
  have list : logExpr.Holds (array (grouped (union amounts))) := .child List.mem_cons_self (.here _)
  have payload : logExpr.Holds (intersection tag (union amounts)) :=
    .child (List.mem_cons_of_mem _ List.mem_cons_self)
      (.child List.mem_cons_self (.child List.mem_cons_self (.here _)))
  exact ⟨covers_log, typeExpr_log, arrays _ list, payloads _ _ payload⟩

end Tagged

end ShapeExport.Export
