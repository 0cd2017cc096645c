import Mathlib
import ShapeExport.Proofs.Scope.Unfolding
import ShapeExport.Proofs.TypeScript.Balance
import ShapeExport.Proofs.Zod.Formed

/-!
# Brackets in rendered schemas

* `Zod.Schema.Formed.balanced` : schemas that the renderer builds with plain names leave brackets as they are;
* `TypeScript.Vocabulary.Covers.spans` : a vocabulary that has what the records take over has also what map
  keys are followed to.
-/

namespace ShapeExport
open Script

/-! ## Schemas -/

namespace Zod
open TypeScript (plainNames isPlainText_of_isNumberChar)

theorem Scalar.balanced (kind : Scalar) : Balanced kind.text := by
  cases kind <;> exact balanced_of_closeAfter rfl

namespace Schema

theorem balanced_texts {es : List Schema} (h : ∀ e ∈ es, Balanced e.text) : Balanced (texts es) := by
  induction es with
  | nil => exact balanced_empty
  | cons e es ih =>
    rw [List.forall_mem_cons] at h
    show Balanced (", " ++ e.text ++ texts es)
    exact ((balanced_of_closeAfter (s := ", ") rfl).append h.1).append (ih h.2)

theorem balanced_memberText {m : Member Schema} (hw : m.IsWritten) (h : Balanced m.schema.text) :
    Balanced (memberText m) := by
  obtain ⟨name, schema, optional⟩ := m
  obtain ⟨key, hk⟩ := hw
  have label : Balanced name := by
    rw [show name = _ from hk]
    exact balanced_propertyKey _ key
  have mark : Balanced (if optional then ".optional()" else "") := by
    cases optional <;> exact balanced_of_closeAfter rfl
  have colon : Balanced ": " := balanced_of_closeAfter rfl
  exact ((label.append colon).append h).append mark

theorem balanced_memberTexts {ms : List (Member Schema)} (hw : ∀ m ∈ ms, m.IsWritten)
    (h : ∀ m ∈ ms, Balanced m.schema.text) : Balanced (memberTexts ms) := by
  induction ms with
  | nil => exact balanced_empty
  | cons m ms ih =>
    rw [List.forall_mem_cons] at hw h
    show Balanced (", " ++ memberText m ++ memberTexts ms)
    have comma : Balanced ", " := balanced_of_closeAfter rfl
    exact (comma.append (balanced_memberText hw.1 h.1)).append (ih hw.2 h.2)

theorem balanced_lazyText {reference : String} (h : Balanced reference) : Balanced (lazyText reference) :=
  h.enclosed "z.lazy(() => " ")" rfl rfl

/-- A list of schemas between texts that belong together. -/
theorem balanced_list {e : Schema} {es : List Schema} (h : ∀ a ∈ e :: es, Balanced a.text)
    (opening closing : String) {inner : List Char} (opens : closeAfter? [] opening.toList = some inner)
    (closes : closeAfter? inner closing.toList = some []) :
    Balanced (opening ++ e.text ++ texts es ++ closing) := by
  rw [List.forall_mem_cons] at h
  have inside := (h.1.append (balanced_texts h.2)).enclosed opening closing opens closes
  rwa [← String.append_assoc] at inside

/-- The text of a formed schema leaves brackets as they are. -/
theorem Formed.balanced {e : Schema} (h : Formed plainNames e) : Balanced e.text := by
  have literal {s : String} (h : Balanced s) : Balanced ("z.literal(" ++ s ++ ")") := h.enclosed _ _ rfl rfl
  induction h with
  | scalar kind => exact kind.balanced
  | string s => exact literal (balanced_literal .ascii s)
  | literal h => exact literal (balanced_of_isPlainText (isPlainText_of_isNumberChar h))
  | custom h => exact h.elim
  | parameter h => exact balanced_of_isPlainText h
  | @lazy target name arguments hn _ ih =>
    have head : Balanced name := balanced_of_isPlainText hn
    cases arguments with
    | nil => exact balanced_lazyText head
    | cons a as =>
      show Balanced (lazyText (name ++ "(" ++ a.text ++ texts as ++ ")"))
      have call := head.append (balanced_list ih "(" ")" rfl rfl)
      exact balanced_lazyText (call.of_toList (by simp))
  | array _ ih => exact ih.enclosed "z.array(" ")" rfl rfl
  | @tuple es _ ih =>
    cases es with
    | nil => exact balanced_of_closeAfter (s := "z.tuple([])") rfl
    | cons e es => exact balanced_list ih "z.tuple([" "])" rfl rfl
  | @record key value _ _ ihk ihv =>
    have pair := (ihk.append (balanced_of_closeAfter (s := ", ") rfl)).append ihv
    have call := pair.enclosed "z.record(" ")" rfl rfl
    refine call.of_toList ?_
    show (recordText key.text value.text).toList = _
    unfold recordText
    simp
  | nullable _ ih => exact ih.append (balanced_of_closeAfter (s := ".nullable()") rfl)
  | emptyObject => exact balanced_of_closeAfter (s := "z.object(\x7b\x7d).strict()") rfl
  | @object ms hw _ ih =>
    cases ms with
    | nil => exact balanced_of_closeAfter (s := "z.object(\x7b  \x7d)") rfl
    | cons m ms =>
      rw [List.forall_mem_cons] at hw ih
      have members := (balanced_memberText hw.1 ih.1).append (balanced_memberTexts hw.2 ih.2)
      have inside := members.enclosed "z.object(\x7b " " \x7d)" rfl rfl
      rwa [← String.append_assoc] at inside
  | @union es _ ih =>
    cases es with
    | nil => exact balanced_of_closeAfter (s := "z.union([])") rfl
    | cons e es => exact balanced_list ih "z.union([" "])" rfl rfl
  | @intersection left right _ _ ihl ihr =>
    have call := ihl.append (ihr.enclosed ".and(" ")" rfl rfl)
    refine call.of_toList ?_
    show (left.text ++ ".and(" ++ right.text ++ ")").toList = _
    simp

end Schema

end Zod

/-! ## What map keys are followed to -/

namespace TypeScript.Vocabulary

variable {V : Vocabulary} {x : Export}

/-- The body of a record takes over what the record does, and what the arguments do. -/
theorem Covers.expand {id : TypeId} {arguments : List Shape} {r : Record}
    (h : V.Covers x (.reference id arguments)) (hr : V.Covers x r.shape) : V.Covers x (r.expand arguments) := by
  intro t ht
  rcases ht.of_substitute with ⟨y, hy, rfl⟩ | ⟨name, a, -, hb, ha⟩
  · have admitted := hr y hy
    cases y with
    | reference id' arguments' =>
      intro q hq
      rw [List.length_map]
      exact admitted q hq
    | _ => exact admitted
  · exact h.of_kept (Binding.mem_of_ofLists hb) t ha

theorem Covers.keyBody (records : ∀ r ∈ x.types.members, V.Covers x r.shape) {key t : Shape}
    (hk : x.types.KeyBody key t) (h : V.Covers x key) : V.Covers x t := by
  induction hk with
  | inner _ ih => exact ih (h.of_kept (List.mem_singleton_self _))
  | body hr => exact h.expand (records _ (Collection.mem_members_of_resolve hr))
  | further hr _ ih => exact ih (h.expand (records _ (Collection.mem_members_of_resolve hr)))

/-- Nothing new is taken over where keys are followed into records. -/
theorem Covers.spans (records : ∀ r ∈ x.types.members, V.Covers x r.shape) {s : Shape} (h : V.Covers x s) :
    V.Spans x s := by
  intro t ht
  induction ht with
  | here s => exact h s (.here s)
  | part hc _ ih => exact ih (h.of_kept hc)
  | key hk _ ih => exact ih (.keyBody records hk (h.of_kept List.mem_cons_self))

end TypeScript.Vocabulary

end ShapeExport
