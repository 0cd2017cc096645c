import ShapeExport.Proofs.TypeScript.Formed
import ShapeExport.Proofs.Zod.Lists

/-!
# What rendered schemas are made of

* `Zod.Schema.Holds` : a schema holds another one, at any depth;
* `Zod.Schema.Formed` : the schemas that the renderer builds, with names from a vocabulary;
* `Collection.KeyBody` : the bodies that a map key is followed to;
* `Collection.Involves` : the shapes that are rendered on behalf of a shape;
* `Export.formed_schemaExpr` : a shape renders to a formed schema when the vocabulary has what it involves.
-/

namespace ShapeExport

/-! ## Schemas -/

namespace Zod

/-- The key of the member is written by the renderer. -/
def Member.IsWritten {σ : Type} (m : Member σ) : Prop := ∃ key, m.key = schemaKey key

namespace Schema
open TypeScript (Vocabulary)

/-- The schemas directly inside a schema. -/
def children : Schema → List Schema
  | lazy _ _ arguments => arguments
  | array inner | nullable inner => [inner]
  | tuple es | union es => es
  | record left right | intersection left right => [left, right]
  | object members => members.map (·.schema)
  | scalar _ | literal _ | custom _ | parameter _ | emptyObject => []

/-- The first schema holds the second one, or is the second. -/
inductive Holds : Schema → Schema → Prop
  | here (e : Schema) : Holds e e
  | child {e c t : Schema} : c ∈ e.children → Holds c t → Holds e t

/-- The schemas that the renderer builds with names from a vocabulary. -/
inductive Formed (V : Vocabulary) : Schema → Prop
  | scalar (kind : Scalar) : Formed V (.scalar kind)
  | string (s : String) : Formed V (stringLiteral s)
  | literal {text : String} : (∀ c ∈ text.toList, IsNumberChar c) → Formed V (.literal text)
  | custom {text : String} : V.texts text → Formed V (.custom text)
  | parameter {name : String} : V.parameters name → Formed V (.parameter name)
  | lazy {target : TypeKey} {name : String} {arguments : List Schema} :
      V.names target name arguments.length → (∀ a ∈ arguments, Formed V a) →
      Formed V (.lazy target name arguments)
  | array {e : Schema} : Formed V e → Formed V (.array e)
  | tuple {es : List Schema} : (∀ e ∈ es, Formed V e) → Formed V (.tuple es)
  | record {key value : Schema} : Formed V key → Formed V value → Formed V (.record key value)
  | nullable {e : Schema} : Formed V e → Formed V (.nullable e)
  | emptyObject : Formed V .emptyObject
  | object {ms : List (Member Schema)} : (∀ m ∈ ms, m.IsWritten) → (∀ m ∈ ms, Formed V m.schema) →
      Formed V (.object ms)
  | union {es : List Schema} : (∀ e ∈ es, Formed V e) → Formed V (.union es)
  | intersection {left right : Schema} : Formed V left → Formed V right →
      Formed V (.intersection left right)

variable {V : Vocabulary} {e : Schema}

theorem Formed.nullableOf (h : Formed V e) : Formed V e.nullableOf := by
  unfold Schema.nullableOf
  split
  · exact h
  · exact .nullable h

theorem Formed.unionOf {es : List Schema} (h : ∀ e ∈ es, Formed V e) : Formed V (unionOf es) := by
  have distinct : ∀ e ∈ Text.distinctBy text es, Formed V e := fun e he => h e (Text.mem_of_mem_distinctBy he)
  unfold Schema.unionOf
  split
  · next e he =>
    rw [he] at distinct
    exact distinct e (List.mem_singleton_self e)
  · exact .union distinct

theorem Formed.of_child (h : Formed V e) {c : Schema} (hc : c ∈ e.children) : Formed V c := by
  cases h with
  | scalar | string | literal | custom | parameter | emptyObject => cases hc
  | lazy _ ha => exact ha c hc
  | tuple h | union h => exact h c hc
  | array h | nullable h =>
    rw [List.mem_singleton.1 hc]
    exact h
  | record hl hr | intersection hl hr =>
    rcases List.mem_cons.1 hc with rfl | hc
    · exact hl
    · rw [List.mem_singleton.1 hc]
      exact hr
  | object _ hm =>
    obtain ⟨m, hm', rfl⟩ := List.mem_map.1 hc
    exact hm m hm'

theorem Formed.of_holds (h : Formed V e) {t : Schema} (ht : e.Holds t) : Formed V t := by
  induction ht with
  | here => exact h
  | child hc _ ih => exact ih (h.of_child hc)

/-- A name in a formed schema is one of the vocabulary. -/
theorem Formed.names (h : Formed V e) {target : TypeKey} {name : String} {arguments : List Schema}
    (ht : e.Holds (.lazy target name arguments)) : V.names target name arguments.length := by
  cases h.of_holds ht with
  | lazy hn _ => exact hn

end Schema

end Zod

/-! ## Map keys that are followed -/

namespace Collection

variable {c : Collection}

/-- A map key is followed through nullables into the bodies of the records that it refers to. -/
inductive KeyBody (c : Collection) : Shape → Shape → Prop
  | inner {key t : Shape} : KeyBody c key t → KeyBody c (.nullable key) t
  | body {id : TypeId} {arguments : List Shape} {r : Record} : c.resolve id.key = some r →
      KeyBody c (.reference id arguments) (r.expand arguments)
  | further {id : TypeId} {arguments : List Shape} {r : Record} {t : Shape} : c.resolve id.key = some r →
      KeyBody c (r.expand arguments) t → KeyBody c (.reference id arguments) t

/-- The shapes that are rendered on behalf of a shape: what stands at kept positions, and where a map key is
followed, its bodies. -/
inductive Involves (c : Collection) : Shape → Shape → Prop
  | here (s : Shape) : Involves c s s
  | part {s t u : Shape} : t ∈ s.kept → Involves c t u → Involves c s u
  | key {key value t u : Shape} : c.KeyBody key t → Involves c t u → Involves c (.map key value) u

/-- A shape that is rendered stands inside, or a map key was followed to it. -/
theorem Involves.holds_or {s u : Shape} (h : c.Involves s u) : s.Holds u ∨
    ∃ key value t, s.Holds (.map key value) ∧ c.KeyBody key t ∧ c.Involves t u := by
  induction h with
  | here s => exact Or.inl (.here s)
  | part hc _ ih =>
    rcases ih with ih | ⟨key, value, t, hm, hk, hi⟩
    · exact Or.inl (.child hc ih)
    · exact Or.inr ⟨key, value, t, .child hc hm, hk, hi⟩
  | @key key value t u hk hi _ => exact Or.inr ⟨key, value, t, .here _, hk, hi⟩

end Collection

namespace TypeScript

/-- The vocabulary has what a rendering takes over from the shapes that are rendered. -/
def Vocabulary.Spans (V : Vocabulary) (x : Export) (s : Shape) : Prop :=
  ∀ t, x.types.Involves s t → V.Admits x t

/-- The vocabulary has what is taken over when the shape is a map key. -/
def Vocabulary.SpansKey (V : Vocabulary) (x : Export) (s : Shape) : Prop :=
  ∀ t, x.types.KeyBody s t → V.Spans x t

variable {V : Vocabulary} {x : Export} {s : Shape}

theorem Vocabulary.Spans.of_kept (h : V.Spans x s) {c : Shape} (hc : c ∈ s.kept) : V.Spans x c :=
  fun t ht => h t (.part hc ht)

theorem Vocabulary.Spans.of_key {key value : Shape} (h : V.Spans x (.map key value)) : V.SpansKey x key :=
  fun _ hk u hu => h u (.key hk hu)

end TypeScript

/-! ## Renderings -/

namespace Export
open Zod Zod.Schema
open TypeScript (Vocabulary)

variable {x : Export} {V : Vocabulary} {left : Nat} {path : Path}

theorem schemaExpr_reference_eq_ok {id : TypeId} {arguments : List Shape} {e : Schema}
    (h : x.schemaExpr left path (.reference id arguments) = .ok e) : ∃ r es, x.types.resolve id.key = some r ∧
      x.argumentSchemas left path arguments = .ok es ∧ e = .lazy r.id.key (x.displayName r) es := by
  rw [schemaExpr] at h
  obtain ⟨r, hr, h⟩ := bind_eq_ok.1 h
  obtain ⟨es, hes, h⟩ := map_eq_ok.1 h
  exact ⟨r, es, resolve_of_target hr, hes, h.symm⟩

/-- Wherever the shape stands, its schema is formed. -/
def FormsSchema (x : Export) (V : Vocabulary) (left : Nat) (s : Shape) : Prop :=
  ∀ path e, x.schemaExpr left path s = .ok e → Formed V e

/-- Wherever the shape stands as a map key, its schema is formed. -/
def FormsKey (x : Export) (V : Vocabulary) (left : Nat) (s : Shape) : Prop :=
  ∀ seen path e, x.keySchema left seen path s = .ok e → Formed V e

theorem formed_argumentSchemas {ss : List Shape} (hs : ∀ c ∈ ss, x.FormsSchema V left c) {es : List Schema}
    (h : x.argumentSchemas left path ss = .ok es) : es.length = ss.length ∧ ∀ e ∈ es, Formed V e := by
  rw [argumentSchemas_eq_mapM] at h
  refine ⟨length_of_mapM h, fun e he => ?_⟩
  obtain ⟨c, hc, rendered⟩ := exists_of_mem_results h he
  exact hs c hc path e rendered

theorem formed_elementSchemas {ss : List Shape} (hs : ∀ c ∈ ss, x.FormsSchema V left c) {i : Nat}
    {es : List Schema} (h : x.elementSchemas left path i ss = .ok es) : ∀ e ∈ es, Formed V e := by
  intro e he
  rw [elementSchemas_eq_mapM] at h
  obtain ⟨c, hc, rendered⟩ := exists_of_mem_results h he
  exact hs c.1 (List.fst_mem_of_mem_zipIdx hc) _ e rendered

theorem formed_positionalSchemas {fs : List (Field (Option String) Shape)}
    (hs : ∀ f ∈ Field.kept fs, x.FormsSchema V left f.ty) {i : Nat} {es : List Schema}
    (h : x.positionalSchemas left path i fs = .ok es) : ∀ e ∈ es, Formed V e := by
  rw [positionalSchemas_eq] at h
  exact formed_elementSchemas (List.forall_mem_map.2 hs) h

/-- The members are written by the renderer, and their schemas are formed. -/
def FormedSchemaMembers (V : Vocabulary) (ms : List (Zod.Member Schema)) : Prop :=
  (∀ m ∈ ms, m.IsWritten) ∧ ∀ m ∈ ms, Formed V m.schema

theorem FormedSchemaMembers.cons {m : Zod.Member Schema} {ms : List (Zod.Member Schema)} (hw : m.IsWritten)
    (hf : Formed V m.schema) (h : FormedSchemaMembers V ms) : FormedSchemaMembers V (m :: ms) :=
  ⟨List.forall_mem_cons.2 ⟨hw, h.1⟩, List.forall_mem_cons.2 ⟨hf, h.2⟩⟩

theorem FormedSchemaMembers.object {ms : List (Zod.Member Schema)} (h : FormedSchemaMembers V ms) :
    Formed V (.object ms) :=
  .object h.1 h.2

theorem formedSchemaMembers_nil : FormedSchemaMembers V [] :=
  ⟨List.forall_mem_nil _, List.forall_mem_nil _⟩

theorem FormedSchemaMembers.cons_tag (tag value : String) {ms : List (Zod.Member Schema)}
    (h : FormedSchemaMembers V ms) : FormedSchemaMembers V (schemaTag tag value :: ms) :=
  h.cons ⟨tag, rfl⟩ (.string value)

theorem FormedSchemaMembers.append_tag (tag : Option String) (value : String) {ms : List (Zod.Member Schema)}
    (h : FormedSchemaMembers V ms) :
    FormedSchemaMembers V ((tag.map fun t => schemaTag t value).toList ++ ms) := by
  cases tag with
  | none => exact h
  | some t => exact h.cons_tag t value

theorem formed_memberSchemas {fs : List (Field String Shape)}
    (hs : ∀ f ∈ Field.kept fs, x.FormsSchema V left f.ty) {ms : List (Zod.Member Schema)}
    (h : x.memberSchemas left path fs = .ok ms) : FormedSchemaMembers V ms := by
  rw [memberSchemas_eq_mapM] at h
  have all : ∀ m ∈ ms, m.IsWritten ∧ Formed V m.schema := by
    intro m hm
    obtain ⟨f, hf, rendered⟩ := exists_of_mem_results h hm
    obtain ⟨schema, hs', rfl⟩ := map_eq_ok.1 rendered
    exact ⟨⟨f.key, rfl⟩, hs f hf _ schema hs'⟩
  exact ⟨fun m hm => (all m hm).1, fun m hm => (all m hm).2⟩

theorem formed_bodySchema {b : Body Shape} (hs : ∀ c ∈ b.kept, x.FormsSchema V left c) {name : String}
    {e : Schema} (h : x.bodySchema left path name b = .ok e) : Formed V e := by
  cases b with
  | unit =>
    rw [bodySchema] at h
    cases h
    exact .scalar .null
  | positional fields =>
    rw [Body.kept, List.forall_mem_map] at hs
    unfold bodySchema at h
    split at h
    · next f =>
      split at h
      · cases h
        exact .tuple (List.forall_mem_nil _)
      · next hf =>
        rw [Field.kept_cons_of_not_skip hf, List.forall_mem_cons] at hs
        exact hs.1 path e h
    · obtain ⟨es, hes, h⟩ := bind_eq_ok.1 h
      cases h
      exact .tuple (formed_positionalSchemas hs hes)
  | named tag fields =>
    rw [Body.kept, List.forall_mem_map] at hs
    rw [bodySchema] at h
    obtain ⟨ms, hms, h⟩ := bind_eq_ok.1 h
    have members := (formed_memberSchemas hs hms).append_tag tag name
    split at h
    · cases h
      exact .emptyObject
    · cases h
      exact members.object

theorem formed_taggedSchema {tag : Zod.Member Schema} (ht : Formed V (.object [tag]))
    {fs : List (Field (Option String) Shape)} (hs : ∀ f ∈ Field.kept fs, x.FormsSchema V left f.ty)
    {e : Schema} (h : x.taggedSchema left tag path fs = .ok e) : Formed V e := by
  have each := List.forall_mem_map.2 hs
  rw [taggedSchema_eq] at h
  split at h
  · cases h
    exact ht
  · next s rest payloads =>
    obtain ⟨payload, hp, rfl⟩ := map_eq_ok.1 h
    rw [payloads] at each
    exact .intersection ht (each s List.mem_cons_self path payload hp)

theorem formed_variantSchema {r : Representation} {b : Body Shape}
    (hs : ∀ c ∈ b.kept, x.FormsSchema V left c) {key : String} {e : Schema}
    (h : x.variantSchema left r path key b = .ok e) : Formed V e := by
  cases r with
  | strings rule =>
    rw [variantSchema] at h
    cases h
    exact .string key
  | untagged =>
    rw [variantSchema] at h
    exact formed_bodySchema hs h
  | external =>
    rw [variantSchema] at h
    split at h
    · cases h
      exact .string key
    · split at h
      · cases h
        split
        · exact .tuple (List.forall_mem_nil _)
        · exact .string key
      · obtain ⟨t, ht, h⟩ := bind_eq_ok.1 h
        cases h
        exact (formedSchemaMembers_nil.cons ⟨key, rfl⟩ (formed_bodySchema hs ht)).object
  | internal tag =>
    rw [variantSchema] at h
    obtain ⟨tag, -, h⟩ := bind_eq_ok.1 h
    cases b with
    | unit =>
      cases h
      exact (formedSchemaMembers_nil.cons_tag tag key).object
    | positional fields =>
      rw [Body.kept, List.forall_mem_map] at hs
      exact formed_taggedSchema (formedSchemaMembers_nil.cons_tag tag key).object hs h
    | named inner fields =>
      rw [Body.kept, List.forall_mem_map] at hs
      obtain ⟨ms, hms, h⟩ := bind_eq_ok.1 h
      cases h
      exact (((formed_memberSchemas hs hms).append_tag inner key).cons_tag tag key).object
  | adjacent tag content =>
    rw [variantSchema] at h
    obtain ⟨tag, -, h⟩ := bind_eq_ok.1 h
    split at h
    · cases h
      exact (formedSchemaMembers_nil.cons_tag tag key).object
    · obtain ⟨t, ht, h⟩ := bind_eq_ok.1 h
      obtain ⟨content, -, h⟩ := bind_eq_ok.1 h
      cases h
      have payload := formedSchemaMembers_nil.cons (m := { key := schemaKey content, schema := t })
        ⟨content, rfl⟩ (formed_bodySchema hs ht)
      exact (payload.cons_tag tag key).object

theorem formed_variantSchemas {r : Representation} {vs : List (Variant Shape)}
    (hs : ∀ v ∈ Variant.kept vs, ∀ c ∈ v.body.kept, x.FormsSchema V left c) {es : List Schema}
    (h : x.variantSchemas left r path vs = .ok es) : ∀ e ∈ es, Formed V e := by
  rw [variantSchemas_eq_mapM] at h
  intro e he
  obtain ⟨v, hv, rendered⟩ := exists_of_mem_results h he
  exact formed_variantSchema (hs v hv) rendered

theorem formed_primitiveSchema {kind : Primitive} {e : Schema} (h : x.primitiveSchema path kind = .ok e) :
    Formed V e := by
  unfold primitiveSchema at h
  split at h
  · obtain ⟨policy, -, h⟩ := bind_eq_ok.1 h
    cases policy <;> cases h <;> exact .scalar _
  · split at h
    · cases h
      exact .scalar _
    · split at h
      · cases h
        exact .scalar _
      · split at h <;> cases h <;> exact .scalar _

theorem formed_literalSchema (l : Literal) : Formed V l.schema := by
  have number (n : Number) : Formed V (.literal (n.text .message)) := .literal n.text_chars
  have letters {s : String} (h : s.toList.all Char.isAlphanum) : Formed V (.literal s) :=
    .literal fun c hc => Or.inl (List.all_eq_true.1 h c hc)
  cases l with
  | none => exact .scalar .null
  | bool b => cases b <;> exact letters (by decide)
  | integer width value _ => exact number (.integer value)
  | float width value => exact number value
  | string s => exact .string s
  | char c => exact .string _

/-- A shape renders to a formed schema when its parts do, and the key of a map as a key. -/
theorem formsSchema_of_kept {s : Shape} (spans : V.Spans x s)
    (part : ∀ c ∈ s.kept, x.FormsSchema V left c ∧ (V.SpansKey x c → x.FormsKey V left c)) :
    x.FormsSchema V left s := by
  have self := spans s (.here s)
  intro path e h
  cases s with
  | primitive kind =>
    rw [schemaExpr] at h
    exact formed_primitiveSchema h
  | literal value =>
    rw [schemaExpr] at h
    cases h
    exact formed_literalSchema value
  | placeholder name =>
    rw [schemaExpr] at h
    cases h
    exact .parameter self
  | foreign value =>
    cases value with
    | verbatim text =>
      rw [schemaExpr] at h
      cases h
      exact .custom self
    | named kind =>
      rw [schemaExpr] at h
      cases h
  | list element length unique =>
    rw [schemaExpr] at h
    obtain ⟨t, ht, h⟩ := bind_eq_ok.1 h
    have element := (part _ (List.mem_singleton_self _)).1 path t ht
    split at h
    · cases h
      refine .tuple fun u hu => ?_
      rw [List.eq_of_mem_replicate hu]
      exact element
    · cases h
      exact .array element
  | nullable inner =>
    rw [schemaExpr] at h
    obtain ⟨t, ht, h⟩ := bind_eq_ok.1 h
    cases h
    exact ((part _ (List.mem_singleton_self _)).1 path t ht).nullableOf
  | map key value =>
    rw [schemaExpr] at h
    obtain ⟨k, hk, h⟩ := bind_eq_ok.1 h
    obtain ⟨v, hv, h⟩ := bind_eq_ok.1 h
    cases h
    have keyForms := (part key List.mem_cons_self).2 spans.of_key
    have valueForms := (part value (List.mem_cons_of_mem _ List.mem_cons_self)).1
    exact .record (keyForms [] path k hk) (valueForms path v hv)
  | tuple elements =>
    cases elements with
    | nil =>
      rw [schemaExpr] at h
      cases h
      exact .scalar .null
    | cons t ts =>
      rw [schemaExpr] at h
      · obtain ⟨es, hes, h⟩ := bind_eq_ok.1 h
        cases h
        exact .tuple (formed_elementSchemas (fun c hc => (part c hc).1) hes)
      · intro ht
        cases ht
  | struct name body =>
    rw [schemaExpr] at h
    exact formed_bodySchema (fun c hc => (part c hc).1) h
  | enum name vs tagging =>
    rw [schemaExpr] at h
    split at h
    · cases h
      exact .scalar .never
    · obtain ⟨r, -, h⟩ := bind_eq_ok.1 h
      obtain ⟨es, hes, h⟩ := bind_eq_ok.1 h
      cases h
      refine .unionOf (formed_variantSchemas (fun v hv c hc => (part c ?_).1) hes)
      exact List.mem_flatMap.2 ⟨v, hv, hc⟩
  | reference id arguments =>
    obtain ⟨r, es, hr, hes, rfl⟩ := schemaExpr_reference_eq_ok h
    obtain ⟨hl, hf⟩ := formed_argumentSchemas (fun c hc => (part c hc).1) hes
    refine .lazy ?_ hf
    rw [hl]
    exact self r hr

/-- A map key renders to a formed schema when what it stands for does: itself, a part of it, or the body of
a record, with one expansion less. -/
theorem formsKey_of_kept {s : Shape} (forms : x.FormsSchema V left s) (bodies : V.SpansKey x s)
    (part : ∀ c ∈ s.kept, V.SpansKey x c → x.FormsKey V left c)
    (followed : ∀ m t, left = m + 1 → V.Spans x t → V.SpansKey x t → x.FormsKey V m t) :
    x.FormsKey V left s := by
  intro seen path e h
  -- Only a nullable and a record that is not on the way have keys that are not their own schemas.
  cases s with
  | nullable inner =>
    rw [keySchema] at h
    exact part _ (List.mem_singleton_self _) (fun t ht => bodies t (.inner ht)) seen path e h
  | primitive kind =>
    rw [keySchema] at h
    split at h
    · cases h
      exact .scalar _
    · split at h
      · cases h
        exact .scalar _
      · exact forms path e h
  | literal value =>
    rw [keySchema] at h
    cases h
    split
    · exact .string _
    · exact formed_literalSchema value
  | reference id arguments =>
    cases left with
    | zero =>
      rw [keySchema] at h
      split at h
      · exact forms path e h
      · cases h
    | succ m =>
      rw [keySchema] at h
      split at h
      · exact forms path e h
      · obtain ⟨r, hr, h⟩ := bind_eq_ok.1 h
        have resolved := resolve_of_target hr
        exact followed m _ rfl (bodies _ (.body resolved)) (fun t ht => bodies t (.further resolved ht)) _ path e h
  | _ =>
    simp only [keySchema] at h
    exact forms path e h

/-- A key is followed into records only at the cost of an expansion, and otherwise stands for one of its
parts. So the induction is over the expansions that are left, and within over the shape. -/
theorem formsSchema_step (followed : ∀ m t, left = m + 1 → V.Spans x t → V.SpansKey x t → x.FormsKey V m t)
    {s : Shape} (spans : V.Spans x s) :
    x.FormsSchema V left s ∧ (V.SpansKey x s → x.FormsKey V left s) := by
  induction s using Shape.childInduction with
  | step s ih =>
    have part : ∀ c ∈ s.kept, x.FormsSchema V left c ∧ (V.SpansKey x c → x.FormsKey V left c) := fun c hc =>
      ih c (Shape.mem_children_of_mem_kept hc) (spans.of_kept hc)
    have forms : x.FormsSchema V left s := formsSchema_of_kept spans part
    exact ⟨forms, fun bodies => formsKey_of_kept forms bodies (fun c hc => (part c hc).2) followed⟩

theorem formsKey (left : Nat) (s : Shape) (spans : V.Spans x s) (bodies : V.SpansKey x s) :
    x.FormsKey V left s := by
  induction left generalizing s with
  | zero =>
    refine (formsSchema_step (fun m s hm => ?_) spans).2 bodies
    cases hm
  | succ left ih =>
    refine (formsSchema_step (fun m s hm spans bodies => ?_) spans).2 bodies
    cases hm
    exact ih s spans bodies

/-- A shape renders to a schema with names from any vocabulary that has what the shape involves. -/
theorem formed_schemaExpr {s : Shape} (spans : V.Spans x s) {e : Schema}
    (h : x.schemaExpr left path s = .ok e) : Formed V e :=
  (formsSchema_step (fun m s _ => formsKey m s) spans).1 path e h

end Export

end ShapeExport
