import ShapeExport.Proofs.Script.Scanning
import ShapeExport.Proofs.Text.Pieces
import ShapeExport.Proofs.TypeScript.Lists

/-!
# What rendered types are made of

* `TypeExpr.Holds` : a type holds another one, at any depth;
* `Vocabulary` : the names and texts that a type may take over from a shape;
* `TypeExpr.Formed` : the types that the renderer builds, with names from a vocabulary;
* `TypeExpr.Formed.of_holds` : what a formed type holds is formed;
* `TypeExpr.Builds`, `Export.Supplies` : a predicate holds of all that the renderer builds, if it holds of
  what the shapes bring along;
* `Export.yields_strip` : then it holds of what a shape renders to;
* `Export.formed_typeExpr` : a shape renders to a formed type when the vocabulary covers it.
-/

namespace ShapeExport

/-! ## Types and vocabularies -/

namespace TypeScript

/-- The comment and the key of the member are written by the renderer. -/
def Member.IsWritten {τ : Type} (m : Member τ) : Prop :=
  (∃ style docs deprecation, m.comment = inlineComment style docs deprecation) ∧
    ∃ key, m.key = scriptKey key

/-- The names and the texts that come from outside. -/
structure Vocabulary where
  /-- A record, the name that it is written under, and the number of its arguments. -/
  names : TypeKey → String → Nat → Prop
  parameters : String → Prop
  /-- Hand-written types. -/
  texts : String → Prop

namespace TypeExpr

/-- The types directly inside a type. -/
def children : TypeExpr → List TypeExpr
  | named _ _ arguments => arguments
  | array inner | nullable inner | grouped inner => [inner]
  | tuple es | union es => es
  | mapped left right | intersection left right => [left, right]
  | object members => members.map (·.type)
  | builtin _ | constant _ | verbatim _ | parameter _ | emptyObject => []

/-- The first type holds the second one, or is the second. -/
inductive Holds : TypeExpr → TypeExpr → Prop
  | here (e : TypeExpr) : Holds e e
  | child {e c t : TypeExpr} : c ∈ e.children → Holds c t → Holds e t

/-- The types that the renderer builds with names from a vocabulary. -/
inductive Formed (V : Vocabulary) : TypeExpr → Prop
  | builtin {name : String} : name ∈ ["string", "number", "bigint", "boolean", "null", "never"] →
      Formed V (.builtin name)
  | string (s : String) : Formed V (stringConstant s)
  | constant {text : String} : (∀ c ∈ text.toList, IsNumberChar c) → Formed V (.constant text)
  | verbatim {text : String} : V.texts text → Formed V (.verbatim text)
  | parameter {name : String} : V.parameters name → Formed V (.parameter name)
  | named {target : TypeKey} {name : String} {arguments : List TypeExpr} :
      V.names target name arguments.length → (∀ a ∈ arguments, Formed V a) →
      Formed V (.named target name arguments)
  | array {e : TypeExpr} : Formed V e → Formed V (.array e.groupFor)
  | tuple {es : List TypeExpr} : (∀ e ∈ es, Formed V e) → Formed V (.tuple es)
  | mapped {key value : TypeExpr} : Formed V key → Formed V value → Formed V (.mapped key value)
  | nullable {e : TypeExpr} : Formed V e → Formed V (.nullable e)
  | emptyObject : Formed V .emptyObject
  | object {ms : List (Member TypeExpr)} : (∀ m ∈ ms, m.IsWritten) → (∀ m ∈ ms, Formed V m.type) →
      Formed V (.object ms)
  | union {es : List TypeExpr} : (∀ e ∈ es, Formed V e) → Formed V (.union es)
  | intersection {left right : TypeExpr} : Formed V left → Formed V right →
      Formed V (.intersection left right)
  | grouped {e : TypeExpr} : Formed V e → Formed V (.grouped e)

/-! ### What holds of all that is built -/

/-- The predicate holds of what the renderer builds by itself, and of what it builds from types that it
holds of. Names and maps come from the shape. -/
structure Builds (P : TypeExpr → Prop) : Prop where
  builtin {name : String} : name ∈ ["string", "number", "bigint", "boolean", "null", "never"] →
    P (.builtin name)
  string (s : String) : P (stringConstant s)
  constant {text : String} : (∀ c ∈ text.toList, IsNumberChar c) → P (.constant text)
  array {e : TypeExpr} : P e → P (.array e.groupFor)
  tuple {es : List TypeExpr} : (∀ e ∈ es, P e) → P (.tuple es)
  nullable {e : TypeExpr} : P e → P (.nullable e)
  emptyObject : P .emptyObject
  object {ms : List (Member TypeExpr)} : (∀ m ∈ ms, m.IsWritten) → (∀ m ∈ ms, P m.type) → P (.object ms)
  union {es : List TypeExpr} : (∀ e ∈ es, P e) → P (.union es)
  intersection {left right : TypeExpr} : P left → P right → P (.intersection left right)
  grouped {e : TypeExpr} : P e → P (.grouped e)

namespace Builds

variable {P : TypeExpr → Prop} (hP : Builds P) {e : TypeExpr}
include hP

theorem null : P null := hP.builtin (by decide)

theorem groupFor (h : P e) : P e.groupFor := by
  unfold TypeExpr.groupFor
  split
  · exact hP.grouped h
  · exact h

theorem arrayOf (h : P e) (length : Option Int) : P (e.arrayOf length) := by
  cases length with
  | none => exact hP.array h
  | some n =>
    refine hP.tuple fun t ht => ?_
    rw [List.eq_of_mem_replicate ht]
    exact hP.groupFor h

theorem nullableOf (h : P e) : P e.nullableOf := by
  unfold TypeExpr.nullableOf
  split
  · exact h
  · exact hP.nullable h

theorem unionOf {es : List TypeExpr} (h : ∀ e ∈ es, P e) : P (unionOf es) :=
  hP.union fun e he => h e (Text.mem_of_mem_distinctBy he)

end Builds

variable {V : Vocabulary} {e : TypeExpr}

theorem builds_formed (V : Vocabulary) : Builds (Formed V) where
  builtin := .builtin
  string := .string
  constant := .constant
  array := .array
  tuple := .tuple
  nullable := .nullable
  emptyObject := .emptyObject
  object := .object
  union := .union
  intersection := .intersection
  grouped := .grouped

theorem Formed.of_child (h : Formed V e) {c : TypeExpr} (hc : c ∈ e.children) : Formed V c := by
  cases h with
  | builtin | string | constant | verbatim | parameter | emptyObject => cases hc
  | named _ ha => exact ha c hc
  | tuple h | union h => exact h c hc
  | array h =>
    rw [List.mem_singleton.1 hc]
    exact (builds_formed V).groupFor h
  | nullable h | grouped h =>
    rw [List.mem_singleton.1 hc]
    exact h
  | mapped hl hr | intersection hl hr =>
    rcases List.mem_cons.1 hc with rfl | hc
    · exact hl
    · rw [List.mem_singleton.1 hc]
      exact hr
  | object _ hm =>
    obtain ⟨m, hm', rfl⟩ := List.mem_map.1 hc
    exact hm m hm'

theorem Formed.of_holds (h : Formed V e) {t : TypeExpr} (ht : e.Holds t) : Formed V t := by
  induction ht with
  | here => exact h
  | child hc _ ih => exact ih (h.of_child hc)

/-- A name in a formed type is one of the vocabulary. -/
theorem Formed.names (h : Formed V e) {target : TypeKey} {name : String} {arguments : List TypeExpr}
    (ht : e.Holds (.named target name arguments)) : V.names target name arguments.length := by
  cases h.of_holds ht with
  | named hn _ => exact hn

end TypeExpr

/-- The vocabulary has what the shape takes to a rendering by itself. -/
def Vocabulary.Admits (V : Vocabulary) (x : Export) : Shape → Prop
  | .reference id arguments =>
    ∀ r, x.types.resolve id.key = some r → V.names r.id.key (x.displayName r) arguments.length
  | .placeholder name => V.parameters name
  | .foreign (.verbatim text) => V.texts text
  | _ => True

/-- The vocabulary has what a rendering of the shape takes over. -/
def Vocabulary.Covers (V : Vocabulary) (x : Export) (s : Shape) : Prop := ∀ t, s.Holds t → V.Admits x t

theorem Vocabulary.covers_of_kept {V : Vocabulary} {x : Export} {s : Shape} (h : V.Admits x s)
    (hk : ∀ c ∈ s.kept, V.Covers x c) : V.Covers x s := by
  intro t ht
  cases ht with
  | here => exact h
  | child hc ht => exact hk _ hc t ht

theorem Vocabulary.Covers.of_kept {V : Vocabulary} {x : Export} {s c : Shape} (h : V.Covers x s)
    (hc : c ∈ s.kept) : V.Covers x c :=
  fun t ht => h t (.child hc ht)

end TypeScript

/-! ## Renderings -/

namespace Export
open TypeScript TypeScript.TypeExpr

variable {x : Export} {V : Vocabulary} {path : Path}

theorem resolve_of_target {id : TypeId} {r : Record} (h : x.target path id = .ok r) :
    x.types.resolve id.key = some r := by
  unfold Export.target Scope.target at h
  cases hr : x.types.resolve id.key with
  | none =>
    rw [show x.scope.types.resolve id.key = none from hr] at h
    cases h
  | some q =>
    rw [show x.scope.types.resolve id.key = some q from hr] at h
    cases h
    rfl

theorem typeExpr_reference_eq_ok {id : TypeId} {arguments : List Shape} {e : TypeExpr}
    (h : x.typeExpr path (.reference id arguments) = .ok e) : ∃ r es, x.types.resolve id.key = some r ∧
      x.argumentExprs path arguments = .ok es ∧ e = .named r.id.key (x.displayName r) es := by
  rw [typeExpr] at h
  obtain ⟨r, hr, h⟩ := bind_eq_ok.1 h
  obtain ⟨es, hes, h⟩ := map_eq_ok.1 h
  exact ⟨r, es, resolve_of_target hr, hes, h.symm⟩

variable {P : TypeExpr → Prop}

/-- Wherever the shape stands, the predicate holds of what it renders to. -/
def Yields (x : Export) (P : TypeExpr → Prop) (s : Shape) : Prop :=
  ∀ path e, x.typeExpr path s = .ok e → P e

/-- The predicate holds of what a shape brings to its rendering by itself: of its name, and of a map whose
parts it holds of. -/
def Supplies (x : Export) (P : TypeExpr → Prop) : Shape → Prop
  | .reference id arguments => ∀ r es, x.types.resolve id.key = some r → es.length = arguments.length →
    (∀ e ∈ es, P e) → P (.named r.id.key (x.displayName r) es)
  | .placeholder name => P (.parameter name)
  | .foreign (.verbatim text) => P (.verbatim text)
  | .map key value => ∀ path k v, x.typeExpr path key.stripNullable = .ok k →
    x.typeExpr path value = .ok v → P k → P v → P (.mapped k v)
  | _ => True

theorem yields_argumentExprs {ss : List Shape} (hs : ∀ c ∈ ss, x.Yields P c) {es : List TypeExpr}
    (h : x.argumentExprs path ss = .ok es) : es.length = ss.length ∧ ∀ e ∈ es, P e := by
  rw [argumentExprs_eq_mapM] at h
  refine ⟨length_of_mapM h, fun e he => ?_⟩
  obtain ⟨c, hc, rendered⟩ := exists_of_mem_results h he
  exact hs c hc path e rendered

theorem yields_elementExprs {ss : List Shape} (hs : ∀ c ∈ ss, x.Yields P c) {i : Nat} {es : List TypeExpr}
    (h : x.elementExprs path i ss = .ok es) : ∀ e ∈ es, P e := by
  intro e he
  rw [elementExprs_eq_mapM] at h
  obtain ⟨c, hc, rendered⟩ := exists_of_mem_results h he
  exact hs c.1 (List.fst_mem_of_mem_zipIdx hc) _ e rendered

theorem yields_positionalExprs {fs : List (Field (Option String) Shape)}
    (hs : ∀ f ∈ Field.kept fs, x.Yields P f.ty) {i : Nat} {es : List TypeExpr}
    (h : x.positionalExprs path i fs = .ok es) : ∀ e ∈ es, P e := by
  rw [positionalExprs_eq] at h
  exact yields_elementExprs (List.forall_mem_map.2 hs) h

theorem isWritten_tagMember (key value : String) : (tagMember key value).IsWritten :=
  ⟨⟨.none, [], none, rfl⟩, key, rfl⟩

/-- The members are written by the renderer, and the predicate holds of their types. -/
def AllMembers (P : TypeExpr → Prop) (ms : List (Member TypeExpr)) : Prop :=
  (∀ m ∈ ms, m.IsWritten) ∧ ∀ m ∈ ms, P m.type

theorem AllMembers.cons {m : Member TypeExpr} {ms : List (Member TypeExpr)} (hw : m.IsWritten)
    (hf : P m.type) (h : AllMembers P ms) : AllMembers P (m :: ms) :=
  ⟨List.forall_mem_cons.2 ⟨hw, h.1⟩, List.forall_mem_cons.2 ⟨hf, h.2⟩⟩

theorem allMembers_nil : AllMembers P [] := ⟨List.forall_mem_nil _, List.forall_mem_nil _⟩

theorem yields_memberExprs {fs : List (Field String Shape)} (hs : ∀ f ∈ Field.kept fs, x.Yields P f.ty)
    {ms : List (Member TypeExpr)} (h : x.memberExprs path fs = .ok ms) : AllMembers P ms := by
  rw [memberExprs_eq_mapM] at h
  have all : ∀ m ∈ ms, m.IsWritten ∧ P m.type := by
    intro m hm
    obtain ⟨f, hf, rendered⟩ := exists_of_mem_results h hm
    obtain ⟨type, ht, rfl⟩ := map_eq_ok.1 rendered
    exact ⟨⟨⟨_, _, _, rfl⟩, f.key, rfl⟩, hs f hf _ type ht⟩
  exact ⟨fun m hm => (all m hm).1, fun m hm => (all m hm).2⟩

section
variable (hP : Builds P)
include hP

theorem AllMembers.object {ms : List (Member TypeExpr)} (h : AllMembers P ms) : P (.object ms) :=
  hP.object h.1 h.2

theorem allMembers_tag (tag : Option String) (value : String) {ms : List (Member TypeExpr)}
    (h : AllMembers P ms) : AllMembers P ((tag.map fun t => tagMember t value).toList ++ ms) := by
  cases tag with
  | none => exact h
  | some t => exact h.cons (isWritten_tagMember t value) (hP.string value)

theorem yields_bodyExpr {b : Body Shape} (hs : ∀ c ∈ b.kept, x.Yields P c) {name : String} {e : TypeExpr}
    (h : x.bodyExpr path name b = .ok e) : P e := by
  cases b with
  | unit =>
    rw [bodyExpr] at h
    cases h
    exact hP.null
  | positional fields =>
    rw [Body.kept, List.forall_mem_map] at hs
    unfold bodyExpr at h
    split at h
    · next f =>
      split at h
      · cases h
        exact hP.tuple (List.forall_mem_nil _)
      · next hf =>
        rw [Field.kept_cons_of_not_skip hf, List.forall_mem_cons] at hs
        exact hs.1 path e h
    · obtain ⟨es, hes, h⟩ := bind_eq_ok.1 h
      cases h
      exact hP.tuple (yields_positionalExprs hs hes)
  | named tag fields =>
    rw [Body.kept, List.forall_mem_map] at hs
    rw [bodyExpr] at h
    obtain ⟨ms, hms, h⟩ := bind_eq_ok.1 h
    have members := allMembers_tag hP tag name (yields_memberExprs hs hms)
    split at h
    · cases h
      exact hP.emptyObject
    · cases h
      exact members.object hP

theorem yields_taggedPayload {tag : Member TypeExpr} (ht : P (.object [tag]))
    {fs : List (Field (Option String) Shape)} (hs : ∀ f ∈ Field.kept fs, x.Yields P f.ty) {e : TypeExpr}
    (h : x.taggedPayload tag path fs = .ok e) : P e := by
  have each := List.forall_mem_map.2 hs
  rw [taggedPayload_eq] at h
  split at h
  · cases h
    exact hP.grouped ht
  · next s rest payloads =>
    obtain ⟨type, hp, rfl⟩ := map_eq_ok.1 h
    rw [payloads] at each
    exact hP.grouped (hP.intersection ht (each s List.mem_cons_self path type hp))

theorem yields_variantExpr {r : Representation} {b : Body Shape} (hs : ∀ c ∈ b.kept, x.Yields P c)
    {key : String} {e : TypeExpr} (h : x.variantExpr r path key b = .ok e) : P e := by
  have tagged (tag : String) {ms : List (Member TypeExpr)} (hm : AllMembers P ms) :
      AllMembers P (tagMember tag key :: ms) := hm.cons (isWritten_tagMember tag key) (hP.string key)
  have written (k : String) (t : TypeExpr) : Member.IsWritten { key := scriptKey k, type := t } :=
    ⟨⟨.none, [], none, rfl⟩, k, rfl⟩
  cases r with
  | strings rule =>
    rw [variantExpr] at h
    cases h
    exact hP.string key
  | untagged =>
    rw [variantExpr] at h
    exact yields_bodyExpr hP hs h
  | external =>
    rw [variantExpr] at h
    split at h
    · cases h
      exact hP.string key
    · split at h
      · cases h
        split
        · exact hP.tuple (List.forall_mem_nil _)
        · exact hP.string key
      · obtain ⟨t, ht, h⟩ := bind_eq_ok.1 h
        cases h
        exact (allMembers_nil.cons (written key t) (yields_bodyExpr hP hs ht)).object hP
  | internal tag =>
    rw [variantExpr] at h
    obtain ⟨tag, -, h⟩ := bind_eq_ok.1 h
    cases b with
    | unit =>
      cases h
      exact hP.grouped ((tagged tag allMembers_nil).object hP)
    | positional fields =>
      rw [Body.kept, List.forall_mem_map] at hs
      exact yields_taggedPayload hP ((tagged tag allMembers_nil).object hP) hs h
    | named inner fields =>
      rw [Body.kept, List.forall_mem_map] at hs
      obtain ⟨ms, hms, h⟩ := bind_eq_ok.1 h
      cases h
      exact hP.grouped ((tagged tag (allMembers_tag hP inner key (yields_memberExprs hs hms))).object hP)
  | adjacent tag content =>
    rw [variantExpr] at h
    obtain ⟨tag, -, h⟩ := bind_eq_ok.1 h
    split at h
    · cases h
      exact (tagged tag allMembers_nil).object hP
    · obtain ⟨t, ht, h⟩ := bind_eq_ok.1 h
      obtain ⟨content, -, h⟩ := bind_eq_ok.1 h
      cases h
      exact (tagged tag (allMembers_nil.cons (written content t) (yields_bodyExpr hP hs ht))).object hP

theorem yields_variantExprs {r : Representation} {vs : List (Variant Shape)}
    (hs : ∀ v ∈ Variant.kept vs, ∀ c ∈ v.body.kept, x.Yields P c) {es : List TypeExpr}
    (h : x.variantExprs r path vs = .ok es) : ∀ e ∈ es, P e := by
  rw [variantExprs_eq_mapM] at h
  intro e he
  obtain ⟨v, hv, rendered⟩ := exists_of_mem_results h he
  exact yields_variantExpr hP (hs v hv) rendered

theorem yields_primitive (kind : Primitive) : x.Yields P (.primitive kind) := by
  intro path e h
  rw [typeExpr] at h
  unfold primitiveExpr at h
  split at h
  · obtain ⟨policy, -, h⟩ := bind_eq_ok.1 h
    cases policy <;> cases h <;> exact hP.builtin (by decide)
  · split at h
    · cases h
      exact hP.builtin (by decide)
    · split at h <;> cases h <;> exact hP.builtin (by decide)

theorem builds_literal (l : Literal) : P l.typeExpr := by
  have number (n : Number) : P (.constant (n.text .message)) := hP.constant n.text_chars
  have letters {s : String} (h : s.toList.all Char.isAlphanum) : P (.constant s) :=
    hP.constant fun c hc => Or.inl (List.all_eq_true.1 h c hc)
  cases l with
  | none => exact hP.null
  | bool b => cases b <;> exact letters (by decide)
  | integer width value _ => exact number (.integer value)
  | float width value => exact number value
  | string s => exact hP.string s
  | char c => exact hP.string _

/-- The predicate holds of what a shape renders to if the parts do their share. The key of a map is taken
without its nullables. -/
theorem yields_of_kept {s : Shape} (self : x.Supplies P s)
    (part : ∀ c ∈ s.kept, x.Yields P c ∧ x.Yields P c.stripNullable) : x.Yields P s := by
  intro path e h
  cases s with
  | primitive kind => exact yields_primitive hP kind path e h
  | literal value =>
    rw [typeExpr] at h
    cases h
    exact builds_literal hP value
  | placeholder name =>
    rw [typeExpr] at h
    cases h
    exact self
  | foreign value =>
    cases value with
    | verbatim text =>
      rw [typeExpr] at h
      cases h
      exact self
    | named kind =>
      rw [typeExpr] at h
      cases h
  | list element length unique =>
    rw [typeExpr] at h
    obtain ⟨t, ht, h⟩ := bind_eq_ok.1 h
    cases h
    exact hP.arrayOf ((part _ (List.mem_singleton_self _)).1 path t ht) length
  | nullable inner =>
    rw [typeExpr] at h
    obtain ⟨t, ht, h⟩ := bind_eq_ok.1 h
    cases h
    exact hP.nullableOf ((part _ (List.mem_singleton_self _)).1 path t ht)
  | map key value =>
    rw [typeExpr] at h
    obtain ⟨k, hk, h⟩ := bind_eq_ok.1 h
    obtain ⟨v, hv, h⟩ := bind_eq_ok.1 h
    cases h
    have keyYields := (part key List.mem_cons_self).2
    have valueYields := (part value (List.mem_cons_of_mem _ List.mem_cons_self)).1
    exact self path k v hk hv (keyYields path k hk) (valueYields path v hv)
  | tuple elements =>
    cases elements with
    | nil =>
      rw [typeExpr] at h
      cases h
      exact hP.null
    | cons t ts =>
      rw [typeExpr] at h
      · obtain ⟨es, hes, h⟩ := bind_eq_ok.1 h
        cases h
        exact hP.tuple (yields_elementExprs (fun c hc => (part c hc).1) hes)
      · intro ht
        cases ht
  | struct name body =>
    rw [typeExpr] at h
    exact yields_bodyExpr hP (fun c hc => (part c hc).1) h
  | enum name vs tagging =>
    rw [typeExpr] at h
    split at h
    · cases h
      exact hP.builtin (by decide)
    · obtain ⟨r, -, h⟩ := bind_eq_ok.1 h
      obtain ⟨es, hes, h⟩ := bind_eq_ok.1 h
      cases h
      refine hP.unionOf (yields_variantExprs hP (fun v hv c hc => (part c ?_).1) hes)
      exact List.mem_flatMap.2 ⟨v, hv, hc⟩
  | reference id arguments =>
    obtain ⟨r, es, hr, hes, rfl⟩ := typeExpr_reference_eq_ok h
    obtain ⟨hl, hf⟩ := yields_argumentExprs (fun c hc => (part c hc).1) hes
    exact self r es hr hl hf

/-- Keys are taken without their nullables, so the walk passes over these. -/
theorem yields_strip {s : Shape} (supplies : ∀ t, s.Holds t → x.Supplies P t) :
    x.Yields P s ∧ x.Yields P s.stripNullable := by
  induction s using Shape.childInduction with
  | step s ih =>
    have part : ∀ c ∈ s.kept, x.Yields P c ∧ x.Yields P c.stripNullable := fun c hc =>
      ih c (Shape.mem_children_of_mem_kept hc) fun t ht => supplies t (.child hc ht)
    have yields : x.Yields P s := yields_of_kept hP (supplies s (.here s)) part
    refine ⟨yields, ?_⟩
    cases s with
    | nullable inner => exact (part _ (List.mem_singleton_self _)).2
    | _ => exact yields

end

theorem supplies_of_admits {s : Shape} (h : V.Admits x s) : x.Supplies (Formed V) s := by
  cases s with
  | reference id arguments =>
    intro r es hr hl hs
    exact .named (hl ▸ h r hr) hs
  | placeholder name => exact .parameter h
  | foreign value =>
    cases value with
    | verbatim text => exact .verbatim h
    | named kind => trivial
  | map key value => exact fun _ _ _ _ _ hk hv => .mapped hk hv
  | _ => trivial

/-- A shape renders to a type with names from any vocabulary that covers it. -/
theorem formed_typeExpr {s : Shape} (covers : V.Covers x s) {e : TypeExpr}
    (h : x.typeExpr path s = .ok e) : Formed V e :=
  (yields_strip (builds_formed V) fun t ht => supplies_of_admits (covers t ht)).1 path e h

end Export

end ShapeExport
