import ShapeExport.JsonSchema.Render

/-!
# The references in a schema

* `Schema.links` : the target and the address of each `$ref` in a schema, in order;
* `Schema.LinksIn` : all of them satisfy a condition. It is stated for each way to build a schema that
  the renderer uses.
-/

namespace ShapeExport.JsonSchema

/-- A reference to a record, and its address. -/
abbrev Link := TypeKey × String

namespace Schema

mutual

/-- All references in a schema. -/
def links : Schema → List Link
  | ofKeywords ks => linksOfKeywords ks

def linksOfKeywords : List (Keyword Schema) → List Link
  | [] => []
  | k :: ks => linksOfKeyword k ++ linksOfKeywords ks

def linksOfKeyword : Keyword Schema → List Link
  | .reference target uri => [(target, uri)]
  | .items s | .values s | .propertyNames s | .not s => s.links
  | .leadingItems _ ss | .anyOf ss | .allOf ss => linksOfAll ss
  | .properties ms => linksOfMembers ms
  | _ => []

def linksOfAll : List Schema → List Link
  | [] => []
  | s :: ss => s.links ++ linksOfAll ss

def linksOfMembers : List (String × Schema) → List Link
  | [] => []
  | m :: ms => linksOfMember m ++ linksOfMembers ms

def linksOfMember : String × Schema → List Link
  | (_, s) => s.links

end

/-- All references in a schema satisfy a condition. -/
def LinksIn (L : Link → Prop) (s : Schema) : Prop := ∀ l ∈ s.links, L l

/-- All references in a keyword satisfy a condition. -/
def KeywordLinksIn (L : Link → Prop) (k : Keyword Schema) : Prop := ∀ l ∈ linksOfKeyword k, L l

variable {L : Link → Prop}

theorem linksIn_iff {s : Schema} : s.LinksIn L ↔ ∀ k ∈ s.keywords, KeywordLinksIn L k := by
  obtain ⟨ks⟩ := s
  unfold LinksIn links keywords
  induction ks with
  | nil => simp [linksOfKeywords]
  | cons k ks ih =>
    rw [linksOfKeywords, List.forall_mem_append, ih, List.forall_mem_cons]
    rfl

theorem linksIn_ofKeywords {ks : List (Keyword Schema)} :
    (ofKeywords ks).LinksIn L ↔ ∀ k ∈ ks, KeywordLinksIn L k := linksIn_iff

theorem linksIn_single {k : Keyword Schema} (h : KeywordLinksIn L k) : (ofKeywords [k]).LinksIn L :=
  linksIn_ofKeywords.2 (List.forall_mem_singleton.2 h)

theorem linksOfAll_in {ss : List Schema} : (∀ l ∈ linksOfAll ss, L l) ↔ ∀ s ∈ ss, s.LinksIn L := by
  induction ss with
  | nil => simp [linksOfAll]
  | cons s ss ih =>
    rw [linksOfAll, List.forall_mem_append, ih, List.forall_mem_cons]
    rfl

theorem linksOfMembers_in {ms : List (String × Schema)} :
    (∀ l ∈ linksOfMembers ms, L l) ↔ ∀ m ∈ ms, m.2.LinksIn L := by
  induction ms with
  | nil => simp [linksOfMembers]
  | cons m ms ih =>
    rw [linksOfMembers, linksOfMember.eq_def, List.forall_mem_append, ih, List.forall_mem_cons]
    rfl

/-! ## Keywords -/

@[simp] theorem linksIn_items {s : Schema} : KeywordLinksIn L (.items s) ↔ s.LinksIn L := Iff.rfl

@[simp] theorem linksIn_values {s : Schema} : KeywordLinksIn L (.values s) ↔ s.LinksIn L := Iff.rfl

@[simp] theorem linksIn_propertyNames {s : Schema} :
    KeywordLinksIn L (.propertyNames s) ↔ s.LinksIn L := Iff.rfl

@[simp] theorem linksIn_not {s : Schema} : KeywordLinksIn L (.not s) ↔ s.LinksIn L := Iff.rfl

@[simp] theorem linksIn_leadingItems {version : SchemaVersion} {ss : List Schema} :
    KeywordLinksIn L (.leadingItems version ss) ↔ ∀ s ∈ ss, s.LinksIn L := linksOfAll_in

@[simp] theorem linksIn_anyOf {ss : List Schema} :
    KeywordLinksIn L (.anyOf ss) ↔ ∀ s ∈ ss, s.LinksIn L := linksOfAll_in

@[simp] theorem linksIn_allOf {ss : List Schema} :
    KeywordLinksIn L (.allOf ss) ↔ ∀ s ∈ ss, s.LinksIn L := linksOfAll_in

@[simp] theorem linksIn_properties {ms : List (String × Schema)} :
    KeywordLinksIn L (.properties ms) ↔ ∀ m ∈ ms, m.2.LinksIn L := linksOfMembers_in

@[simp] theorem linksIn_reference {target : TypeKey} {uri : String} :
    KeywordLinksIn L (.reference target uri) ↔ L (target, uri) := List.forall_mem_singleton

/-- A keyword without schemas in it. -/
def isPlain : Keyword Schema → Bool
  | .reference .. | .items _ | .values _ | .propertyNames _ | .not _ | .leadingItems .. | .anyOf _
  | .allOf _ | .properties _ => false
  | _ => true

theorem linksIn_of_isPlain {k : Keyword Schema} (h : isPlain k) : KeywordLinksIn L k := by
  cases k <;> simp_all [isPlain, KeywordLinksIn, linksOfKeyword]

/-! ## Schemas -/

theorem linksIn_ofType {name : TypeName} {more : List (Keyword Schema)}
    (h : ∀ k ∈ more, KeywordLinksIn L k) : (ofType name more).LinksIn L :=
  linksIn_ofKeywords.2 (List.forall_mem_cons.2 ⟨linksIn_of_isPlain rfl, h⟩)

theorem linksIn_ofType_plain {name : TypeName} {more : List (Keyword Schema)}
    (h : more.all isPlain) : (ofType name more).LinksIn L :=
  linksIn_ofType fun k hk => linksIn_of_isPlain (List.all_eq_true.1 h k hk)

/-- A first keyword with schemas in it, and plain ones behind it. -/
theorem linksIn_ofType_cons {name : TypeName} {k : Keyword Schema} {more : List (Keyword Schema)}
    (hk : KeywordLinksIn L k) (h : more.all isPlain) : (ofType name (k :: more)).LinksIn L :=
  linksIn_ofType (List.forall_mem_cons.2
    ⟨hk, fun k hk => linksIn_of_isPlain (List.all_eq_true.1 h k hk)⟩)

theorem linksIn_null : null.LinksIn L := linksIn_ofType_plain rfl

theorem linksIn_const (s : String) : (const s).LinksIn L := linksIn_single (linksIn_of_isPlain rfl)

theorem linksIn_fixedItems {version : SchemaVersion} {ss : List Schema}
    (h : ∀ s ∈ ss, s.LinksIn L) : (fixedItems version ss).LinksIn L :=
  linksIn_ofType_cons (linksIn_leadingItems.2 h) rfl

theorem linksIn_object {properties : OrderedMap Schema} {required : List Json}
    (h : ∀ m ∈ properties, m.2.LinksIn L) : (object properties required).LinksIn L :=
  linksIn_ofType_cons (linksIn_properties.2 h) rfl

theorem linksIn_closedObject {properties : OrderedMap Schema} {required : List Json}
    (h : ∀ m ∈ properties, m.2.LinksIn L) : (closedObject properties required).LinksIn L :=
  linksIn_ofType_cons (linksIn_properties.2 h) rfl

theorem linksIn_set {isSame : Keyword Schema → Bool} {k : Keyword Schema} {s : Schema}
    (hk : KeywordLinksIn L k) (h : s.LinksIn L) : (s.set isSame k).LinksIn L := by
  rw [linksIn_iff] at h
  unfold set
  split
  · refine linksIn_ofKeywords.2 (List.forall_mem_map.2 fun l hl => ?_)
    split
    · exact hk
    · exact h l hl
  · exact linksIn_ofKeywords.2 (List.forall_mem_append.2 ⟨h, List.forall_mem_singleton.2 hk⟩)

theorem LinksIn.annotate {s : Schema} {lines : List String} {isDeprecated : Bool} (h : s.LinksIn L) :
    (s.annotate lines isDeprecated).LinksIn L := by
  have described : ∀ text, (s.set Keyword.isDescription (.description text)).LinksIn L :=
    fun text => linksIn_set (linksIn_of_isPlain rfl) h
  have deprecated : ∀ s : Schema, s.LinksIn L → (s.set Keyword.isDeprecated .deprecated).LinksIn L :=
    fun s hs => linksIn_set (linksIn_of_isPlain rfl) hs
  unfold Schema.annotate
  dsimp only
  split
  · split
    · exact deprecated _ h
    · exact deprecated _ (described _)
  · split
    · exact h
    · exact described _

theorem mem_of_mem_distinctFrom {done ss : List Schema} {s : Schema} (h : s ∈ distinctFrom done ss) :
    s ∈ done ∨ s ∈ ss := by
  induction ss generalizing done with
  | nil => exact Or.inl h
  | cons t ss ih =>
    rw [distinctFrom] at h
    split at h
    · exact (ih h).imp_right (List.mem_cons_of_mem _)
    · rcases ih h with h | h
      · rcases List.mem_append.1 h with h | h
        · exact Or.inl h
        · exact Or.inr (List.mem_singleton.1 h ▸ List.mem_cons_self)
      · exact Or.inr (List.mem_cons_of_mem _ h)

/-- A union is one of its schemas, or it is made of some of them. -/
theorem anyOf_cases (ss : List Schema) :
    anyOf ss ∈ ss ∨ ∃ ts, (∀ t ∈ ts, t ∈ ss) ∧ anyOf ss = .ofKeywords [.anyOf ts] := by
  have some : ∀ t ∈ distinctFrom [] ss, t ∈ ss := fun t ht =>
    (mem_of_mem_distinctFrom ht).resolve_left List.not_mem_nil
  unfold anyOf
  split
  · next s e =>
    rw [e] at some
    exact Or.inl (some s List.mem_cons_self)
  · exact Or.inr ⟨_, some, rfl⟩

theorem linksIn_union {ss : List Schema} (h : ∀ s ∈ ss, s.LinksIn L) : (anyOf ss).LinksIn L := by
  rcases anyOf_cases ss with hs | ⟨ts, hts, e⟩
  · exact h _ hs
  · rw [e]
    exact linksIn_single (linksIn_anyOf.2 fun t ht => h t (hts t ht))

end Schema

/-! ## Objects -/

namespace Context
open Schema

variable {L : Link → Prop}

theorem linksIn_objectSchema {o : OrderedMap Schema × List String}
    (h : ∀ p ∈ o.1, p.2.LinksIn L) : (objectSchema o).LinksIn L := by
  unfold objectSchema
  split
  · exact linksIn_ofType_plain rfl
  · exact linksIn_ofType_cons (linksIn_properties.2 h) rfl
  · exact linksIn_object h

end Context

end ShapeExport.JsonSchema
