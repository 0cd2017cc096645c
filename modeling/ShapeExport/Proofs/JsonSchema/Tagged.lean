import Mathlib
import ShapeExport.Proofs.JsonSchema.Formed

/-!
# Payloads beside an internal tag

The schema of a payload that is tagged internally is a pair: an object with the tag, and the payload's own schema. So
that schema has to accept the tag among the payload's members.

* `Schema.without`, `Schema.optional` : a schema that does not require one member, or any;
* `Reading.satisfies_append` : a leaf looks at a further member alone;
* `Reading.Alternative` : the leaves that an object may satisfy together, one choice for each union;
* `Reading.satisfies_iff_alternative` : what satisfies a formed schema satisfies an alternative of it;
* `Reading.Takes` : a leaf accepts the tag as a member;
* `Reading.takes_objectSchema` : when the object of a record does;
* `Context.satisfies_tagged_iff` : when an object with the tag satisfies the schema of the variant.
-/

namespace ShapeExport.JsonSchema

/-! ## Requirements -/

/-- Requires some of the members only. -/
def Keyword.requiring (keep : Json → Bool) : Keyword Schema → Keyword Schema
  | .required keys => .required (keys.filter keep)
  | k => k

namespace Schema

/-- A schema that requires some of its members only. -/
def requiring (keep : Json → Bool) (s : Schema) : Schema := .ofKeywords (s.keywords.map (·.requiring keep))

/-- The schema, but this member may be absent. -/
def without (key : String) : Schema → Schema := requiring fun j => j.string? != some key

/-- The schema, but all members may be absent. -/
def optional : Schema → Schema := requiring fun _ => false

theorem core_requiring (keep : Json → Bool) (s : Schema) :
    (s.requiring keep).core = s.core.map (·.requiring keep) := by
  have same : ∀ k : Keyword Schema, (k.requiring keep).isNote = k.isNote := by
    intro k
    cases k <;> rfl
  show (s.keywords.map (·.requiring keep)).filter (!·.isNote) = (s.keywords.filter (!·.isNote)).map (·.requiring keep)
  rw [List.filter_map]
  congr 2
  funext k
  exact congrArg _ (same k)

end Schema

variable {R : Reading} {s : Schema} {v : Json} {n : Nat} {os : List (String × Json)} {p : String × Json}
  {keep : Json → Bool}

theorem lists_requiring {ks : List (Keyword Schema)} {key : String} :
    Lists (ks.map (·.requiring keep)) key ↔ Lists ks key := by
  unfold Lists
  refine exists_congr fun members => and_congr_left fun _ => ?_
  rw [List.mem_map]
  constructor
  · rintro ⟨k, hk, e⟩
    cases k <;> cases e
    exact hk
  · intro h
    exact ⟨_, h, rfl⟩

theorem leads_requiring {ks : List (Keyword Schema)} {i : Nat} :
    Leads (ks.map (·.requiring keep)) i ↔ Leads ks i := by
  unfold Leads
  refine exists_congr fun version => exists_congr fun items => and_congr_left fun _ => ?_
  rw [List.mem_map]
  constructor
  · rintro ⟨k, hk, e⟩
    cases k <;> cases e
    exact hk
  · intro h
    exact ⟨_, h, rfl⟩

namespace Reading

theorem satisfies_requiring : R.Satisfies (s.requiring keep) v ↔
    ∀ k ∈ s.core, R.Asks s.core R.Satisfies R.Allows v (k.requiring keep) := by
  rw [satisfies_iff, Schema.core_requiring, List.forall_mem_map]
  refine forall₂_congr fun k _ => ?_
  exact Asks.congr_siblings (fun _ => lists_requiring) fun _ => leads_requiring

/-- A schema that requires less asks less. -/
theorem Satisfies.requiring (h : R.Satisfies s v) (keep : Json → Bool) : R.Satisfies (s.requiring keep) v := by
  refine satisfies_requiring.2 fun k hk => ?_
  have asked := satisfies_iff.1 h k hk
  cases k with
  | required keys => exact fun os hv key hkey => asked os hv key (List.mem_filter.1 hkey).1
  | _ => exact asked

/-! ## A further member -/

theorem asks_append {ks : List (Keyword Schema)} {yes no : Schema → Json → Prop} {k : Keyword Schema}
    (splits : k.splits) : R.Asks ks yes no (.object (os ++ [p])) k ↔
      R.Asks ks yes no (.object os) (k.requiring fun j => j.string? != some p.1) ∧
        R.Asks ks yes no (.object [p]) (k.requiring fun _ => false) := by
  cases k with
  | type name =>
    cases name with
    | object => exact iff_of_true asks_type_object ⟨asks_type_object, asks_type_object⟩
    | _ => cases splits
  | properties members =>
    simp only [Keyword.requiring, asks_properties, List.forall_mem_append, imp_and, forall_and]
  | closed => simp only [Keyword.requiring, asks_closed, List.forall_mem_append]
  | values value => simp only [Keyword.requiring, asks_values, List.forall_mem_append]
  | propertyNames names => simp only [Keyword.requiring, asks_propertyNames, List.forall_mem_append]
  | required keys =>
    -- The further member meets the requirement of its own key and no other.
    simp only [Keyword.requiring, asks_required]
    constructor
    · intro h
      refine ⟨fun key hkey => ?_, fun key hkey => absurd (List.mem_filter.1 hkey).2 Bool.false_ne_true⟩
      obtain ⟨hk, other⟩ := List.mem_filter.1 hkey
      obtain ⟨o, ho, rfl⟩ := h key hk
      rcases List.mem_append.1 ho with ho | ho
      · exact ⟨o, ho, rfl⟩
      · rw [List.mem_singleton.1 ho] at other
        exact absurd rfl (bne_iff_ne.1 other)
    · rintro ⟨h, -⟩ key hk
      by_cases same : key = .string p.1
      · exact ⟨p, List.mem_append_right _ List.mem_cons_self, same⟩
      · have other : key.string? ≠ some p.1 := by
          intro e
          cases key <;> cases e
          exact same rfl
        obtain ⟨o, ho, e⟩ := h key (List.mem_filter.2 ⟨hk, bne_iff_ne.2 other⟩)
        exact ⟨o, List.mem_append_left _ ho, e⟩
  | _ => cases splits

theorem allows_anything : R.Allows (.ofKeywords []) v := by
  intro n
  cases n with
  | zero => rfl
  | succ n => exact List.forall_mem_nil _

theorem not_asks_of_refusesObjects {ks : List (Keyword Schema)} {k : Keyword Schema} (h : k.refusesObjects) :
    ¬ R.Asks ks R.Satisfies R.Allows (.object os) k := by
  intro asked
  cases k with
  | type name =>
    have other : name ≠ .object := of_decide_eq_true h
    cases name with
    | object => exact other rfl
    | integer =>
      obtain ⟨_, _, e, -⟩ := asked
      cases e
    | null => cases asked
    | boolean | number | string | array =>
      obtain ⟨_, e⟩ := asked
      cases e
  | const value =>
    cases value with
    | number =>
      obtain ⟨_, e, -⟩ := asked
      cases e
    | null | bool | string => cases asked
    | array | object => cases h
  | not schema =>
    obtain ⟨keywords⟩ := schema
    obtain rfl : keywords = [] := List.isEmpty_iff.1 h
    exact asked allows_anything
  | _ => cases h

theorem not_satisfies_of_refusesObjects (h : s.core.any (·.refusesObjects)) (keep : Json → Bool) :
    ¬ R.Satisfies (s.requiring keep) (.object os) := by
  obtain ⟨k, hk, refuses⟩ := List.any_eq_true.1 h
  have same : k.requiring keep = k := by
    cases k with
    | required => cases refuses
    | _ => rfl
  intro satisfied
  have asked := satisfies_requiring.1 satisfied k hk
  rw [same] at asked
  exact not_asks_of_refusesObjects refuses asked

/-- A leaf looks at a further member alone. -/
theorem satisfies_append (leaf : s.IsLeaf) : R.Satisfies s (.object (os ++ [p])) ↔
    R.Satisfies (s.without p.1) (.object os) ∧ R.Satisfies s.optional (.object [p]) := by
  rcases leaf with refuses | splits
  · constructor
    · intro h
      exact absurd (h.requiring _) (not_satisfies_of_refusesObjects refuses fun _ => true)
    · intro h
      exact absurd h.1 (not_satisfies_of_refusesObjects refuses _)
  · rw [Schema.without, Schema.optional, satisfies_iff, satisfies_requiring, satisfies_requiring, ← forall₂_and]
    exact forall₂_congr fun k hk => asks_append (List.all_eq_true.1 splits k hk)

/-! ## Alternatives -/

/-- Leaves that a value may satisfy together to satisfy a schema. -/
inductive Alternative (R : Reading) : Schema → List Schema → Prop
  | leaf {s : Schema} : s.IsLeaf → Alternative R s [s]
  | member {s t : Schema} {ss leaves : List Schema} : s.core = [.anyOf ss] → t ∈ ss → Alternative R t leaves →
      Alternative R s leaves
  | both {s t u : Schema} {leaves more : List Schema} : s.core = [.allOf [t, u]] → Alternative R t leaves →
      Alternative R u more → Alternative R s (leaves ++ more)
  | reference {s d : Schema} {target : TypeKey} {uri : String} {leaves : List Schema} :
      s.core = [.reference target uri] → R.definition? target = some d → Alternative R d leaves →
      Alternative R s leaves

theorem Alternative.isLeaf {leaves : List Schema} (h : R.Alternative s leaves) : ∀ l ∈ leaves, l.IsLeaf := by
  induction h with
  | leaf h => exact List.forall_mem_singleton.2 h
  | member _ _ _ ih => exact ih
  | both _ _ _ first second => exact List.forall_mem_append.2 ⟨first, second⟩
  | reference _ _ _ ih => exact ih

theorem Alternative.satisfies {leaves : List Schema} (h : R.Alternative s leaves)
    (all : ∀ l ∈ leaves, R.Satisfies l v) : R.Satisfies s v := by
  induction h with
  | leaf => exact all _ List.mem_cons_self
  | member core ht _ ih => exact (satisfies_single core).2 ⟨_, ht, ih all⟩
  | both core _ _ first second =>
    rw [List.forall_mem_append] at all
    refine (satisfies_single core).2 ?_
    exact List.forall_mem_cons.2 ⟨first all.1, List.forall_mem_singleton.2 (second all.2)⟩
  | reference core hd _ ih => exact (satisfies_single core).2 ⟨_, hd, ih all⟩

/-- References may lead back to where they came from, so the induction is on the number of steps. -/
theorem exists_alternative (definitions : ∀ key d, R.definition? key = some d → d.Formed) (formed : s.Formed)
    (h : R.judge false n s v) : ∃ leaves, R.Alternative s leaves ∧ ∀ l ∈ leaves, R.Satisfies l v := by
  induction n generalizing s with
  | zero => cases h
  | succ n ih =>
    cases formed with
    | leaf leaf => exact ⟨[s], .leaf leaf, List.forall_mem_singleton.2 ⟨n + 1, h⟩⟩
    | anyOf core all =>
      obtain ⟨t, ht, told⟩ := (judge_single core).1 h
      obtain ⟨leaves, ha, hl⟩ := ih (all t ht) told
      exact ⟨leaves, .member core ht ha, hl⟩
    | allOf core first second =>
      have told := (judge_single core).1 h
      obtain ⟨leaves, ha, hl⟩ := ih first (told _ List.mem_cons_self)
      obtain ⟨more, hb, hm⟩ := ih second (told _ (List.mem_cons_of_mem _ List.mem_cons_self))
      exact ⟨leaves ++ more, .both core ha hb, List.forall_mem_append.2 ⟨hl, hm⟩⟩
    | reference core =>
      obtain ⟨d, hd, told⟩ := (judge_single core).1 h
      obtain ⟨leaves, ha, hl⟩ := ih (definitions _ d hd) told
      exact ⟨leaves, .reference core hd ha, hl⟩

/-- What satisfies a formed schema satisfies an alternative of it. -/
theorem satisfies_iff_alternative (definitions : ∀ key d, R.definition? key = some d → d.Formed) (formed : s.Formed) :
    R.Satisfies s v ↔ ∃ leaves, R.Alternative s leaves ∧ ∀ l ∈ leaves, R.Satisfies l v := by
  constructor
  · rintro ⟨n, h⟩
    exact exists_alternative definitions formed h
  · rintro ⟨leaves, ha, all⟩
    exact ha.satisfies all

/-! ## The tag as a member -/

/-- The leaf accepts the tag as a member. -/
def Takes (R : Reading) (label text : String) (leaf : Schema) : Prop :=
  R.Satisfies leaf.optional (.object [(label, .string text)])

theorem takes_iff {label text : String} {leaf : Schema} {l : List (Keyword Schema)} (core : leaf.core = l) :
    R.Takes label text leaf ↔ ∀ k ∈ l, R.Asks l R.Satisfies R.Allows (.object [(label, .string text)])
      (k.requiring fun _ => false) := by
  subst core
  exact satisfies_requiring

/-- The object of a struct takes the tag, unless there are no fields, or one is named as the tag and refuses it. -/
theorem takes_objectSchema {label text : String} {members : OrderedMap Schema × List String} :
    R.Takes label text (Context.objectSchema members) ↔
      members.1 ≠ [] ∧ ∀ m ∈ members.1, label = m.1 → R.Satisfies m.2 (.string text) := by
  unfold Context.objectSchema
  split
  · rw [takes_iff (l := [.type .object, .closed]) rfl]
    simp [Keyword.requiring, Lists]
  · next properties some =>
    rw [takes_iff (l := [.type .object, .properties properties]) rfl]
    simp_all [Keyword.requiring]
  · next properties required some _ =>
    rw [takes_iff (l := [.type .object, .properties properties, .required (required.map .string)]) rfl]
    simp_all [Keyword.requiring]

/-- The object that has the tag, and anything else. -/
theorem satisfies_tag {label text : String} {tag : Json} (read : labelKey tag = .ok label)
    (fresh : label ∉ OrderedMap.keys os) : R.Satisfies (.object [(label, .const text)] [tag])
      (.object (os ++ [(label, .string text)])) ↔ tag = .string label := by
  rw [satisfies_iff]
  constructor
  · intro h
    have required := h (.required [tag]) (List.mem_cons_of_mem _ (List.mem_cons_of_mem _ List.mem_cons_self))
    obtain ⟨o, -, rfl⟩ := required _ rfl tag List.mem_cons_self
    cases read
    rfl
  · rintro rfl k hk
    rcases List.mem_cons.1 hk with rfl | hk
    · exact ⟨_, rfl⟩
    · rcases List.mem_pair.1 hk with rfl | rfl
      · rintro _ ⟨⟩ m hm o ho e
        obtain rfl := List.mem_singleton.1 hm
        rcases List.mem_append.1 ho with ho | ho
        · exact absurd (List.mem_map.2 ⟨o, ho, e⟩) fresh
        · rw [List.mem_singleton.1 ho]
          exact satisfies_const.2 rfl
      · rintro _ ⟨⟩ key hkey
        exact ⟨_, List.mem_append_right _ List.mem_cons_self, List.mem_singleton.1 hkey⟩

/-- A payload with the tag set satisfies the pair of tag and payload if all leaves of an alternative take the tag. -/
theorem satisfies_pair (text : String) {label : String} {tag : Json} {payload : Schema}
    (definitions : ∀ key d, R.definition? key = some d → d.Formed) (formed : payload.Formed)
    (read : labelKey tag = .ok label) (fresh : label ∉ OrderedMap.keys os) :
    R.Satisfies (.ofKeywords [.allOf [.object [(label, .const text)] [tag], payload]])
        (.object (os ++ [(label, .string text)])) ↔
      tag = .string label ∧ ∃ leaves, R.Alternative payload leaves ∧
        ∀ l ∈ leaves, R.Satisfies (l.without label) (.object os) ∧ R.Takes label text l := by
  rw [satisfies_single rfl, Asks, List.forall_mem_cons, List.forall_mem_singleton, satisfies_tag read fresh,
    satisfies_iff_alternative definitions formed]
  refine and_congr_right fun _ => exists_congr fun leaves => and_congr_right fun ha => ?_
  exact forall₂_congr fun l hl => satisfies_append (ha.isLeaf l hl)

end Reading

/-! ## Variants -/

namespace Context
open Schema

variable {c : Context} {stack : List TypeKey} {path : Path}

/-- Where the definition of a record stands: in the document, or in a file of its own. -/
def home (c : Context) (r : Record) : Context :=
  match c.linking with
  | .document => c
  | .file _ => { c with linking := .file r }

/-- References lead to the definitions of records. -/
def reading (c : Context) (other : Keyword Schema → Json → Prop) : Reading where
  definition? key := (c.types.resolve key).bind fun r => ((c.home r).definition r).toOption
  other := other

theorem formed_definition? (c : Context) (other : Keyword Schema → Json → Prop) (key : TypeKey) (d : Schema)
    (h : (c.reading other).definition? key = some d) : d.Formed := by
  obtain ⟨r, -, hd⟩ := Option.bind_eq_some_iff.1 h
  cases hr : (c.home r).definition r with
  | error e =>
    rw [hr] at hd
    cases hd
  | ok x =>
    rw [hr] at hd
    cases hd
    exact formed_definition hr

/-- **Payloads with an internal tag.** An object satisfies the schema of a payload if it satisfies all leaves of an
alternative of it. With the tag set, it satisfies the schema of the variant if it satisfies all leaves of an
alternative, apart from the tag being there, and each of these leaves takes the tag. So where the leaves that the
object satisfies all take the tag, an object for the payload becomes one for the variant. -/
theorem satisfies_tagged_iff (c : Context) (other : Keyword Schema → Json → Prop) {tag : Json} {key : String}
    {fields : List (Field (Option String) Shape)} {f : Field (Option String) Shape} {x : Schema}
    (newtype : Field.kept fields = [f])
    (h : c.variantSchema stack (.internal tag) path key (.positional fields) = .ok x) :
    ∃ label payload, labelKey tag = .ok label ∧ c.schemaIn stack path f.ty = .ok payload ∧
      ∀ os, label ∉ OrderedMap.keys os →
        ((c.reading other).Satisfies payload (.object os) ↔
          ∃ leaves, (c.reading other).Alternative payload leaves ∧
            ∀ l ∈ leaves, (c.reading other).Satisfies l (.object os)) ∧
        ((c.reading other).Satisfies x (.object (os ++ [(label, .string key)])) ↔
          tag = .string label ∧ ∃ leaves, (c.reading other).Alternative payload leaves ∧
            ∀ l ∈ leaves, (c.reading other).Satisfies (l.without label) (.object os) ∧
              (c.reading other).Takes label key l) ∧
        (tag = .string label →
          (∀ leaves, (c.reading other).Alternative payload leaves →
            ∀ l ∈ leaves, (c.reading other).Satisfies l (.object os) → (c.reading other).Takes label key l) →
          (c.reading other).Satisfies payload (.object os) →
          (c.reading other).Satisfies x (.object (os ++ [(label, .string key)]))) := by
  rw [variantSchema] at h
  obtain ⟨label, read, h⟩ := bind_eq_ok.1 h
  have pair := taggedSchema_eq c stack path (object [(label, const key)] [tag]) fields
  rw [newtype] at pair
  obtain ⟨payload, hp, rfl⟩ := map_eq_ok.1 (pair.symm.trans h)
  refine ⟨label, payload, read, hp, fun os fresh => ?_⟩
  have formed : payload.Formed := formed_schemaIn c stack f.ty path payload hp
  have alone := Reading.satisfies_iff_alternative (v := .object os) (formed_definition? c other) formed
  have tagged := Reading.satisfies_pair key (formed_definition? c other) formed read fresh
  refine ⟨alone, tagged, fun isText takes satisfied => tagged.2 ⟨isText, ?_⟩⟩
  obtain ⟨leaves, ha, all⟩ := alone.1 satisfied
  exact ⟨leaves, ha, fun l hl => ⟨(all l hl).requiring _, takes leaves ha l hl (all l hl)⟩⟩

/-! ### Empty structs

The first payload has a text, the second is a struct without fields. -/

namespace Events

def said : Field (Option String) Shape where
  name := none
  ty := .struct "Note" (.named none [{ name := "text", ty := .primitive .string }])

def started : Field (Option String) Shape where
  name := none
  ty := .struct "Started" (.named none [])

def variants : List (Variant Shape) :=
  [{ name := "Said", body := .positional [said] }, { name := "Started", body := .positional [started] }]

def site : Context := { toExport := ⟨{ language := .jsonschema }, .ofRecords []⟩ }

/-- The members of a note, and which of them are required. -/
def note : OrderedMap Schema × List String := ([("text", ofType .string [])], ["text"])

/-- A note takes the tag as a member that is not listed, so with the tag it is an event. -/
theorem note_with_tag : Field.kept [said] = [said] ∧
    ∃ x, site.variantSchema [] (.internal (.string "kind")) ["Event", "Said"] "Said" (.positional [said]) = .ok x ∧
      ∀ other text, (site.reading other).Satisfies (objectSchema note) (.object [("text", .string text)]) ∧
        (site.reading other).Satisfies x (.object [("text", .string text), ("kind", .string "Said")]) := by
  have rendered : site.variantSchema [] (.internal (.string "kind")) ["Event", "Said"] "Said" (.positional [said]) =
      .ok (.ofKeywords [.allOf [object [("kind", const "Said")] [.string "kind"], objectSchema note]]) := by cbv
  refine ⟨rfl, _, rendered, fun other text => ?_⟩
  obtain ⟨label, payload, read, hp, all⟩ := satisfies_tagged_iff site other (f := said) rfl rendered
  cases read
  have same : payload = objectSchema note := by
    have : site.schemaIn [] ["Event", "Said"] said.ty = .ok (objectSchema note) := by cbv
    exact Except.ok.inj (hp.symm.trans this)
  subst same
  have satisfied : (site.reading other).Satisfies (objectSchema note) (.object [("text", .string text)]) := by
    have isText : (site.reading other).Satisfies (ofType .string []) (.string text) :=
      (Reading.satisfies_single (k := .type .string) rfl).2 ⟨text, rfl⟩
    rw [Reading.satisfies_of_core (l := [.type .object, .properties note.1, .required [.string "text"]]) rfl]
    simp [note, isText]
  obtain ⟨-, -, tagged⟩ := all [("text", .string text)] (by simp [OrderedMap.keys])
  refine ⟨satisfied, tagged rfl (fun leaves ha l hl _ => ?_) satisfied⟩
  cases ha with
  | leaf =>
    rw [List.mem_singleton.1 hl]
    exact Reading.takes_objectSchema.2 ⟨List.cons_ne_nil _ _, by simp [note]⟩
  | member core | both core | reference core => cases core

/-- The empty object satisfies the schema of a struct without fields. With the tag it does not satisfy the schema of
the variant, since no other member is allowed. -/
theorem started_without_members :
    site.scope.represent ["Event"] "Event" variants (some (.internal (.string "kind"))) =
      .ok (.internal (.string "kind")) ∧
    ∃ payload x, site.schemaIn [] ["Event", "Started"] started.ty = .ok payload ∧
      site.variantSchema [] (.internal (.string "kind")) ["Event", "Started"] "Started" (.positional [started]) = .ok x ∧
      ∀ other, (site.reading other).Satisfies payload (.object []) ∧
        ¬ (site.reading other).Satisfies x (.object [("kind", .string "Started")]) := by
  refine ⟨by cbv, ofType .object [.closed], ofKeywords [.allOf [object [("kind", const "Started")] [.string "kind"],
    ofType .object [.closed]]], by cbv, by cbv, fun other => ?_⟩
  have closed : ∀ v, (site.reading other).Satisfies (ofType .object [.closed]) v ↔
      ∀ k ∈ [Keyword.type .object, .closed], (site.reading other).Asks [.type .object, .closed]
        (site.reading other).Satisfies (site.reading other).Allows v k :=
    fun _ => Reading.satisfies_of_core rfl
  constructor
  · rw [closed]
    simp
  · intro h
    have both := (Reading.satisfies_single rfl).1 h
    have second := both _ (List.mem_cons_of_mem _ List.mem_cons_self)
    rw [closed] at second
    simp [Lists] at second

end Events

end Context

end ShapeExport.JsonSchema
