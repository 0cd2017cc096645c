import Mathlib.Data.List.Nodup
import ShapeExport.Config.Json
import ShapeExport.Proofs.OrderedMap
import ShapeExport.Proofs.Outcome

/-!
# Options of a configuration

* `memberOf_eq_ok` : a value names a member of an enumeration exactly if it is its name;
* `Json.filled` : an object with the members of another one in the place of its own;
* `Config.Typed`, `Config.completed` : the values that an option is meant for, and how such a value is written again;
* `Config.Settled`, `Config.settled_of_typed` : an option is refused whatever was set before, or what is written has its
  completed value in place, and all else is as before.
-/

namespace ShapeExport

/-! ## Enumerations -/

/-- A member is found under its name, if names are distinct. -/
theorem find?_name_eq_some {α : Type} {all : List α} {name : α → String} (complete : ∀ a, a ∈ all)
    (distinct : (all.map name).Nodup) {s : String} {a : α} : all.find? (fun b => name b == s) = some a ↔ s = name a := by
  constructor
  · intro h
    have same : name a = s := by simpa using List.find?_some h
    exact same.symm
  · rintro rfl
    obtain ⟨b, hb⟩ : ∃ b, all.find? (fun b => name b == name a) = some b :=
      Option.isSome_iff_exists.1 (List.find?_isSome.2 ⟨a, complete a, beq_self_eq_true _⟩)
    have same : name b = name a := by simpa using List.find?_some hb
    rw [hb, List.inj_on_of_nodup_map distinct (complete b) (complete a) same]

theorem memberOf_eq_ok {α : Type} {enumeration : String} {all : List α} {name : α → String} (complete : ∀ a, a ∈ all)
    (distinct : (all.map name).Nodup) {j : Json} {a : α} :
    memberOf enumeration all name j = .ok a ↔ j = .string (name a) := by
  cases j with
  | string s =>
    rw [Json.string.injEq, ← find?_name_eq_some complete distinct]
    simp only [memberOf]
    split
    · next b hb => rw [hb, Except.ok.injEq, Option.some.injEq]
    · next hb => simp [hb]
  | _ => simp [memberOf]

theorem Language.ofJson_eq_ok {j : Json} {l : Language} : ofJson j = .ok l ↔ j = .string l.name :=
  memberOf_eq_ok (fun l => by cases l <;> decide) (by decide)

theorem BigIntPolicy.ofJson_eq_ok {j : Json} {b : BigIntPolicy} : ofJson j = .ok b ↔ j = .string b.name :=
  memberOf_eq_ok (fun b => by cases b <;> decide) (by decide)

theorem Layout.ofJson_eq_ok {j : Json} {l : Layout} : ofJson j = .ok l ↔ j = .string l.name :=
  memberOf_eq_ok (fun l => by cases l <;> decide) (by decide)

theorem CommentStyle.ofJson_eq_ok {j : Json} {s : CommentStyle} : ofJson j = .ok s ↔ j = .string s.name :=
  memberOf_eq_ok (fun s => by cases s <;> decide) (by decide)

theorem CollisionPolicy.ofJson_eq_ok {j : Json} {p : CollisionPolicy} : ofJson j = .ok p ↔ j = .string p.name :=
  memberOf_eq_ok (fun p => by cases p <;> decide) (by decide)

theorem FormatterTool.ofJson_eq_ok {j : Json} {t : FormatterTool} : ofJson j = .ok t ↔ j = .string t.name :=
  memberOf_eq_ok (fun t => by cases t <;> decide) (by decide)

theorem SchemaVersion.ofJson_eq_ok {j : Json} {v : SchemaVersion} : ofJson j = .ok v ↔ j = .string v.name := by
  rw [← memberOf_eq_ok (fun v => by cases v <;> decide) (by decide : (all.map name).Nodup)]
  unfold ofJson
  cases memberOf "SchemaVersion" all name j <;> simp [Except.mapError]

/-! ## Objects with defaults -/

/-- An object with the values that another one has for its keys. -/
def Json.filled (defaults given : Json) : Json :=
  .object ((defaults.object?.getD []).map fun p => (p.1, (given.get? p.1).getD p.2))

/-- Whether what an object has under the keys is truth values. -/
def Json.HasFlags (keys : List String) (j : Json) : Prop :=
  ∀ key ∈ keys, ∀ v, j.get? key = some v → ∃ b, v = .bool b

theorem bool_flag {keys : List String} {j : Json} (h : j.HasFlags keys) {key : String} (hk : key ∈ keys) (default : Bool) :
    Json.bool (flag j key default) = (j.get? key).getD (.bool default) := by
  unfold flag
  cases hv : j.get? key with
  | none => rfl
  | some v =>
    obtain ⟨b, rfl⟩ := h key hk v hv
    rfl

theorem FormatterConfig.toJson_of_ofJson {j : Json} {c : FormatterConfig} (flags : j.HasFlags ["enabled", "strict"])
    (h : ofJson j = .ok c) : c.toJson = ({} : FormatterConfig).toJson.filled j := by
  have htool : ∃ tool : FormatterTool, (j.get? "tool").getD (.string FormatterTool.prettier.name) = .string tool.name ∧
      c = { enabled := flag j "enabled" false, tool, strict := flag j "strict" false } := by
    unfold ofJson at h
    cases hv : j.get? "tool" with
    | none =>
      rw [hv] at h
      cases h
      exact ⟨_, rfl, rfl⟩
    | some v =>
      rw [hv] at h
      obtain ⟨tool, ht, h⟩ := bind_eq_ok.1 h
      cases h
      exact ⟨tool, FormatterTool.ofJson_eq_ok.1 ht, rfl⟩
  obtain ⟨tool, ht, rfl⟩ := htool
  unfold toJson
  rw [bool_flag flags (by decide), bool_flag flags (by decide), ← ht]
  rfl

theorem OutputConfig.toJson_ofJson {j : Json} (flags : j.HasFlags ["atomic_write", "validate_before_write"]) :
    (ofJson j).toJson = ({} : OutputConfig).toJson.filled j := by
  unfold ofJson toJson
  rw [bool_flag flags (by decide), bool_flag flags (by decide)]
  rfl

/-! ## Representations -/

/-- How the representation that a value stands for is written. -/
def Tagging.completed : Json → Json
  | .object [("external", _)] => .object [("external", .bool true)]
  | .object [("untagged", _)] => .object [("untagged", .bool true)]
  | .object [("content", content), ("tag", tag)] => .object [("tag", tag), ("content", content)]
  | j => j

theorem Tagging.toJson_of_ofJson {enum : String} {j : Json} {t : Tagging} (h : ofJson enum j = .ok t) :
    t.toJson = completed j := by
  unfold ofJson at h
  split at h
  · next members =>
    split at h
    · next t' ht =>
      cases h
      unfold ofMembers? at ht
      split at ht
      all_goals first | cases ht | (split at ht <;> cases ht)
      all_goals rfl
    · cases h
  · cases h

theorem Overrides.toJson_of_ofMembers {members : Json.Members} {o : Overrides} (h : ofMembers members = .ok o) :
    o.toJson = .object (members.map fun p => (p.1, Tagging.completed p.2)) := by
  induction members generalizing o with
  | nil =>
    cases h
    rfl
  | cons p members ih =>
    obtain ⟨t, ht, h⟩ := bind_eq_ok.1 h
    obtain ⟨others, ho, h⟩ := bind_eq_ok.1 h
    cases h
    show Json.object ((p.1, t.toJson) :: others.map fun q => (q.1, q.2.toJson)) = _
    rw [Tagging.toJson_of_ofJson ht, Json.object.inj (ih ho)]
    rfl

theorem Overrides.ofJson_toJson (o : Overrides) : ofJson o.toJson = .ok o := by
  induction o with
  | nil => rfl
  | cons p o ih =>
    exact bind_eq_ok.2 ⟨p.2, Tagging.ofJson_toJson p.1 p.2, bind_eq_ok.2 ⟨o, ih, rfl⟩⟩

/-! ## One option -/

namespace Config

/-- The options as they are written. -/
def members (c : Config) : Json.Members := c.toJson.object?.getD []

theorem toJson_eq (c : Config) : c.toJson = .object c.members := rfl

/-- The keys of the options. -/
def optionKeys : List String := OrderedMap.keys ({} : Config).members

theorem keys_members (c : Config) : OrderedMap.keys c.members = optionKeys := rfl

/-- Whether a value is one that an option is meant for. A key that is no option takes any value, and so does an option
that names a member of an enumeration, since what is no name of one is refused. -/
def Typed (key : String) (v : Json) : Prop :=
  match key with
  | "header" | "framework_header" | "generation_comment" | "title" | "description" => ∃ s, v = .string s
  | "serde" | "optional_nullable_fields" => ∃ b, v = .bool b
  | "enum_reprs" => ∃ members, v = .object members
  | "formatter" => (∃ members, v = .object members) ∧ v.HasFlags ["enabled", "strict"]
  | "output" => (∃ members, v = .object members) ∧ v.HasFlags ["atomic_write", "validate_before_write"]
  | _ => True

/-- How the value of an option is written: with what an object leaves out, and with representations in their form. -/
def completed (key : String) (v : Json) : Json :=
  match key with
  | "enum_reprs" => .object ((v.object?.getD []).map fun p => (p.1, Tagging.completed p.2))
  | "formatter" => ({} : FormatterConfig).toJson.filled v
  | "output" => ({} : OutputConfig).toJson.filled v
  | _ => v

/-- What an option with a value does to every configuration: it is refused, or its completed value is put in place. -/
def Settled (key : String) (v : Json) : Prop :=
  (∀ c : Config, ∃ e, c.setOption key v = .error e) ∨
    ∀ c : Config, ∃ d, c.setOption key v = .ok d ∧
      d.members = c.members.map fun p => if p.1 == key then (p.1, completed key v) else p

variable {key : String} {v : Json}

/-- An option that can be set once can be set always, since it does not depend on what was set before. -/
theorem Settled.placed (h : Settled key v) {c d : Config} (set : c.setOption key v = .ok d) (c' : Config) :
    ∃ d', c'.setOption key v = .ok d' ∧
      d'.members = c'.members.map fun p => if p.1 == key then (p.1, completed key v) else p := by
  refine h.resolve_left (fun refused => ?_) c'
  obtain ⟨e, he⟩ := refused c
  rw [set] at he
  cases he

theorem Settled.members_eq (h : Settled key v) {c d : Config} (set : c.setOption key v = .ok d) :
    d.members = c.members.map fun p => if p.1 == key then (p.1, completed key v) else p := by
  obtain ⟨d', hd, members⟩ := h.placed set c
  obtain rfl : d = d' := Except.ok.inj (set.symm.trans hd)
  exact members

/-- An option whose value is read and then put in place is settled, if what is read is written as the completed value. -/
theorem settled_of_read {α : Type} (read : Except Error α) (put : Config → α → Config) (write : α → Json)
    (set : ∀ c : Config, c.setOption key v = read >>= fun a => .ok (put c a))
    (placed : ∀ (c : Config) a, (put c a).members = c.members.map fun p => if p.1 == key then (p.1, write a) else p)
    (written : ∀ a, read = .ok a → write a = completed key v) : Settled key v := by
  cases hr : read with
  | error e =>
    refine Or.inl fun c => ⟨e, ?_⟩
    rw [set c, hr]
    rfl
  | ok a =>
    refine Or.inr fun c => ⟨put c a, ?_, ?_⟩
    · rw [set c, hr]
      rfl
    · rw [placed c a, written a hr]

/-- A key that is no option sets nothing, or is refused. -/
theorem settled_of_not_mem (h : key ∉ optionKeys) : Settled key v := by
  have same (c : Config) : c.members = c.members.map fun p => if p.1 == key then (p.1, completed key v) else p :=
    (OrderedMap.set_of_not_mem (keys_members c ▸ h) _).symm
  by_cases hclass : key = "__class__"
  · subst hclass
    exact Or.inl fun c => ⟨_, rfl⟩
  by_cases hrefs : key = "__weakref__"
  · subst hrefs
    exact Or.inl fun c => ⟨_, rfl⟩
  by_cases hdict : key = "__dict__"
  · subst hdict
    cases v with
    | object members => exact Or.inr fun c => ⟨c, rfl, same c⟩
    | _ => exact Or.inl fun c => ⟨_, rfl⟩
  refine Or.inr fun c => ⟨c, ?_, same c⟩
  unfold setOption
  split
  case h_20 => rfl
  all_goals contradiction

/-- An option with a value that it is meant for is settled. -/
theorem settled_of_typed (typed : Typed key v) : Settled key v := by
  by_cases h : key ∈ optionKeys
  case neg => exact settled_of_not_mem h
  -- One case for each option, in the order in which they are written.
  have option : key ∈ ["language", "header", "framework_header", "generation_comment", "bigint", "layout",
    "comment_style", "schema_version", "name_collisions", "serde", "optional_nullable_fields", "enum_reprs",
    "formatter", "output", "title", "description"] := h
  simp only [List.mem_cons, List.not_mem_nil, or_false] at option
  rcases option with rfl | rfl | rfl | rfl | rfl | rfl | rfl | rfl | rfl | rfl | rfl | rfl | rfl | rfl | rfl | rfl
  · exact settled_of_read (Language.ofJson v) (fun c l => { c with language := l }) (fun l => .string l.name)
      (fun _ => rfl) (fun _ _ => rfl) fun l hl => (Language.ofJson_eq_ok.1 hl).symm
  · obtain ⟨s, rfl⟩ := typed
    exact Or.inr fun c => ⟨{ c with header := s }, rfl, rfl⟩
  · obtain ⟨s, rfl⟩ := typed
    exact Or.inr fun c => ⟨{ c with banner := s }, rfl, rfl⟩
  · obtain ⟨s, rfl⟩ := typed
    exact Or.inr fun c => ⟨{ c with generationComment := s }, rfl, rfl⟩
  · exact settled_of_read (BigIntPolicy.ofJson v) (fun c b => { c with bigint := b }) (fun b => .string b.name)
      (fun _ => rfl) (fun _ _ => rfl) fun b hb => (BigIntPolicy.ofJson_eq_ok.1 hb).symm
  · exact settled_of_read (Layout.ofJson v) (fun c l => { c with layout := l }) (fun l => .string l.name)
      (fun _ => rfl) (fun _ _ => rfl) fun l hl => (Layout.ofJson_eq_ok.1 hl).symm
  · exact settled_of_read (CommentStyle.ofJson v) (fun c s => { c with commentStyle := s }) (fun s => .string s.name)
      (fun _ => rfl) (fun _ _ => rfl) fun s hs => (CommentStyle.ofJson_eq_ok.1 hs).symm
  · exact settled_of_read (SchemaVersion.ofJson v) (fun c s => { c with schemaVersion := s }) (fun s => .string s.name)
      (fun _ => rfl) (fun _ _ => rfl) fun s hs => (SchemaVersion.ofJson_eq_ok.1 hs).symm
  · exact settled_of_read (CollisionPolicy.ofJson v) (fun c p => { c with collisions := p }) (fun p => .string p.name)
      (fun _ => rfl) (fun _ _ => rfl) fun p hp => (CollisionPolicy.ofJson_eq_ok.1 hp).symm
  · obtain ⟨b, rfl⟩ := typed
    exact Or.inr fun c => ⟨{ c with validate := b }, rfl, rfl⟩
  · obtain ⟨b, rfl⟩ := typed
    exact Or.inr fun c => ⟨{ c with optionalNullable := b }, rfl, rfl⟩
  · obtain ⟨members, rfl⟩ := typed
    exact settled_of_read (Overrides.ofMembers members) (fun c o => { c with overrides := o }) Overrides.toJson
      (fun _ => rfl) (fun _ _ => rfl) fun o ho => Overrides.toJson_of_ofMembers ho
  · exact settled_of_read (FormatterConfig.ofJson v) (fun c f => { c with formatter := f }) FormatterConfig.toJson
      (fun _ => rfl) (fun _ _ => rfl) fun f hf => FormatterConfig.toJson_of_ofJson typed.2 hf
  · exact settled_of_read (.ok (OutputConfig.ofJson v)) (fun c o => { c with output := o }) OutputConfig.toJson
      (fun _ => rfl) (fun _ _ => rfl) fun o ho => Except.ok.inj ho ▸ OutputConfig.toJson_ofJson typed.2
  · obtain ⟨s, rfl⟩ := typed
    exact Or.inr fun c => ⟨{ c with title := s }, rfl, rfl⟩
  · obtain ⟨s, rfl⟩ := typed
    exact Or.inr fun c => ⟨{ c with description := s }, rfl, rfl⟩

end Config

end ShapeExport
