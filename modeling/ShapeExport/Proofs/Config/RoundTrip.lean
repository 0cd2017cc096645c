import ShapeExport.Proofs.Config.Options

/-!
# Configurations are read back

* `Config.ofJson_toJson` : what is written for a configuration is read as the same;
* `Config.WellTyped` : options with values that they are meant for, among words that stand for nothing;
* `Config.members_of_setOptions`, `Config.exists_setOptions` : what is written after several options were set, and
  that it takes no more than that each of them can be set;
* `Config.toJson_of_ofJson`, `Config.ofJson_of_perm` : a configuration that was read is written as the default one with
  the given options in place, and the order of these makes no difference;
* `Config.reads_back` : configurations and representations survive being written.
-/

namespace ShapeExport

theorem FormatterConfig.ofJson_toJson (c : FormatterConfig) : ofJson c.toJson = .ok c :=
  bind_eq_ok.2 ⟨c.tool, FormatterTool.ofJson_eq_ok.2 rfl, rfl⟩

theorem OutputConfig.ofJson_toJson (c : OutputConfig) : ofJson c.toJson = c := rfl

namespace Config

/-! ## What is written is read -/

/-- A step behind a result. The proof is no plain `rfl`, so that a long run of steps is rewritten one by one and not
computed as a whole. -/
theorem ok_bind {ε α β : Type} (a : α) (f : α → Except ε β) : (.ok a >>= f) = f a := id rfl

theorem ofJson_toJson (c : Config) : ofJson c.toJson = .ok c := by
  have read : setOptions {} c.members = .ok c := by
    unfold members toJson
    simp only [Json.object?, Option.getD_some, setOptions, setOption, Language.ofJson_eq_ok.2 rfl,
      BigIntPolicy.ofJson_eq_ok.2 rfl, Layout.ofJson_eq_ok.2 rfl, CommentStyle.ofJson_eq_ok.2 rfl,
      SchemaVersion.ofJson_eq_ok.2 rfl, CollisionPolicy.ofJson_eq_ok.2 rfl, Overrides.ofJson_toJson,
      FormatterConfig.ofJson_toJson, OutputConfig.ofJson_toJson, Json.string?, Json.bool?, Option.map_some, ok_bind,
      pure, Except.pure]
  unfold ofJson
  rw [toJson_eq, Json.object?, Option.getD_some, read]
  rfl

/-- A configuration is determined by what is written for it. -/
theorem eq_of_members {c d : Config} (h : c.members = d.members) : c = d := by
  have same : ofJson c.toJson = ofJson d.toJson := by rw [toJson_eq, toJson_eq, h]
  rw [ofJson_toJson, ofJson_toJson] at same
  exact Except.ok.inj same

/-! ## Several options -/

/-- Options that a configuration can be read from: each key stands once, values are those that the options are meant
for, and no key hides the way to write the configuration. Keys that are no options take any value. -/
structure WellTyped (options : Json.Members) : Prop where
  distinct : (OrderedMap.keys options).Nodup
  typed : ∀ p ∈ options, Typed p.1 p.2
  writable : writerKey ∉ OrderedMap.keys options

/-- The value that is written for an option: the given one, or the one from before. -/
def written (options : Json.Members) (key : String) (before : Json) : Json :=
  ((options.lookup key).map (completed key)).getD before

theorem written_cons {o : String × Json} {options : Json.Members} (fresh : o.1 ∉ OrderedMap.keys options) (key : String)
    (before : Json) :
    written (o :: options) key before = written options key (if key == o.1 then completed o.1 o.2 else before) := by
  unfold written
  rw [List.lookup_cons]
  by_cases hk : key = o.1
  · rw [hk, beq_self_eq_true, OrderedMap.lookup_eq_none.2 fresh, if_pos rfl]
    rfl
  · rw [beq_false_of_ne hk, if_neg Bool.false_ne_true]

variable {options options' : Json.Members} {c d : Config}

theorem members_of_setOptions (distinct : (OrderedMap.keys options).Nodup) (typed : ∀ p ∈ options, Typed p.1 p.2)
    (set : c.setOptions options = .ok d) : d.members = c.members.map fun p => (p.1, written options p.1 p.2) := by
  induction options generalizing c with
  | nil =>
    cases set
    exact (List.map_id d.members).symm
  | cons o options ih =>
    obtain ⟨e, he, set⟩ := bind_eq_ok.1 set
    obtain ⟨fresh, distinct⟩ := List.nodup_cons.1 distinct
    rw [List.forall_mem_cons] at typed
    rw [ih distinct typed.2 set, (settled_of_typed typed.1).members_eq he, List.map_map]
    refine List.map_congr_left fun p _ => ?_
    rw [written_cons fresh, Function.comp_apply]
    split <;> rfl

theorem exists_setOptions (typed : ∀ p ∈ options, Typed p.1 p.2) :
    (∃ d, c.setOptions options = .ok d) ↔ ∀ p ∈ options, ∃ d, ({} : Config).setOption p.1 p.2 = .ok d := by
  induction options generalizing c with
  | nil => exact iff_of_true ⟨c, rfl⟩ (List.forall_mem_nil _)
  | cons o options ih =>
    rw [List.forall_mem_cons] at typed ⊢
    have settled := settled_of_typed typed.1
    constructor
    · rintro ⟨d, set⟩
      obtain ⟨e, he, set⟩ := bind_eq_ok.1 set
      obtain ⟨first, hf, -⟩ := settled.placed he {}
      exact ⟨⟨first, hf⟩, (ih typed.2).1 ⟨d, set⟩⟩
    · rintro ⟨⟨first, hf⟩, others⟩
      obtain ⟨e, he, -⟩ := settled.placed hf c
      obtain ⟨d, set⟩ := (ih typed.2 (c := e)).2 others
      exact ⟨d, bind_eq_ok.2 ⟨e, he, set⟩⟩

theorem setOptions_of_perm (distinct : (OrderedMap.keys options).Nodup) (typed : ∀ p ∈ options, Typed p.1 p.2)
    (perm : options.Perm options') (set : c.setOptions options = .ok d) : c.setOptions options' = .ok d := by
  have typed' : ∀ p ∈ options', Typed p.1 p.2 := fun p hp => typed p (perm.mem_iff.2 hp)
  have distinct' : (OrderedMap.keys options').Nodup := (perm.map _).nodup_iff.1 distinct
  obtain ⟨d', set'⟩ : ∃ d', c.setOptions options' = .ok d' :=
    (exists_setOptions typed').2 fun p hp => (exists_setOptions typed).1 ⟨d, set⟩ p (perm.mem_iff.2 hp)
  have same : d'.members = d.members := by
    rw [members_of_setOptions distinct' typed' set', members_of_setOptions distinct typed set]
    refine List.map_congr_left fun p _ => ?_
    rw [written, written, OrderedMap.lookup_of_perm perm distinct]
  rw [set', eq_of_members same]

/-! ## A configuration -/

/-- A configuration is read from its options, unless one of them stands in the place of all. -/
theorem ofJson_eq_ok : ofJson (.object options) = .ok c ↔
    setOptions {} options = .ok c ∧ "__dict__" ∉ OrderedMap.keys options := by
  rw [← OrderedMap.lookup_eq_none]
  unfold ofJson
  rw [bind_eq_ok, Json.object?, Option.getD_some, Json.get?]
  cases options.lookup "__dict__" with
  | none =>
    constructor
    · rintro ⟨d, set, h⟩
      cases h
      exact ⟨set, rfl⟩
    · rintro ⟨set, -⟩
      exact ⟨c, set, rfl⟩
  | some v =>
    constructor
    · rintro ⟨d, -, h⟩
      cases h
    · rintro ⟨-, h⟩
      cases h

theorem toJson_of_ofJson (given : WellTyped options) (h : ofJson (.object options) = .ok c) :
    c.toJson = .object (({} : Config).members.map fun p => (p.1, written options p.1 p.2)) := by
  rw [toJson_eq, members_of_setOptions given.distinct given.typed (ofJson_eq_ok.1 h).1]

theorem ofJson_of_perm (given : WellTyped options) (perm : options.Perm options')
    (h : ofJson (.object options) = .ok c) : ofJson (.object options') = .ok c := by
  obtain ⟨set, kept⟩ := ofJson_eq_ok.1 h
  refine ofJson_eq_ok.2 ⟨setOptions_of_perm given.distinct given.typed perm set, ?_⟩
  exact fun hk => kept ((perm.map _).mem_iff.2 hk)

theorem rewritten_of_ofJson (writable : writerKey ∉ OrderedMap.keys options) (h : ofJson (.object options) = .ok c) :
    rewritten (.object options) = .ok c.toJson := by
  unfold rewritten
  rw [h, ok_bind, Json.get?, OrderedMap.lookup_eq_none.2 writable]
  rfl

theorem rewritten_toJson (c : Config) : rewritten c.toJson = .ok c.toJson :=
  rewritten_of_ofJson (show writerKey ∉ optionKeys by decide) c.ofJson_toJson

/-- **Configurations survive being written.** What is written for a configuration that was read is read as the same and
written as the same again; it is the default configuration with the given options in place, each completed, in
whatever order these were given. What is written for a representation is read as the same, and it is the completed form
of what the representation was read from. -/
theorem reads_back (given : WellTyped options) (read : ofJson (.object options) = .ok c) :
    ofJson c.toJson = .ok c ∧
    rewritten (.object options) = .ok c.toJson ∧ rewritten c.toJson = .ok c.toJson ∧
    c.toJson = .object (({} : Config).members.map fun p => (p.1, written options p.1 p.2)) ∧
    (∀ options' : Json.Members, options'.Perm options → ofJson (.object options') = .ok c) ∧
    (∀ enum t, Tagging.ofJson enum t.toJson = .ok t) ∧
    ∀ enum form t, Tagging.ofJson enum form = .ok t →
      t.toJson = Tagging.completed form ∧ Tagging.ofJson enum t.toJson = .ok t := by
  refine ⟨c.ofJson_toJson, rewritten_of_ofJson given.writable read, c.rewritten_toJson, toJson_of_ofJson given read,
    ?_, Tagging.ofJson_toJson, ?_⟩
  · intro options' perm
    exact ofJson_of_perm given perm.symm read
  · intro enum form t h
    exact ⟨Tagging.toJson_of_ofJson h, t.ofJson_toJson enum⟩

/-! ## A configuration with a few options -/

namespace Sample

def given : Json.Members := [
  ("enum_reprs", .object [
    ("Shape", .object [("content", .string "c"), ("tag", .string "t")]),
    ("Color", .object [("string", .string "camelCase")])]),
  ("formatter", .object [("tool", .string "biome"), ("enabled", .bool true)]),
  ("unknown_option", .integer 1),
  ("language", .string "zod"),
  ("serde", .bool false)]

def config : Config := {
  language := .zod,
  validate := false,
  overrides := [("Shape", .adjacent (.string "t") (.string "c")), ("Color", .strings (.string "camelCase"))],
  formatter := { enabled := true, tool := .biome } }

theorem wellTyped_given : WellTyped given where
  distinct := by decide
  typed := by
    unfold given
    simp only [List.forall_mem_cons]
    refine ⟨⟨_, rfl⟩, ⟨⟨_, rfl⟩, ?_⟩, trivial, trivial, ⟨_, rfl⟩, List.forall_mem_nil _⟩
    refine List.forall_mem_cons.2 ⟨fun v hv => ⟨true, (Option.some.inj hv).symm⟩, ?_⟩
    refine List.forall_mem_singleton.2 fun v hv => ?_
    cases hv
  writable := by decide

theorem reads_back_config : WellTyped given ∧ ofJson (.object given) = .ok config ∧
    ofJson config.toJson = .ok config ∧ ∀ options', options'.Perm given → ofJson (.object options') = .ok config :=
  have read : ofJson (.object given) = .ok config := rfl
  have h := reads_back wellTyped_given read
  ⟨wellTyped_given, read, h.1, h.2.2.2.2.1⟩

end Sample

end Config

end ShapeExport
