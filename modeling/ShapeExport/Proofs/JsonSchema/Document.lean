import ShapeExport.Proofs.Export.Statements
import ShapeExport.Proofs.JsonSchema.Expansion
import ShapeExport.Proofs.OrderedMap
import ShapeExport.Proofs.Text.Pieces

/-!
# Documents with all definitions

* `Json.target?` : the value that an address inside a document leads to;
* `JsonSchema.Context.Emits` : the definition of a record holds a `$ref` for a reference;
* `JsonSchema.Context.emits_of_links` : each `$ref` of a definition is there for a reference;
* `Export.definitions_eq_ok` : a document has one definition for each record without parameters;
* `Export.schema_document_closed` : each `$ref` leads to the definition of the record that its reference
  holds.
-/

namespace ShapeExport

/-! ## Addresses -/

namespace Json

/-- Follows the keys of an address. Keys with an escape in them are not followed. -/
def follow (j : Json) : List String → Option Json
  | [] => some j
  | key :: keys =>
    if key.toList.any fun c => c == '~' || c == '%' then none
    else (j.get? key).bind (follow · keys)

/-- The value that an address inside a document leads to. -/
def target? (root : Json) (uri : String) : Option Json :=
  match Text.split '/' uri with
  | "#" :: keys => root.follow keys
  | _ => none

end Json

theorem not_mem_of_isTypeName {s : String} (h : isTypeName s) {c : Char} (hc : c ∈ ['/', '~', '%']) :
    c ∉ s.toList := by
  intro hm
  have hw := isWordChar_of_isTypeName h hm
  simp only [List.mem_cons, List.not_mem_nil, or_false] at hc
  rcases hc with rfl | rfl | rfl <;> revert hw <;> decide

theorem not_mem_definitionsKey (version : SchemaVersion) {c : Char} (hc : c ∈ ['/', '~', '%']) :
    c ∉ version.definitionsKey.toList := by
  simp only [List.mem_cons, List.not_mem_nil, or_false] at hc
  cases version <;> rcases hc with rfl | rfl | rfl <;> decide

/-- The address of a name below the definitions leads to the name there. -/
theorem Json.target_definition {root : Json} (version : SchemaVersion) {name : String}
    (h : isTypeName name) : root.target? ("#/" ++ version.definitionsKey ++ "/" ++ name) =
      (root.get? version.definitionsKey).bind (·.get? name) := by
  have e : "#/" ++ version.definitionsKey ++ "/" ++ name = "#" ++ (String.singleton '/' ++
      (version.definitionsKey ++ (String.singleton '/' ++ name))) := by
    rw [show "#/" = "#" ++ String.singleton '/' from rfl, show "/" = String.singleton '/' from rfl]
    simp only [String.append_assoc]
  have pieces : Text.split '/' ("#/" ++ version.definitionsKey ++ "/" ++ name) =
      ["#", version.definitionsKey, name] := by
    rw [e, Text.split_append (by decide), Text.split_append (not_mem_definitionsKey version (by decide)),
      Text.split_of_not_mem (not_mem_of_isTypeName h (by decide))]
  have plain : ∀ s : String, (∀ c ∈ ['/', '~', '%'], c ∉ s.toList) →
      ¬ (s.toList.any fun c => c == '~' || c == '%') = true := by
    intro s hs ha
    obtain ⟨c, hc, he⟩ := List.any_eq_true.1 ha
    rw [Bool.or_eq_true, beq_iff_eq, beq_iff_eq] at he
    rcases he with rfl | rfl
    · exact hs '~' (by decide) hc
    · exact hs '%' (by decide) hc
  rw [target?, pieces]
  show root.follow [version.definitionsKey, name] = _
  rw [follow, if_neg (plain _ fun c => not_mem_definitionsKey version)]
  congr 1
  funext definitions
  rw [follow, if_neg (plain _ fun c => not_mem_of_isTypeName h)]
  simp [follow]

/-! ## References in a definition -/

namespace JsonSchema.Context
open Schema

variable {c : Context} {stack : List TypeKey} {path : Path}

/-- The walk through a shape comes to a reference with this id, whose record has no parameters, and a
`$ref` is written for it. -/
def EmitsFrom (c : Context) (stack : List TypeKey) (s : Shape) (id : TypeId) (l : Link) : Prop :=
  ∃ stack' arguments r, c.types.Visits stack s stack' (.reference id arguments) ∧
    c.types.resolve id.key = some r ∧ r.parameters = [] ∧
      ∀ path, c.schemaIn stack' path (.reference id arguments) = .ok (.ofKeywords [.reference l.1 l.2])

/-- The renderer writes a `$ref` for a reference with this id in the definition of a record. -/
def Emits (c : Context) (r : Record) (id : TypeId) (l : Link) : Prop := c.EmitsFrom [] r.shape id l

theorem schemaIn_plain_reference {id : TypeId} {r : Record} {uri : String}
    (hr : c.types.resolve id.key = some r) (hp : r.parameters = []) (hu : c.uri r = .ok uri)
    (stack : List TypeKey) (path : Path) (arguments : List Shape) :
    c.schemaIn stack path (.reference id arguments) = .ok (.ofKeywords [.reference r.id.key uri]) := by
  rw [schemaIn]
  split
  · next hn =>
    rw [hr] at hn
    cases hn
  · next q hq =>
    obtain rfl := Option.some.inj (hr.symm.trans hq)
    rw [if_pos (List.isEmpty_iff.2 hp), hu]
    rfl

/-- Each `$ref` in the schema of a shape is there for a reference that the walk comes to. -/
theorem emits_of_links {s : Shape} {schema : Schema} (h : c.schemaIn stack path s = .ok schema) :
    schema.LinksIn fun l => ∃ id, c.EmitsFrom stack s id l := by
  induction stack, s using Collection.renderInduction (c := c.types) generalizing path schema with
  | reference stack id arguments ih =>
    obtain ⟨r, hr, ⟨hp, uri, hu, rfl⟩ | ⟨hp, hm, hl, body, hb, rfl⟩⟩ := schemaIn_reference_eq_ok h
    · have plain := schemaIn_plain_reference hr hp hu stack
      apply linksIn_single
      rw [linksIn_reference]
      exact ⟨id, stack, arguments, r, .here _ _, hr, hp, fun path => plain path arguments⟩
    · refine LinksIn.annotate fun l hl' => ?_
      obtain ⟨id', stack', arguments', r', hv, he⟩ := ih r hm hr hb l hl'
      exact ⟨id', stack', arguments', r', .expand hr hp hm hl hv, he⟩
  | parts stack s hs ih =>
    have parts : ∀ t ∈ s.parts,
        c.Yields stack (fun _ => True) (fun l => ∃ id, c.EmitsFrom stack s id l) t := by
      intro t ht path
      cases hx : c.schemaIn stack path t with
      | error e => trivial
      | ok x =>
        refine renders_pure fun l hl => ?_
        obtain ⟨id, stack', arguments, r, hv, he⟩ := ih t ht hx l hl
        exact ⟨id, stack', arguments, r, .part ht hv, he⟩
    have anything : ∀ e : Error, ¬ e.IsEndless → True := fun _ _ => trivial
    have admits : c.types.AdmitsLabels fun _ => True := (Collection.covers_of_not_isEndless anything).admits
    have hr := renders_schemaIn admits.toAdmits (Collection.finds_of_not_isEndless anything s)
      (admits.labelsIn c.scope.overrides s) (fun _ _ => trivial) (fun _ _ _ _ => trivial) hs parts path
    rw [h] at hr
    exact hr.1

theorem emits_of_definition {r : Record} {schema : Schema} (h : c.definition r = .ok schema) :
    schema.LinksIn fun l => ∃ id, c.Emits r id l := by
  obtain ⟨body, hb, h⟩ := bind_eq_ok.1 h
  cases h
  exact (emits_of_links hb).annotate

end JsonSchema.Context

/-! ## Definitions -/

namespace Export
open JsonSchema Schema

variable {x : Export}

/-- What schemas are rendered against in a document with all definitions. -/
def inDocument (x : Export) : Context := { toExport := x }

/-- A document has the definition of each record without parameters under its name, and no others. -/
theorem definitions_eq_ok {entries : OrderedMap Schema} (own : x.types.OwnIds)
    (layout : x.config.layout ≠ .perTypeFile) (names : x.checkNames = .ok ())
    (h : x.definitions x.types.records = .ok entries) :
    entries.keys = (x.types.records.filter (!·.isGeneric)).map x.displayName ∧ entries.keys.Nodup ∧
      ∀ r ∈ x.types.records, r.parameters = [] →
        ∃ d, x.inDocument.definition r = .ok d ∧ entries.lookup (x.displayName r) = some d := by
  obtain ⟨members, hm, h⟩ := bind_eq_ok.1 h
  cases h
  have entry : ∀ r p, (do return (x.displayName r, ← x.inDocument.definition r)) = Except.ok (ε := Error) p →
      p.1 = x.displayName r ∧ x.inDocument.definition r = .ok p.2 := by
    intro r p h
    obtain ⟨d, hd, h⟩ := bind_eq_ok.1 h
    cases h
    exact ⟨rfl, hd⟩
  have keys : OrderedMap.keys members = (x.types.records.filter (!·.isGeneric)).map x.displayName := by
    have names := (mapM_eq_ok.1 hm).imp fun r p h => (entry r p h).1.symm
    have same := List.forall₂_map_left_iff.2 (List.forall₂_map_right_iff.2 names)
    rw [List.forall₂_eq_eq_eq] at same
    exact same.symm
  have nodup : (OrderedMap.keys members).Nodup := by
    rw [keys]
    exact (nodup_displayName own layout names).sublist (List.filter_sublist.map _)
  rw [OrderedMap.insertAll_of_nodup (by exact nodup), List.nil_append]
  refine ⟨keys, nodup, fun r hr hp => ?_⟩
  have hf : r ∈ x.types.records.filter (!·.isGeneric) :=
    List.mem_filter.2 ⟨hr, by simp [Record.isGeneric, hp]⟩
  obtain ⟨p, hm, hd⟩ := exists_of_mapM hm hf
  obtain ⟨e, hd⟩ := entry r p hd
  refine ⟨p.2, hd, OrderedMap.lookup_of_mem nodup ?_⟩
  rw [← e]
  exact hm

theorem lookup_textMember {key k : String} (h : k ≠ key) (text : String) :
    (textMember key text).lookup k = none := by
  unfold textMember
  split
  · rfl
  · rw [List.lookup_cons, beq_false_of_ne h, List.lookup_nil]

theorem writable_eq_ok {j k : Json} :
    writable j = .ok k ↔ j = k ∧ j.depth ≤ Json.maxDepth ∧ j.hasShortIntegers := by
  unfold writable
  split
  · next deep => exact ⟨fun h => (by cases h), fun h => absurd h.2.1 (Nat.not_le.2 deep)⟩
  · next shallow =>
    split
    · next short => exact ⟨fun h => ⟨Except.ok.inj h, Nat.not_lt.1 shallow, short⟩, fun h => congrArg _ h.1⟩
    · next long => exact ⟨fun h => (by cases h), fun h => absurd h.2.2 long⟩

/-- The definitions stand under their key in the root of a document. -/
theorem schemaRoot_eq_ok {rs : List Record} {root : Json} (h : x.schemaRoot rs = .ok root) :
    ∃ entries, x.definitions rs = .ok entries ∧ root.get? x.config.schemaVersion.definitionsKey =
      some (.object (entries.map fun p => (p.1, p.2.json))) := by
  obtain ⟨entries, he, h⟩ := bind_eq_ok.1 h
  cases h
  refine ⟨entries, he, ?_⟩
  have key : ∀ k ∈ ["$schema", "title", "description", "$comment"],
      x.config.schemaVersion.definitionsKey ≠ k := by
    cases x.config.schemaVersion <;> decide
  rw [Json.get?, dialectMember, List.lookup_cons, beq_false_of_ne (key _ (by decide))]
  dsimp only
  rw [List.lookup_append, List.lookup_append, List.lookup_append,
    lookup_textMember (key _ (by decide)), lookup_textMember (key _ (by decide)),
    lookup_textMember (key _ (by decide)), List.lookup_cons, beq_self_eq_true]
  rfl

/-- A document is written unless its root is too deep or has a long integer. -/
theorem exists_text_of_schemaRoot {rs : List Record} {depth : Nat} (language : x.config.language = .jsonschema)
    (layout : x.config.layout ≠ .perTypeFile) (records : x.types.records = rs) (prepared : x.prepare = .ok ())
    (limits : (x.schemaRoot rs).map (fun j => (j.depth, j.hasShortIntegers)) = .ok (depth, true))
    (shallow : depth ≤ Json.maxDepth) : ∃ text, x.text = .ok text := by
  obtain ⟨root, hr, limits⟩ := map_eq_ok.1 limits
  obtain ⟨rfl, short⟩ := Prod.mk.inj limits
  have written : writable root = .ok root := writable_eq_ok.2 ⟨rfl, shallow, short⟩
  refine ⟨root.pretty .unicode ++ "\n", ?_⟩
  unfold Export.text
  rw [if_neg layout]
  refine bind_eq_ok.2 ⟨(), prepared, ?_⟩
  rw [records, Export.document, if_pos language]
  exact bind_eq_ok.2 ⟨root, hr, bind_eq_ok.2 ⟨root, written, rfl⟩⟩

/-- A document with all records has exactly one definition for each record without parameters, under its
name. Each `$ref` in a definition is there for a reference, and leads to the definition of the record that
the reference holds. -/
theorem schema_document_closed {text : String} (language : x.config.language = .jsonschema)
    (own : x.types.OwnIds) (h : x.text = .ok text) :
    ∃ (root : Json) (entries : OrderedMap Schema), text = root.pretty .unicode ++ "\n" ∧
      root.get? x.config.schemaVersion.definitionsKey =
        some (.object (entries.map fun p => (p.1, p.2.json))) ∧
      entries.keys = (x.types.records.filter (!·.isGeneric)).map x.displayName ∧
      entries.keys.Nodup ∧
      ∀ r ∈ x.types.records, r.parameters = [] →
        ∃ d, x.inDocument.definition r = .ok d ∧ entries.lookup (x.displayName r) = some d ∧
          (∀ l ∈ d.links, ∃ id, x.inDocument.Emits r id l) ∧
          ∀ id l, x.inDocument.Emits r id l →
            ∃ target e, x.types.resolve id.key = some target ∧ x.inDocument.definition target = .ok e ∧
              root.target? l.2 = some e.json := by
  obtain ⟨layout, names, hd⟩ := text_eq_ok h
  rw [document, if_pos language] at hd
  obtain ⟨root, hr, hd⟩ := bind_eq_ok.1 hd
  obtain ⟨written, hw, hd⟩ := bind_eq_ok.1 hd
  cases hd
  obtain ⟨rfl, -, -⟩ := writable_eq_ok.1 hw
  obtain ⟨entries, he, hroot⟩ := schemaRoot_eq_ok hr
  obtain ⟨keys, nodup, all⟩ := definitions_eq_ok own layout names he
  refine ⟨root, entries, rfl, hroot, keys, nodup, fun r hm hp => ?_⟩
  obtain ⟨d, hdef, hl⟩ := all r hm hp
  refine ⟨d, hdef, hl, Context.emits_of_definition hdef, ?_⟩
  rintro id l ⟨stack, arguments, target, -, ht, htp, hs⟩
  have mem : target ∈ x.types.records :=
    Collection.mem_records.2 (Collection.mem_members_of_resolve ht)
  obtain ⟨e, hedef, hle⟩ := all target mem htp
  refine ⟨target, e, ht, hedef, ?_⟩
  have uri : l.2 = "#/" ++ x.config.schemaVersion.definitionsKey ++ "/" ++ x.displayName target := by
    have hx := Context.schemaIn_plain_reference (c := x.inDocument) ht htp rfl stack [] arguments
    rw [hs []] at hx
    simp only [Except.ok.injEq, Schema.ofKeywords.injEq, List.cons.injEq, Keyword.reference.injEq] at hx
    exact hx.1.2
  rw [uri, Json.target_definition _ (isTypeName_of_checkNames names mem), hroot, Option.bind_some, Json.get?,
    OrderedMap.lookup_map, hle]
  rfl

/-! ## A reference inside an argument

`Holder` puts a `Point` in a `Box`, whose body holds the `$ref` to `Point`. -/

namespace Holders

def box : Record where
  id := ⟨⟨.static, 1⟩, "Box"⟩
  name := "Box"
  shape := .struct "Box" (.named none [{ name := "v", ty := .placeholder "T" }])
  parameters := ["T"]

def point : Record where
  id := ⟨⟨.static, 3⟩, "Point"⟩
  name := "Point"
  shape := .struct "Point" (.named none [{ name := "x", ty := .primitive .i32 }])

def holder : Record where
  id := ⟨⟨.static, 2⟩, "Holder"⟩
  name := "Holder"
  shape := .reference box.id [.reference point.id []]

def holders : Export where
  config := { language := .jsonschema, banner := "", validate := false }
  types := .ofRecords [box, holder, point]

theorem records_holders : holders.types.records = [box, holder, point] := by
  have sorted : List.Pairwise (fun a b => Record.le a b) [box, holder, point] := by decide
  exact List.mergeSort_of_pairwise sorted

theorem text_holders : ∃ text, holders.text = .ok text := by
  have prepared : holders.prepare = .ok () :=
    prepare_of_records records_holders (by cbv) (fun on => by cases on) (by decide) (by decide)
  have limits : (holders.schemaRoot [box, holder, point]).map (fun j => (j.depth, j.hasShortIntegers)) =
      .ok (5, true) := by cbv
  exact exists_text_of_schemaRoot rfl (by decide) records_holders prepared limits (by decide)

/-- The `$ref` in the definition of `Holder` leads to the definition of `Point`. -/
theorem holders_document_closed : holders.config.language = .jsonschema ∧ holders.types.OwnIds ∧
    ∃ (text : String) (root : Json), holders.text = .ok text ∧ text = root.pretty .unicode ++ "\n" ∧
      ∃ e, holders.inDocument.definition point = .ok e ∧
        root.target? "#/definitions/Point" = some e.json := by
  have own : holders.types.OwnIds := Collection.ownIds_ofRecords _
  obtain ⟨text, ht⟩ := text_holders
  obtain ⟨root, entries, written, -, -, -, all⟩ := schema_document_closed rfl own ht
  have mem : holder ∈ holders.types.records := by
    rw [records_holders]
    exact List.mem_cons_of_mem _ List.mem_cons_self
  obtain ⟨d, -, -, -, follow⟩ := all holder mem rfl
  have body : box.expand [.reference point.id []] =
      .struct "Box" (.named none [{ name := "v", ty := .reference point.id [] }]) := by
    simp [Record.expand, box, Body.map, Field.map, Field.withType, Shape.substitute_placeholder,
      Binding.ofLists]
  have emits : holders.inDocument.Emits holder point.id (point.id.key, "#/definitions/Point") := by
    have inside : holders.types.Visits [box.id.key] (box.expand [.reference point.id []]) [box.id.key]
        (.reference point.id []) := by
      rw [body]
      exact .part List.mem_cons_self (.here _ _)
    have visits : holders.types.Visits [] holder.shape [box.id.key] (.reference point.id []) :=
      .expand (r := box) rfl (by decide) List.not_mem_nil rfl inside
    refine ⟨[box.id.key], [], point, visits, rfl, rfl, fun path => ?_⟩
    exact Context.schemaIn_plain_reference rfl rfl rfl _ path []
  obtain ⟨target, e, hr, he, hp⟩ := follow point.id _ emits
  cases hr
  exact ⟨rfl, own, text, root, ht, written, e, he, hp⟩

end Holders

end Export

end ShapeExport
