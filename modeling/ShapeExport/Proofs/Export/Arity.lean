import Mathlib
import ShapeExport.Proofs.Export.Rendered
import ShapeExport.Proofs.JsonSchema.Expansion
import ShapeExport.Proofs.TypeScript.Lists
import ShapeExport.Proofs.Zod.Lists

/-!
# Arguments of references

A reference gives arguments to the parameters of a record. How many there are is checked where a JSON schema is
expanded, and nowhere else.

* `Collection.Writes`, `Collection.Traces` : a record refers to an id with a number of arguments, and so for each
  reference in a shape;
* `Collection.Traces.involves`, `Collection.Traces.visits` : bodies with arguments in place have references with as
  many arguments as the records wrote;
* `Statement.Applies`, `Export.Refers` : the references in the output of a record;
* `Export.arity_of_references` : each of them has as many arguments as a record wrote, whether they fit or not.
-/

namespace ShapeExport

/-! ## References as records write them -/

namespace Collection

variable {c : Collection} {s : Shape}

/-- A record of the collection refers to the id with this number of arguments. -/
def Writes (c : Collection) (id : TypeId) (n : Nat) : Prop :=
  ∃ q ∈ c.records, ∃ arguments, q.shape.Holds (.reference id arguments) ∧ arguments.length = n

/-- Each reference in the shape has an id and a number of arguments that a record wrote. -/
def Traces (c : Collection) (s : Shape) : Prop :=
  ∀ id arguments, s.Holds (.reference id arguments) → c.Writes id arguments.length

theorem traces_record {r : Record} (hr : r ∈ c.records) : c.Traces r.shape :=
  fun _ arguments hold => ⟨r, hr, arguments, hold, rfl⟩

theorem Traces.of_kept (h : c.Traces s) {t : Shape} (ht : t ∈ s.kept) : c.Traces t :=
  fun id arguments hold => h id arguments (.child ht hold)

/-- A substitution changes the arguments of a reference, and not how many there are. -/
theorem Traces.expand {id : TypeId} {arguments : List Shape} {r : Record} (h : c.Traces (.reference id arguments))
    (hr : c.resolve id.key = some r) : c.Traces (r.expand arguments) := by
  intro id' arguments' hold
  rcases hold.of_substitute with ⟨y, hy, e⟩ | ⟨name, a, -, hb, ha⟩
  · cases y <;> cases e
    rw [List.length_map]
    exact traces_record (mem_records.2 (mem_members_of_resolve hr)) _ _ hy
  · exact h.of_kept (Binding.mem_of_ofLists hb) id' arguments' ha

theorem Traces.keyBody (h : c.Traces s) {t : Shape} (ht : c.KeyBody s t) : c.Traces t := by
  induction ht with
  | inner _ ih => exact ih (h.of_kept (List.mem_singleton_self _))
  | body hr => exact h.expand hr
  | further hr _ ih => exact ih (h.expand hr)

theorem Traces.involves (h : c.Traces s) {t : Shape} (ht : c.Involves s t) : c.Traces t := by
  induction ht with
  | here => exact h
  | part hc _ ih => exact ih (h.of_kept hc)
  | key hk _ ih => exact ih ((h.of_kept List.mem_cons_self).keyBody hk)

theorem Traces.visits (h : c.Traces s) {stack stack' : List TypeKey} {t : Shape} (ht : c.Visits stack s stack' t) :
    c.Traces t := by
  induction ht with
  | here => exact h
  | part hc _ ih => exact ih (h.of_kept (Shape.mem_kept_of_mem_parts hc))
  | expand hr _ _ _ _ ih => exact ih (h.expand hr)

theorem Involves.of_holds {t : Shape} (h : s.Holds t) : c.Involves s t := by
  induction h with
  | here s => exact .here s
  | child hc _ ih => exact .part hc ih

end Collection

/-! ## References in the output -/

/-- A reference to the record with this key was rendered in the statement, with so many arguments. -/
def Statement.Applies : Statement → TypeKey → Nat → Prop
  | typeAlias _ _ type, k, n => ∃ name arguments, type.Holds (.named k name arguments) ∧ arguments.length = n
  | inferred _, _, _ => False
  | constant _ _ schema, k, n | builder _ _ _ schema, k, n =>
    ∃ name arguments, schema.Holds (.lazy k name arguments) ∧ arguments.length = n

namespace Export
open TypeScript (Vocabulary)

variable {x : Export} {r : Record} {k : TypeKey} {n : Nat}

/-- The output for a record refers to the record with this key, with so many arguments. A schema has no
applications: there the walk of the renderer comes to a reference, and expands it or writes a link. -/
inductive Refers (x : Export) (r : Record) (k : TypeKey) (n : Nat) : Prop
  | script {ss : List Statement} {s : Statement} : x.config.language ≠ .jsonschema → x.statements r = .ok ss →
      s ∈ ss → s.Applies k n → Refers x r k n
  | schema {stack : List TypeKey} {id : TypeId} {arguments : List Shape} {t : Record} :
      x.config.language = .jsonschema → r.parameters = [] →
      x.types.Visits [] r.shape stack (.reference id arguments) → x.types.resolve id.key = some t → t.id.key = k →
      arguments.length = n → Refers x r k n

/-- Names of records, applied to as many arguments as a record wrote. -/
def written (x : Export) : Vocabulary :=
  ⟨fun k _ n => ∃ id t, x.types.resolve id.key = some t ∧ t.id.key = k ∧ x.types.Writes id n,
    fun _ => True, fun _ => True⟩

theorem spans_written {s : Shape} (h : x.types.Traces s) : x.written.Spans x s := by
  intro t ht
  cases t with
  | reference id arguments => exact fun r hr => ⟨id, r, hr, rfl, h.involves ht id arguments (.here _)⟩
  | foreign value => cases value <;> trivial
  | _ => trivial

theorem writes_of_applies {ss : List Statement} (hr : r ∈ x.types.records) (h : x.statements r = .ok ss) {s : Statement}
    (hs : s ∈ ss) (ha : s.Applies k n) :
    ∃ id t, x.types.resolve id.key = some t ∧ t.id.key = k ∧ x.types.Writes id n := by
  have spans : x.written.Spans x r.shape := spans_written (Collection.traces_record hr)
  have inSchema {schema : Zod.Schema} (e : s.schema? = some schema) {name : String} {arguments : List Zod.Schema}
      (ha : schema.Holds (.lazy k name arguments)) : x.written.names k name arguments.length :=
    (formed_schemaExpr spans (schema_of_mem_statements h hs e).2).names ha
  cases s with
  | typeAlias m ps type =>
    obtain ⟨name, arguments, ha, rfl⟩ := ha
    have covers : x.written.Covers x r.shape := fun t ht => spans t (.of_holds ht)
    exact (formed_typeExpr covers (typeExpr_of_mem_statements h hs)).names ha
  | inferred m => exact ha.elim
  | constant | builder =>
    obtain ⟨name, arguments, ha, rfl⟩ := ha
    exact inSchema rfl ha

/-- **Arguments of references.** In an export that succeeds, each reference in the output for a record has an id
and a number of arguments that some record wrote. In a JSON schema the number fits a record with parameters. In a
script each reference that is rendered keeps its own number, whatever the record asks for. -/
theorem arity_of_references (h : x.Succeeds) (hr : r ∈ x.types.records) :
    (∀ k n, x.Refers r k n → ∃ id t, x.types.resolve id.key = some t ∧ t.id.key = k ∧ x.types.Writes id n ∧
      (x.config.language = .jsonschema → t.isGeneric → n = t.parameters.length)) ∧
    (x.config.language = .typescript → ∀ id arguments, r.shape.Holds (.reference id arguments) →
      ∃ t path es, x.types.resolve id.key = some t ∧ es.length = arguments.length ∧
        x.typeExpr path (.reference id arguments) = .ok (.named t.id.key (x.displayName t) es)) ∧
    (x.config.language = .zod → ∀ id arguments, r.shape.Within Shape.schemaParts (.reference id arguments) →
      ∃ t path es, x.types.resolve id.key = some t ∧ es.length = arguments.length ∧
        x.schemaExpr expansionLimit path (.reference id arguments) = .ok (.lazy t.id.key (x.displayName t) es)) := by
  refine ⟨fun k n refers => ?_, fun language id arguments hold => ?_, fun language id arguments within => ?_⟩
  · cases refers with
    | script language declared hs ha =>
      obtain ⟨id, t, ht, hk, written⟩ := writes_of_applies hr declared hs ha
      exact ⟨id, t, ht, hk, written, fun jsonschema => absurd jsonschema language⟩
    | @schema stack id arguments t language plain visits ht hk hn =>
      have written : x.types.Writes id arguments.length :=
        (Collection.traces_record hr).visits visits id arguments (.here _)
      refine ⟨id, t, ht, hk, hn ▸ written, fun _ generic => ?_⟩
      obtain ⟨linking, path, schema, rendered⟩ := h.exists_schemaIn language hr plain
      obtain ⟨path, schema, rendered⟩ := JsonSchema.Context.schemaIn_of_visits visits rendered
      obtain ⟨t', ht', ⟨none, -⟩ | ⟨-, -, fits, -⟩⟩ := JsonSchema.Context.schemaIn_reference_eq_ok rendered
      · obtain rfl := Option.some.inj (ht.symm.trans ht')
        simp [Record.isGeneric, none] at generic
      · obtain rfl := Option.some.inj (ht.symm.trans ht')
        rw [← hn, fits]
  · obtain ⟨path, type, rendered⟩ := hasType_of_holds (h.hasType language hr).stripNullable hold
    obtain ⟨t, es, ht, hes, rfl⟩ := typeExpr_reference_eq_ok rendered
    rw [argumentExprs_eq_mapM] at hes
    exact ⟨t, path, es, ht, length_of_mapM hes, rendered⟩
  · obtain ⟨path, schema, rendered⟩ := hasSchema_of_within (h.hasSchema language hr) within
    obtain ⟨t, es, ht, hes, rfl⟩ := schemaExpr_reference_eq_ok rendered
    rw [argumentSchemas_eq_mapM] at hes
    exact ⟨t, path, es, ht, length_of_mapM hes, rendered⟩

/-! ### A box without its content

`User` refers to `Box`, and says nothing of what is in it. -/

namespace Contents

def box : Record where
  id := ⟨⟨.static, 1⟩, "m.Box"⟩
  name := "Box"
  shape := .struct "Box" (.named none [{ name := "v", ty := .placeholder "T" }])
  parameters := ["T"]

def user : Record where
  id := ⟨⟨.static, 2⟩, "m.User"⟩
  name := "User"
  shape := .reference box.id []

def site : Export := ⟨{}, .ofRecords [box, user]⟩

theorem records_site : site.types.records = [box, user] := by
  have sorted : List.Pairwise (fun a b => Record.le a b) [box, user] := by decide
  exact List.mergeSort_of_pairwise sorted

def boxStatements : List Statement :=
  [.typeAlias "Box" ["T"] (.object [{ key := "v", type := .parameter "T" }])]

def userStatements : List Statement := [.typeAlias "User" [] (.named box.id.key "Box" [])]

theorem statements_user : site.statements user = .ok userStatements := by cbv

theorem text_site : site.text = .ok (site.documentText [box, user] [] [boxStatements, userStatements]) := by
  have prepared : site.prepare = .ok () :=
    prepare_of_records records_site (by cbv) (fun _ => by cbv) (by decide) (by decide)
  have boxes : site.statements box = .ok boxStatements := by cbv
  exact text_of_statements (by decide) (by decide) records_site prepared
    (mapM_eq_ok.2 (.cons boxes (.cons statements_user .nil)))

theorem mem_user : user ∈ site.types.records := by
  rw [records_site]
  exact List.mem_cons_of_mem _ List.mem_cons_self

theorem refers_user : site.Refers user box.id.key 0 := by
  refine .script (by decide) statements_user (List.mem_singleton_self _) ?_
  exact ⟨"Box", [], .here _, rfl⟩

/-- The export was validated and succeeds, and `User` gives no argument to the one parameter of `Box`. -/
theorem box_without_argument : (∃ text, site.text = .ok text) ∧ site.config.validate = true ∧
    user ∈ site.types.records ∧ site.Refers user box.id.key 0 ∧
    site.types.resolve box.id.key = some box ∧ box.parameters.length = 1 :=
  ⟨⟨_, text_site⟩, rfl, mem_user, refers_user, rfl, rfl⟩

/-- A record wrote it so, and the renderer kept it. -/
theorem arity_of_user : (∃ id t, site.types.resolve id.key = some t ∧ t.id.key = box.id.key ∧
      site.types.Writes id 0) ∧
    ∃ t path es, site.types.resolve box.id.key = some t ∧ es.length = 0 ∧
      site.typeExpr path user.shape = .ok (.named t.id.key (site.displayName t) es) := by
  obtain ⟨all, typescript, -⟩ := arity_of_references (Or.inl ⟨_, text_site⟩) mem_user
  obtain ⟨id, t, ht, hk, written, -⟩ := all box.id.key 0 refers_user
  exact ⟨⟨id, t, ht, hk, written⟩, typescript rfl box.id [] (.here _)⟩

end Contents

end Export

end ShapeExport
