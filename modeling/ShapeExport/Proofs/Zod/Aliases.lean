import Mathlib
import ShapeExport.Proofs.Export.Statements

/-!
# Types next to recursive schemas

A recursive schema is annotated with a type that is written in TypeScript.

* `TypeScript.Vocabulary.ofRecords` : the records of an export, under the names that they are declared with;
* `Export.alias_names_declared_iff` : a record that such a type mentions has a type in the same document
  exactly if it has no parameters.
-/

namespace ShapeExport

/-- Records under the names that they are declared with, and any parameters and texts. -/
def TypeScript.Vocabulary.ofRecords (x : Export) : TypeScript.Vocabulary :=
  ⟨fun k name _ => ∃ r ∈ x.types.records, r.id.key = k ∧ x.displayName r = name, fun _ => True, fun _ => True⟩

namespace Export
open TypeScript (TypeExpr Vocabulary)

variable {x : Export}

theorem covers_ofRecords (x : Export) (s : Shape) : (Vocabulary.ofRecords x).Covers x s := by
  intro t _
  cases t with
  | reference id arguments =>
    intro r hr
    exact ⟨r, Collection.mem_records.2 (Collection.mem_members_of_resolve hr), rfl, rfl⟩
  | foreign value => cases value <;> trivial
  | _ => trivial

/-- The types that the statements of a document declare are those of its records without parameters. -/
theorem typeHead_document_iff (language : x.config.language = .zod) {rs : List Record}
    {sss : List (List Statement)} (h : rs.mapM x.statements = .ok sss) {name : String} {parameters : Nat} :
    (∃ s ∈ sss.flatten, s.typeHead? = some (name, parameters)) ↔
      parameters = 0 ∧ ∃ r ∈ rs, r.isGeneric = false ∧ x.displayName r = name := by
  constructor
  · rintro ⟨s, hs, head⟩
    obtain ⟨ss, hss, hs⟩ := List.mem_flatten.1 hs
    obtain ⟨r, hr, declared⟩ := exists_of_mem_results h hss
    obtain ⟨generic, e⟩ := (typeHead_iff_of_zod language declared).1 ⟨s, hs, head⟩
    rw [Prod.mk.injEq] at e
    exact ⟨e.2, r, hr, generic, e.1.symm⟩
  · rintro ⟨rfl, r, hr, generic, rfl⟩
    obtain ⟨ss, hss, declared⟩ := exists_of_mapM h hr
    obtain ⟨s, hs, head⟩ := (typeHead_iff_of_zod language declared).2 ⟨generic, rfl⟩
    exact ⟨s, List.mem_flatten.2 ⟨ss, hss, hs⟩, head⟩

/-- **Aliases.** In a document with all records, each name in the type of a recursive schema is that of a
record. A type of this name, with as many parameters as there are arguments, is declared in the document
exactly if the record has no parameters and gets no arguments. -/
theorem alias_names_declared_iff (own : x.types.OwnIds) (language : x.config.language = .zod) {text : String}
    (h : x.text = .ok text) : ∃ sss, x.types.records.mapM x.statements = .ok sss ∧
      text = x.documentText x.types.records [] sss ∧
      ∀ n ps type, .typeAlias n ps type ∈ sss.flatten →
        ∀ target name arguments, type.Holds (.named target name arguments) →
          ∃ r ∈ x.types.records, r.id.key = target ∧ x.displayName r = name ∧
            ((∃ s ∈ sss.flatten, s.typeHead? = some (name, arguments.length)) ↔
              r.isGeneric = false ∧ arguments = []) := by
  obtain ⟨layout, names, document⟩ := text_eq_ok h
  rw [Export.document, if_neg (by rw [language]; decide), scriptDocument_eq] at document
  obtain ⟨sss, all, rfl⟩ := map_eq_ok.1 document
  refine ⟨sss, all, rfl, fun n ps type hs target name arguments ht => ?_⟩
  obtain ⟨ss, hss, hs⟩ := List.mem_flatten.1 hs
  obtain ⟨q, -, declared⟩ := exists_of_mem_results all hss
  have rendered := typeExpr_of_mem_statements declared hs
  obtain ⟨r, hr, hk, hn⟩ := (formed_typeExpr (covers_ofRecords x q.shape) rendered).names ht
  refine ⟨r, hr, hk, hn, ?_⟩
  rw [typeHead_document_iff language all, List.length_eq_zero_iff]
  constructor
  · rintro ⟨none, t, ht, generic, e⟩
    -- The names in a document differ, so no other record has this one.
    rw [← List.inj_on_of_nodup_map (nodup_displayName own layout names) ht hr (e.trans hn.symm)]
    exact ⟨generic, none⟩
  · rintro ⟨generic, none⟩
    exact ⟨none, r, hr, generic, hn⟩

/-! ## A record with parameters in a recursive one

`Tree` refers to itself inside a `Box`, for which there is only a function. -/

namespace Trees

def box : Record where
  id := ⟨⟨.static, 1⟩, "Box"⟩
  name := "Box"
  shape := .struct "Box" (.named none [{ name := "v", ty := .placeholder "T" }])
  parameters := ["T"]

def treeId : TypeId := ⟨⟨.static, 2⟩, "Tree"⟩

def tree : Record where
  id := treeId
  name := "Tree"
  shape := .struct "Tree" (.named none
    [{ name := "children", ty := .list (.reference box.id [.reference treeId []]) none false }])

def trees : Export := ⟨{ language := .zod }, .ofRecords [box, tree]⟩

theorem ownIds : trees.types.OwnIds := Collection.ownIds_ofRecords _

theorem records_trees : trees.types.records = [box, tree] := by
  have sorted : List.Pairwise (fun a b => Record.le a b) [box, tree] := by decide
  exact List.mergeSort_of_pairwise sorted

def boxStatements : List Statement :=
  [.builder "Box" ["T"] false (.object [{ key := "v", schema := .parameter "T" }])]

def treeType : TypeExpr :=
  .object [{ key := "children", type := .array (.named box.id.key "Box" [.named treeId.key "Tree" []]) }]

def treeSchema : Zod.Schema :=
  .object [{ key := "children", schema := .array (.lazy box.id.key "Box" [.lazy treeId.key "Tree" []]) }]

def treeStatements : List Statement := [.typeAlias "Tree" [] treeType, .constant "Tree" true treeSchema]

theorem typeExpr_tree : trees.typeExpr ["Tree"] tree.shape = .ok treeType := by
  have element (path : Path) : trees.typeExpr path (.reference box.id [.reference treeId []]) =
      .ok (.named box.id.key "Box" [.named treeId.key "Tree" []]) := by cbv
  rw [tree, typeExpr, bodyExpr, memberExprs, if_neg (by decide), typeExpr, element, memberExprs]
  rfl

theorem statements_trees : trees.types.records.mapM trees.statements = .ok [boxStatements, treeStatements] := by
  have boxes : trees.statements box = .ok boxStatements := by cbv
  have nodes : trees.statements tree = .ok treeStatements := by
    have schema : trees.schema ["Tree"] tree.shape = .ok treeSchema := by cbv
    have recursive : trees.types.reachesItself tree = true := by cbv
    rw [statements, if_pos (show trees.config.language = .zod from rfl)]
    refine bind_eq_ok.2 ⟨treeSchema, schema, ?_⟩
    rw [if_neg (by decide), recursive, if_pos rfl]
    exact bind_eq_ok.2 ⟨treeType, typeExpr_tree, rfl⟩
  rw [records_trees]
  exact mapM_eq_ok.2 (.cons boxes (.cons nodes .nil))

theorem text_trees : trees.text = .ok (trees.documentText [box, tree] [] [boxStatements, treeStatements]) := by
  have prepared : trees.prepare = .ok () :=
    prepare_of_records records_trees (by cbv) (fun _ => by cbv) (by decide) (by decide)
  have rendered := statements_trees
  rw [records_trees] at rendered
  exact text_of_statements (by decide) (by decide) records_trees prepared rendered

/-- The type of `Tree` mentions `Box` with an argument, and the document declares no type of this name. -/
theorem box_not_declared : ∃ text sss, trees.text = .ok text ∧
    trees.types.records.mapM trees.statements = .ok sss ∧
    text = trees.documentText trees.types.records [] sss ∧ .typeAlias "Tree" [] treeType ∈ sss.flatten ∧
    treeType.Holds (.named box.id.key "Box" [.named treeId.key "Tree" []]) ∧
    ∀ s ∈ sss.flatten, ∀ parameters, s.typeHead? ≠ some ("Box", parameters) := by
  refine ⟨_, _, text_trees, statements_trees, by rw [records_trees], ?_, ?_, ?_⟩
  · exact List.mem_cons_of_mem _ List.mem_cons_self
  · exact .child List.mem_cons_self (.child List.mem_cons_self (.here _))
  · simp [boxStatements, treeStatements, Statement.typeHead?]

/-- `Tree` is declared with the number of arguments that it gets, and `Box` is not. -/
theorem alias_names_declared_tree : ∃ text sss, trees.text = .ok text ∧
    trees.types.records.mapM trees.statements = .ok sss ∧
    (∃ s ∈ sss.flatten, s.typeHead? = some ("Tree", 0)) ∧ ¬ ∃ s ∈ sss.flatten, s.typeHead? = some ("Box", 1) := by
  obtain ⟨sss, all, -, declared⟩ := alias_names_declared_iff ownIds rfl text_trees
  obtain rfl := Except.ok.inj (all.symm.trans statements_trees)
  have written : .typeAlias "Tree" [] treeType ∈ [boxStatements, treeStatements].flatten :=
    List.mem_cons_of_mem _ List.mem_cons_self
  have boxed : treeType.Holds (.named box.id.key "Box" [.named treeId.key "Tree" []]) :=
    .child List.mem_cons_self (.child List.mem_cons_self (.here _))
  have inside : treeType.Holds (.named treeId.key "Tree" []) :=
    .child List.mem_cons_self (.child List.mem_cons_self (.child List.mem_cons_self (.here _)))
  obtain ⟨t, ht, hk, -, iff⟩ := declared _ _ _ written _ _ _ inside
  obtain ⟨_, -, -, -, iff'⟩ := declared _ _ _ written _ _ _ boxed
  refine ⟨_, _, text_trees, statements_trees, iff.2 ⟨?_, rfl⟩, fun h => ?_⟩
  · have plain : ∀ r ∈ [box, tree], r.id.key = treeId.key → r.isGeneric = false := by decide
    rw [records_trees] at ht
    exact plain t ht hk
  · cases (iff'.1 h).2

end Trees

end Export

end ShapeExport
