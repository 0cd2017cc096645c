import ShapeExport.Layout
import ShapeExport.Proofs.Validation.Agreement

/-!
# Exports that agree

* `Export.SameOptions` : two exports have the same configuration up to the given representations;
* `Export.SameOptions.filePath`, `Export.SameOptions.specifier` : so their files have the same names, and name each
  other alike;
* `Export.Agrees` : besides, they have scopes that agree, and the same records in order.
-/

namespace ShapeExport.Export

/-- Nothing but the given representations differs in the configuration. -/
structure SameOptions (x y : Export) : Prop where
  config : ∃ o, y.config = { x.config with overrides := o }

/-- Nothing that a renderer asks for differs. -/
structure Agrees (x y : Export) : Prop extends SameOptions x y where
  scope : x.scope.Agrees y.scope
  records : x.types.records = y.types.records
  pending : x.types.pending = y.types.pending

theorem Agrees.refl (x : Export) : x.Agrees x where
  config := ⟨x.config.overrides, rfl⟩
  scope := ⟨fun _ => rfl, fun _ _ => rfl⟩
  records := rfl
  pending := rfl

namespace SameOptions

variable {x y : Export} (h : x.SameOptions y)
include h

/-- What does not depend on the overrides is the same for both. -/
theorem option {α : Type} (f : Config → α) (hf : ∀ c o, f { c with overrides := o } = f c) :
    f x.config = f y.config := by
  obtain ⟨o, ho⟩ := h.config
  rw [ho]
  exact (hf x.config o).symm

theorem language : x.config.language = y.config.language := h.option (·.language) fun _ _ => rfl

theorem commentStyle : x.config.commentStyle = y.config.commentStyle :=
  h.option (·.commentStyle) fun _ _ => rfl

theorem schemaVersion : x.config.schemaVersion = y.config.schemaVersion :=
  h.option (·.schemaVersion) fun _ _ => rfl

theorem displayName (r : Record) : x.displayName r = y.displayName r :=
  h.option (·.displayName r) fun _ _ => rfl

theorem isOptional {ν : Type} (f : Field ν Shape) : x.config.isOptional f = y.config.isOptional f :=
  h.option (·.isOptional f) fun _ _ => rfl

theorem bigIntAt (path : Path) : x.config.bigIntAt path = y.config.bigIntAt path :=
  h.option (·.bigIntAt path) fun _ _ => rfl

theorem filePath (r : Record) : x.filePath r = y.filePath r := by
  unfold Export.filePath
  rw [h.displayName, h.language]

theorem specifier (source target : Record) : x.specifier source target = y.specifier source target := by
  unfold Export.specifier
  rw [h.filePath, h.filePath, h.language]

end SameOptions

theorem Agrees.target {x y : Export} (h : x.Agrees y) (path : Path) (id : TypeId) :
    x.target path id = y.target path id :=
  h.scope.target path id

end ShapeExport.Export
