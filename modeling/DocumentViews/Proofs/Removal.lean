import DocumentViews.Proofs.ReadBack

set_option autoImplicit false

namespace DocumentViews

section Kind

variable {δ γ : Type} [Definition δ γ]

namespace Catalog

-- Nothing is left of an id; every other one has its definition, generator, names and mark.
structure Drops (id : UInt32) (before after : Catalog δ γ) : Prop where
  definition : after.get? (.id id) = none
  generator : after.generator? (.id id) = none
  unnamed : ∀ name, after.resolve (.name name) ≠ some id
  unmarked : after.isNew id = false
  spares : before.Spares id after

variable {catalog : Catalog δ γ} {id : UInt32}

theorem remove_found (catalog : Catalog δ γ) (id : UInt32) : (catalog.remove id).find? (.id id) = none := by
  rw [find_by_id, remove, SortedMap.get_erase, if_pos rfl]

theorem remove_marks (catalog : Catalog δ γ) (id other : UInt32) :
    (catalog.remove id).isNew other = if other = id then false else catalog.isNew other := by
  simp only [isNew, SortedMap.contains, remove, SortedMap.get_erase]
  split <;> rfl

theorem Consistent.drops [LawfulDefinition δ γ] (consistent : catalog.Consistent) (id : UInt32) :
    Drops id catalog (catalog.remove id) where
  definition := by rw [get?, remove_found, Option.map_none]
  generator := by rw [generator?, remove_found, Option.map_none]
  unnamed name := by
    rw [resolve, Catalog.remove, consistent.get_release_names]
    split
    next => rintro ⟨⟩
    next other => exact other
  unmarked := by rw [remove_marks, if_pos rfl]
  spares := by
    refine spares_of_entries consistent (consistent.remove id) (fun other different => ?_) fun other different => ?_
    · rw [Catalog.remove, SortedMap.get_erase, if_neg different]
    · rw [remove_marks, if_neg different]

end Catalog

namespace Shelf

variable {id : UInt32}

theorem remove_absent (shelf : Shelf δ γ) (absent : shelf.catalog.isLive id = false) : shelf.remove id = (.ok false, shelf) := by
  simp only [remove, absent, Bool.false_eq_true, if_false]

theorem remove_answered (shelf : Shelf δ γ) (live : shelf.catalog.isLive id = true) :
    (shelf.remove id).1 = .ok true ∨ ∃ file, (shelf.remove id).1 = .error (.persistence file) := by
  simp only [remove, if_pos live, Archive.delete]
  split
  next => exact .inl rfl
  next =>
    split
    next => exact .inr ⟨_, rfl⟩
    next => exact .inl rfl

theorem remove_drops [LawfulDefinition δ γ] (shelf : Shelf δ γ) (consistent : shelf.catalog.Consistent)
    (live : shelf.catalog.isLive id = true) :
    Catalog.Drops id shelf.catalog (shelf.remove id).2.catalog := by
  rw [remove_catalog, if_pos live]
  exact consistent.drops id

end Shelf

end Kind

namespace Registry

structure RemovesIndex (id : UInt32) (registry : Registry) : Prop where
  answered : (registry.removeIndex id).1 = .ok true ∨ ∃ file, (registry.removeIndex id).1 = .error (.persistence file)
  drops : Catalog.Drops id registry.indexes (registry.removeIndex id).2.indexes
  others : (registry.removeIndex id).2 = { registry with
    indexes := (registry.removeIndex id).2.indexes, archive := (registry.removeIndex id).2.archive }

structure RemovesTransformer (id : UInt32) (registry : Registry) : Prop where
  answered : (registry.removeTransformer id).1 = .ok true ∨
    ∃ file, (registry.removeTransformer id).1 = .error (.persistence file)
  drops : Catalog.Drops id registry.transformers (registry.removeTransformer id).2.transformers
  others : (registry.removeTransformer id).2 = { registry with
    transformers := (registry.removeTransformer id).2.transformers, archive := (registry.removeTransformer id).2.archive }

variable {registry : Registry} {id : UInt32}

theorem removes_index (consistent : registry.Consistent) (live : registry.indexes.isLive id = true) :
    RemovesIndex id registry where
  answered := Shelf.remove_answered registry.indexShelf live
  drops := Shelf.remove_drops registry.indexShelf consistent.1 live
  others := by
    have sameIds : (registry.indexShelf.remove id).2.ids = registry.ids := Shelf.remove_ids id registry.indexShelf
    simp only [removeIndex, onIndexes, withIndexShelf, sameIds]

theorem removes_transformer (consistent : registry.Consistent) (live : registry.transformers.isLive id = true) :
    RemovesTransformer id registry where
  answered := Shelf.remove_answered registry.transformerShelf live
  drops := Shelf.remove_drops registry.transformerShelf consistent.2 live
  others := by
    have sameIds : (registry.transformerShelf.remove id).2.ids = registry.ids :=
      Shelf.remove_ids id registry.transformerShelf
    simp only [removeTransformer, onTransformers, withTransformerShelf, sameIds]

theorem remove_index_absent (absent : registry.indexes.isLive id = false) :
    registry.removeIndex id = (.ok false, registry) := by
  rw [removeIndex, onIndexes, Shelf.remove_absent registry.indexShelf absent]
  rfl

theorem remove_transformer_absent (absent : registry.transformers.isLive id = false) :
    registry.removeTransformer id = (.ok false, registry) := by
  rw [removeTransformer, onTransformers, Shelf.remove_absent registry.transformerShelf absent]
  rfl

/-- Wherever a run of a registry leads, nothing leads to a removed id any more, also where its file could not be removed, and
all other ids keep what they have. Under an id that is not live nothing is removed. -/
theorem opened_run_removes {settings : RegistrySettings} {extensions : Extensions} {storage : ResultStorage} {disk : Disk}
    {opened : Registry} (started : openOn settings extensions storage disk = .ok opened) (events : List Event)
    (id : UInt32) :
    ((opened.run events).indexes.isLive id = true → RemovesIndex id (opened.run events)) ∧
      ((opened.run events).indexes.isLive id = false →
        (opened.run events).removeIndex id = (.ok false, opened.run events)) ∧
      ((opened.run events).transformers.isLive id = true → RemovesTransformer id (opened.run events)) ∧
      ((opened.run events).transformers.isLive id = false →
        (opened.run events).removeTransformer id = (.ok false, opened.run events)) := by
  have consistent : (opened.run events).Consistent := run_consistent (open_on_consistent started) events
  exact ⟨removes_index consistent, remove_index_absent, removes_transformer consistent, remove_transformer_absent⟩

-- The name that the first index was compiled under is held by the second one by now.
theorem opened_run_removes_renamed :
    let dogs : IndexDefinition := .ofSingleMap "Dogs" "from d in docs select new \x7b d.Name \x7d"
    let events : List Event := [.createIndex dogs, .updateIndex { dogs with id := 1, name := "Cats" }, .createIndex dogs]
    ∃ opened, openOn .standard .builtins .empty .absent = .ok opened ∧ RemovesIndex 1 (opened.run events) ∧
      ((opened.run events).indexes.generator? (.id 1)).map (·.name) = some "Dogs" ∧
      ((opened.run events).removeIndex 1).2.indexes.resolve (.name "Dogs") = some 2 ∧
      ((opened.run events).removeIndex 1).2.indexes.resolve (.name "Cats") = none := by
  intro dogs events
  have started : openOn .standard .builtins .empty .absent = .ok (fresh .standard .builtins .empty) :=
    open_on_empty rfl _ _ rfl
  have removes := (opened_run_removes started events 1).1 (by decide +kernel)
  refine ⟨_, started, removes, ?_, ?_, ?_⟩
  · decide +kernel
  · decide +kernel
  · decide +kernel

end Registry
end DocumentViews
