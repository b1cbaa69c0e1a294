import DocumentViews.Proofs.Run

set_option autoImplicit false

namespace DocumentViews

section Kind

variable {δ γ : Type} [Definition δ γ]

namespace Catalog

def All (holds : UInt32 → CatalogEntry δ γ → Prop) (catalog : Catalog δ γ) : Prop :=
  ∀ id entry, catalog.entries.get? id = some entry → holds id entry

variable {catalog : Catalog δ γ} {holds : UInt32 → CatalogEntry δ γ → Prop}

omit [Definition δ γ] in
theorem All.insert (all : catalog.All holds) {id : UInt32} {entry : CatalogEntry δ γ} (held : holds id entry)
    {next : Catalog δ γ} (entries : next.entries = catalog.entries.insert id entry) : next.All holds := by
  intro other found present
  rw [entries] at present
  exact SortedMap.insert_keeps all present held

theorem All.remove (all : catalog.All holds) (id : UInt32) : (catalog.remove id).All holds := by
  intro other found present
  exact SortedMap.erase_keeps all present

end Catalog

structure EntryInvariant (rules : Rules δ) (extensions : Extensions) (holds : UInt32 → CatalogEntry δ γ → Prop) :
    Prop where
  compiled : ∀ {definition : δ} {generator : γ}, rules.compiles definition →
    Definition.compile extensions definition = .ok generator →
      ∀ stamp, holds (Definition.id definition) ⟨Definition.fill definition generator, generator, stamp⟩
  replaced : ∀ {entry : CatalogEntry δ γ} {definition : δ}, rules.replaces entry.definition definition →
    holds (Definition.id definition) entry → holds (Definition.id definition) { entry with definition }
  filled : ∀ {id : UInt32} {entry : CatalogEntry δ γ}, holds id entry →
    holds id { entry with definition := Definition.fill entry.definition entry.generator }

variable {rules : Rules δ} {extensions : Extensions} {holds : UInt32 → CatalogEntry δ γ → Prop}

theorem Catalog.All.place [LawfulDefinition δ γ] {catalog : Catalog δ γ} (all : catalog.All holds)
    (invariant : EntryInvariant rules extensions holds) {definition : δ} {generator : γ}
    (allowed : rules.compiles definition) (compiled : Definition.compile extensions definition = .ok generator) :
    (catalog.place (Definition.fill definition generator) generator).All holds := by
  have held := invariant.compiled allowed compiled catalog.installs
  rw [← LawfulDefinition.id_fill definition generator] at held
  exact all.insert held rfl

namespace Shelf

theorem remove_all {shelf : Shelf δ γ} (all : shelf.catalog.All holds) (id : UInt32) :
    (shelf.remove id).2.catalog.All holds := by
  rw [remove_catalog]
  split
  · exact all.remove id
  · exact all

theorem step_all [LawfulDefinition δ γ] (filed : rules.keepsFiles)
    (invariant : EntryInvariant rules extensions holds) {shelf next : Shelf δ γ} (all : shelf.catalog.All holds)
    (step : Step rules extensions shelf next) : next.catalog.All holds := by
  cases step with
  | counted ids => exact all
  | compiled allowed compiled installed =>
      obtain ⟨_, _, rfl⟩ := Catalog.install_ok installed
      exact all.place invariant allowed compiled
  | replaced allowed replaced =>
      obtain ⟨entry, found, _, _, rfl⟩ := Catalog.replace_definition_ok replaced
      exact all.insert (invariant.replaced (allowed entry found) (all _ entry found)) rfl
  | @removed id _ => exact remove_all all id
  | filled key =>
      rcases shelf.catalog.fill_cases key with same | ⟨id, entry, found, filled⟩
      · rw [same]
        exact all
      · rw [filled]
        exact all.insert (invariant.filled (all id entry found)) rfl
  | marked id =>
      intro other entry found
      rw [Catalog.mark_new_entries] at found
      exact all other entry found
  | added unfiled => exact absurd filed unfiled
  | addedAgain unfiled => exact absurd filed unfiled

end Shelf

namespace Loading

variable [LawfulDefinition δ γ]

theorem add_all_entries (invariant : EntryInvariant rules extensions holds)
    (compiles : ∀ definition : δ, rules.compiles (Definition.prepare definition)) {loading : Loading δ γ}
    (all : loading.shelf.catalog.All holds) (cleanUp : CleanUp) (definition : δ) :
    (loading.add extensions cleanUp definition).shelf.catalog.All holds := by
  have reserved : (loading.reserveThrough (Definition.id (Definition.prepare definition))).shelf.catalog.All holds := all
  have way : ((loading.reserveThrough (Definition.id (Definition.prepare definition))).makeWay cleanUp
      (Definition.prepare definition)).shelf.catalog.All holds := by
    simp only [makeWay]
    split
    · exact reserved
    next earlier _ =>
      split
      · exact reserved
      · exact Shelf.remove_all reserved earlier
  unfold add install
  dsimp only
  split
  next filled catalog compiled =>
    obtain ⟨generator, found, rfl, accepted⟩ := Catalog.compile_into_ok compiled
    obtain ⟨_, _, rfl⟩ := Catalog.install_ok accepted
    exact way.place invariant (compiles definition) found
  · exact way

theorem of_archive_all (invariant : EntryInvariant rules extensions holds)
    (compiles : ∀ definition : δ, rules.compiles (Definition.prepare definition)) {cleanUp : CleanUp} {ids : IdCounter}
    {archive : Archive} {storage : ResultStorage} {loading : Loading δ γ}
    (loaded : ofArchive extensions cleanUp ids archive storage = .ok loading) : loading.shelf.catalog.All holds := by
  obtain ⟨listing, _, rest⟩ := bind_ok loaded
  cases rest
  have folded : ∀ (definitions : List δ) (loading : Loading δ γ), loading.shelf.catalog.All holds →
      (definitions.foldl (add extensions cleanUp) loading).shelf.catalog.All holds := by
    intro definitions
    induction definitions with
    | nil => exact fun _ all => all
    | cons definition rest ih =>
        exact fun _ all => ih _ (add_all_entries invariant compiles all cleanUp definition)
  apply folded
  rw [note_skipped_catalog]
  intro id entry found
  cases found

end Loading

end Kind

namespace Registry

variable {rules : RunRules} {registry next : Registry}

theorem step_all_indexes {holds : UInt32 → CatalogEntry IndexDefinition IndexGenerator → Prop}
    (filed : rules.indexes.keepsFiles) (invariant : EntryInvariant rules.indexes registry.extensions holds)
    (all : registry.indexes.All holds) (step : Step rules registry next) : next.indexes.All holds := by
  cases step with
  | indexes step =>
      have before : registry.indexShelf.catalog.All holds := all
      exact Shelf.step_all filed invariant before step
  | transformers step => exact all
  | @promoted definition generator displaced _ allowed compiled _ installed =>
      obtain ⟨_, _, _, rfl⟩ := Catalog.install_displacing_ok installed
      rw [withIndexShelf, persist_promoted_catalog, Shelf.relist_catalog]
      have cleared : (registry.indexes.cleared displaced).All holds := by
        cases displaced with
        | none => exact all
        | some holder => exact all.remove holder
      exact cleared.place invariant allowed compiled
  | around storage traffic => exact all
  | meddled disk _ => exact all

theorem step_all_transformers {holds : UInt32 → CatalogEntry TransformerDefinition TransformerGenerator → Prop}
    (filed : rules.transformers.keepsFiles) (invariant : EntryInvariant rules.transformers registry.extensions holds)
    (all : registry.transformers.All holds) (step : Step rules registry next) : next.transformers.All holds := by
  cases step with
  | indexes step => exact all
  | transformers step =>
      have before : registry.transformerShelf.catalog.All holds := all
      exact Shelf.step_all filed invariant before step
  | promoted _ _ _ _ => exact all
  | around storage traffic => exact all
  | meddled disk _ => exact all

theorem comes_from_all_indexes {holds : UInt32 → CatalogEntry IndexDefinition IndexGenerator → Prop}
    (filed : rules.indexes.keepsFiles) (invariant : EntryInvariant rules.indexes registry.extensions holds)
    (all : registry.indexes.All holds) (chain : ComesFrom rules registry next) : next.indexes.All holds := by
  induction chain with
  | refl => exact all
  | tail chain step ih =>
      rw [← comes_from_extensions chain] at invariant
      exact step_all_indexes filed invariant ih step

theorem comes_from_all_transformers {holds : UInt32 → CatalogEntry TransformerDefinition TransformerGenerator → Prop}
    (filed : rules.transformers.keepsFiles) (invariant : EntryInvariant rules.transformers registry.extensions holds)
    (all : registry.transformers.All holds) (chain : ComesFrom rules registry next) : next.transformers.All holds := by
  induction chain with
  | refl => exact all
  | tail chain step ih =>
      rw [← comes_from_extensions chain] at invariant
      exact step_all_transformers filed invariant ih step

end Registry
end DocumentViews
