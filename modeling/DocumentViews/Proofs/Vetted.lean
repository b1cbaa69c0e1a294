import DocumentViews.Proofs.Entries
import DocumentViews.Proofs.Similar

set_option autoImplicit false

namespace DocumentViews

open LawfulDefinition

section Kind

variable {δ γ : Type} [Definition δ γ]

structure Vetted (definition : δ) : Prop where
  prepared : Definition.prepare definition = definition
  named : Blank.isBlankText (Definition.name definition) = false

def Rules.vetted (δ : Type) {γ : Type} [Definition δ γ] : Rules δ where
  compiles := Vetted
  replaces stored definition := Vetted definition ∧ Definition.equivalent .relaxed stored definition = true
  keepsFiles := True
  removes _ := True

variable [LawfulDefinition δ γ] {extensions : Extensions}

def Drifts : δ → δ → Prop :=
  Relation.ReflTransGen fun one other => Definition.equivalent .relaxed one other = true ∨ bare one = bare other

theorem vetted_filled {definition : δ} (vetted : Vetted definition) (generator : γ) :
    Vetted (Definition.fill definition generator) where
  prepared := by rw [prepare_fill, vetted.prepared]
  named := by
    rw [name_fill]
    exact vetted.named

-- The generator is that of a definition which the live one has drifted from.
structure CatalogEntry.Kept (extensions : Extensions) (entry : CatalogEntry δ γ) : Prop where
  vetted : Vetted entry.definition
  source : ∃ source, Definition.compile extensions source = .ok entry.generator ∧ Drifts source entry.definition

def Catalog.Kept (extensions : Extensions) (catalog : Catalog δ γ) : Prop :=
  ∀ id entry, catalog.entries.get? id = some entry → entry.Kept extensions

-- What is compiled is its own source, and an update drifts on from what it replaces.
theorem vetted_invariant :
    EntryInvariant (.vetted δ) extensions fun _ (entry : CatalogEntry δ γ) => entry.Kept extensions where
  compiled {definition generator} vetted compiled _ :=
    ⟨vetted_filled vetted generator, definition, compiled, .single (.inr (bare_fill definition generator).symm)⟩
  replaced allowed kept := by
    obtain ⟨vetted, equivalent⟩ := allowed
    obtain ⟨source, compiled, drifts⟩ := kept.source
    exact ⟨vetted, source, compiled, drifts.tail (.inl equivalent)⟩
  filled kept := by
    obtain ⟨source, compiled, drifts⟩ := kept.source
    exact ⟨vetted_filled kept.vetted _, source, compiled, drifts.tail (.inr (bare_fill _ _).symm)⟩

namespace Shelf

variable {shelf : Shelf δ γ} {definition : δ}

theorem classified_prepared (definition : δ) (shelf : Shelf δ γ) :
    Definition.prepare (shelf.classify definition).2 = (shelf.classify definition).2 := by
  obtain ⟨id, classified⟩ := shelf.classified_withId definition
  rw [classified, prepare_withId, prepare_prepare]

theorem classified_vetted (named : Blank.isBlankText (Definition.name definition) = false) :
    Vetted (shelf.classify definition).2 where
  prepared := shelf.classified_prepared definition
  named := by
    obtain ⟨id, classified⟩ := shelf.classified_withId definition
    rwa [classified, name_withId, name_prepare]

theorem vetted_again {one : δ} (vetted : Vetted one) (id : UInt32) :
    Vetted (Definition.prepare (Definition.withId id one)) where
  prepared := prepare_prepare _
  named := by
    rw [name_prepare, name_withId]
    exact vetted.named

theorem classified_equivalent (consistent : shelf.catalog.Consistent)
    (kept : (shelf.classify definition).1 = .updateWithoutRecompile) {entry : CatalogEntry δ γ}
    (found : shelf.catalog.entries.get? (Definition.id (shelf.classify definition).2) = some entry) :
    Definition.equivalent .relaxed entry.definition (shelf.classify definition).2 = true := by
  cases named : shelf.catalog.names.get? (foldName (Definition.name definition)) with
  | none =>
      have unknown : shelf.catalog.find? (.name (Definition.name definition)) = none := by
        rw [Catalog.find_by_name, named, Option.bind_none]
      rw [classify_unknown unknown] at kept
      cases kept
  | some id =>
      obtain ⟨holder, held, _⟩ := (consistent.names_exact _ id).mp named
      rw [classify_held consistent named held] at kept found ⊢
      rw [id_withId, held] at found
      cases found
      rcases Change.between_kept (.inr kept) with ⟨noop, _⟩ | ⟨_, equivalent⟩
      · cases kept.symm.trans noop
      · exact equivalent

end Shelf

end Kind

-- The operations that classify the definitions they are given, and whatever takes no
-- definition.
def Event.isVetted : Event → Bool
  | createIndex _ => false
  | addIndex _ => false
  | updateIndex _ => false
  | createTransformer _ => false
  | addTransformer _ => false
  | updateTransformer _ => false
  | meddle _ => false
  | _ => true

theorem Event.vetted_keeps_files {event : Event} (vetted : event.isVetted = true) : event.keepsFiles = true := by
  cases event <;> first | rfl | cases vetted

def RunRules.vetted : RunRules := ⟨.vetted _, .vetted _, True⟩

namespace Registry

theorem name_checked {name : String} (passed : checkName name = .ok ()) : Blank.isBlankText name = false := by
  simp only [checkName] at passed
  split at passed
  · cases passed
  next named => exact Bool.not_eq_true _ ▸ named

theorem promoted_prepared {definition : IndexDefinition} (prepared : definition.resolveAnalyzers = definition)
    (newName : String) : (promoted newName definition).resolveAnalyzers = promoted newName definition := by
  change { promoted newName definition with analyzers := definition.resolveAnalyzers.analyzers } = _
  rw [prepared]
  rfl

structure Kept (registry : Registry) : Prop where
  indexes : registry.indexes.Kept registry.extensions
  transformers : registry.transformers.Kept registry.extensions

theorem allows_vetted {registry : Registry} (consistent : registry.Consistent) (kept : registry.Kept) {event : Event}
    (vetted : event.isVetted = true) : registry.Allows .vetted event := by
  cases event with
  | putIndex caller definition =>
      intro passed
      have candidate : Vetted (registry.classifyIndex definition).2 := Shelf.classified_vetted (name_checked passed)
      refine ⟨Shelf.vetted_again candidate, fun change entry found => ⟨candidate, ?_⟩⟩
      have shelf : registry.indexShelf.catalog.Consistent := consistent.1
      exact Shelf.classified_equivalent shelf change found
  | putTransformer definition =>
      intro passed
      have candidate : Vetted (registry.classifyTransformer definition).2 := Shelf.classified_vetted (name_checked passed)
      refine ⟨Shelf.vetted_again candidate, fun change entry found => ⟨candidate, ?_⟩⟩
      have shelf : registry.transformerShelf.catalog.Consistent := consistent.2
      exact Shelf.classified_equivalent shelf change found
  | replaceIndex caller oldName newName =>
      intro passed definition found
      obtain ⟨id, entry, _, held, rfl⟩ := Catalog.live_of_name found
      exact ⟨promoted_prepared (kept.indexes id entry held).vetted.prepared newName, name_checked passed⟩
  | createIndex => cases vetted
  | addIndex => cases vetted
  | updateIndex => cases vetted
  | createTransformer => cases vetted
  | addTransformer => cases vetted
  | updateTransformer => cases vetted
  | meddle => cases vetted
  | deleteIndex caller name => exact fun _ _ => trivial
  | deleteTransformer name => exact fun _ _ => trivial
  | _ => trivial

theorem comes_from_kept {before after : Registry} (kept : before.Kept) (chain : ComesFrom .vetted before after) :
    after.Kept where
  indexes := by
    rw [comes_from_extensions chain]
    exact comes_from_all_indexes trivial vetted_invariant kept.indexes chain
  transformers := by
    rw [comes_from_extensions chain]
    exact comes_from_all_transformers trivial vetted_invariant kept.transformers chain

theorem fresh_kept (settings : RegistrySettings) (extensions : Extensions) (storage : ResultStorage) :
    (fresh settings extensions storage).Kept where
  indexes _ _ found := by cases found
  transformers _ _ found := by cases found

theorem run_kept {registry : Registry} (consistent : registry.Consistent) (kept : registry.Kept) {events : List Event}
    (vetted : ∀ event ∈ events, event.isVetted = true) : (registry.run events).Kept := by
  have both := @run_keeps (fun registry => registry.Consistent ∧ registry.Kept) (fun event => event.isVetted = true)
    (fun registry event allowed holds =>
      ⟨comes_from_consistent holds.1 (perform_comes_from (registry.allows_lenient event)),
        comes_from_kept holds.2 (perform_comes_from (allows_vetted holds.1 holds.2 allowed))⟩)
    registry ⟨consistent, kept⟩ events vetted
  exact both.2

end Registry
end DocumentViews
