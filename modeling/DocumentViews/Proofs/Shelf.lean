import DocumentViews.Proofs.Catalog
import DocumentViews.Shelf.Loading

set_option autoImplicit false

namespace DocumentViews

-- What a run abides by: the definitions that are compiled, the definitions that are put in
-- the place of others without being compiled, whether whatever changes a catalog writes
-- files too, and the ids that are removed.
structure Rules (δ : Type) where
  compiles : δ → Prop
  replaces : δ → δ → Prop
  keepsFiles : Prop
  removes : UInt32 → Prop

namespace Rules

def lenient (δ : Type) : Rules δ := ⟨fun _ => True, fun _ _ => True, False, fun _ => True⟩

def filed (δ : Type) : Rules δ := ⟨fun _ => True, fun _ _ => True, True, fun _ => True⟩

end Rules

namespace Shelf

variable {δ γ : Type} [Definition δ γ]

def relist (shelf : Shelf δ γ) (catalog : Catalog δ γ) : Shelf δ γ := { shelf with catalog }.refreshListing

@[simp] theorem relist_catalog (shelf : Shelf δ γ) (catalog : Catalog δ γ) : (shelf.relist catalog).catalog = catalog := rfl

@[simp] theorem persist_catalog (shelf : Shelf δ γ) (definition : δ) :
    (shelf.persist definition).2.catalog = shelf.catalog := rfl

inductive Step (rules : Rules δ) (extensions : Extensions) (shelf : Shelf δ γ) : Shelf δ γ → Prop
  | counted (ids : IdCounter) : Step rules extensions shelf { shelf with ids }
  | compiled {definition : δ} {generator : γ} {catalog : Catalog δ γ} :
      rules.compiles definition → Definition.compile extensions definition = .ok generator →
        shelf.catalog.install (Definition.fill definition generator) generator = .ok catalog →
          Step rules extensions shelf ((shelf.relist catalog).persist (Definition.fill definition generator)).2
  | replaced {definition : δ} {catalog : Catalog δ γ} :
      (∀ entry, shelf.catalog.entries.get? (Definition.id definition) = some entry →
        rules.replaces entry.definition definition) → shelf.catalog.replaceDefinition definition = .ok catalog →
          Step rules extensions shelf ((shelf.relist catalog).persist definition).2
  | removed {id : UInt32} : rules.removes id → Step rules extensions shelf (shelf.remove id).2
  | filled (key : DefinitionKey) : Step rules extensions shelf { shelf with catalog := (shelf.catalog.fill key).2 }
  | marked (id : UInt32) : Step rules extensions shelf { shelf with catalog := (shelf.catalog.markNew id).2 }
  | added {definition : δ} {generator : γ} {catalog : Catalog δ γ} :
      ¬ rules.keepsFiles → Definition.compile extensions definition = .ok generator →
        shelf.catalog.install (Definition.fill definition generator) generator = .ok catalog →
          Step rules extensions shelf (shelf.relist catalog)
  | addedAgain {definition : δ} {catalog : Catalog δ γ} :
      ¬ rules.keepsFiles → shelf.catalog.replaceDefinition definition = .ok catalog →
        Step rules extensions shelf (shelf.relist catalog)

abbrev ComesFrom (rules : Rules δ) (extensions : Extensions) (before after : Shelf δ γ) : Prop :=
  Relation.ReflTransGen (Step rules extensions) before after

theorem identify_counts (definition : δ) (shelf : Shelf δ γ) :
    ∃ ids, (shelf.identify definition).2 = { shelf with ids } := by
  simp only [identify]
  split <;> exact ⟨_, rfl⟩

section Operations

variable {rules : Rules δ} {extensions : Extensions}

theorem identify_comes_from (definition : δ) (shelf : Shelf δ γ) :
    ComesFrom rules extensions shelf (shelf.identify definition).2 := by
  simp only [identify]
  split <;> exact .single (.counted _)

theorem update_comes_from {definition : δ} {shelf : Shelf δ γ}
    (allowed : ∀ entry, shelf.catalog.entries.get? (Definition.id definition) = some entry →
      rules.replaces entry.definition definition) :
    ComesFrom rules extensions shelf (shelf.updateWithoutRecompile definition).2 := by
  simp only [updateWithoutRecompile]
  split
  · exact .refl
  next catalog replaced => exact .single (.replaced allowed replaced)

theorem add_comes_from (free : ¬ rules.keepsFiles) (definition : δ) (shelf : Shelf δ γ) :
    ComesFrom rules extensions shelf (shelf.add extensions definition).2 := by
  unfold add
  split
  · split
    · exact .refl
    next catalog replaced => exact .single (.addedAgain free replaced)
  · apply (identify_comes_from definition shelf).trans
    dsimp only
    split
    · exact .refl
    next filled catalog compiled =>
      obtain ⟨generator, found, rfl, accepted⟩ := Catalog.compile_into_ok compiled
      exact .single (.added free found accepted)

variable [LawfulDefinition δ γ]

theorem identified (definition : δ) (shelf : Shelf δ γ) :
    ∃ id, (shelf.identify definition).1 = Definition.withId id definition := by
  simp only [identify]
  split
  · exact ⟨_, rfl⟩
  · exact ⟨Definition.id definition, (LawfulDefinition.withId_id definition).symm⟩

theorem create_and_persist_comes_from (definition : δ) (shelf : Shelf δ γ)
    (allowed : ∀ id, rules.compiles (Definition.prepare (Definition.withId id definition))) :
    ComesFrom rules extensions shelf (shelf.createAndPersist extensions definition).2 := by
  obtain ⟨id, known⟩ := identified definition shelf
  apply (identify_comes_from definition shelf).trans
  rw [createAndPersist]
  dsimp only
  split
  · exact .refl
  next installed catalog compiled =>
    obtain ⟨generator, found, rfl, accepted⟩ := Catalog.compile_into_ok compiled
    rw [known] at found accepted ⊢
    exact .single (.compiled (allowed id) found accepted)

theorem create_comes_from (marksNew : Bool) (definition : δ) (shelf : Shelf δ γ)
    (allowed : ∀ id, rules.compiles (Definition.prepare (Definition.withId id definition))) :
    ComesFrom rules extensions shelf (shelf.create extensions marksNew definition).2 := by
  unfold create
  have counted : ComesFrom rules extensions shelf { shelf with ids := shelf.ids.allocate.2 } := .single (.counted _)
  refine counted.trans ((create_and_persist_comes_from (Definition.withId shelf.ids.allocate.1 definition) _ ?_).trans ?_)
  · simpa using allowed
  · dsimp only
    split
    · exact .single (.marked _)
    · exact .refl

theorem carry_out_comes_from (marksNew : Bool) {change : Change} {definition : δ} {shelf : Shelf δ γ}
    (compiles : ∀ id, rules.compiles (Definition.prepare (Definition.withId id definition)))
    (replaces : change = .updateWithoutRecompile →
      ∀ entry, shelf.catalog.entries.get? (Definition.id definition) = some entry →
        rules.replaces entry.definition definition) :
    ComesFrom rules extensions shelf (shelf.carryOut extensions marksNew change definition).2 := by
  cases change with
  | noop => exact .refl
  | updateWithoutRecompile => exact update_comes_from (replaces rfl)
  | update => exact create_and_persist_comes_from definition shelf compiles
  | create => exact create_comes_from marksNew definition shelf compiles

end Operations

theorem remove_catalog (id : UInt32) (shelf : Shelf δ γ) :
    (shelf.remove id).2.catalog = if shelf.catalog.isLive id then shelf.catalog.remove id else shelf.catalog := by
  simp only [remove]
  split <;> rfl

section Classifying

variable [LawfulDefinition δ γ] {shelf : Shelf δ γ} {definition : δ}

theorem classified_withId (definition : δ) (shelf : Shelf δ γ) :
    ∃ id, (shelf.classify definition).2 = Definition.withId id (Definition.prepare definition) := by
  unfold classify Change.classify
  dsimp only
  split
  · exact ⟨_, (LawfulDefinition.withId_id _).symm⟩
  · exact ⟨_, rfl⟩

theorem classify_unknown (unknown : shelf.catalog.find? (.name (Definition.name definition)) = none) :
    shelf.classify definition = (.create, Definition.prepare definition) := by
  rw [classify, LawfulDefinition.name_prepare, Catalog.get?, unknown]
  rfl

theorem classify_held (consistent : shelf.catalog.Consistent) {id : UInt32} {entry : CatalogEntry δ γ}
    (named : shelf.catalog.names.get? (foldName (Definition.name definition)) = some id)
    (found : shelf.catalog.entries.get? id = some entry) :
    shelf.classify definition = (Change.between entry.definition (Definition.withId id (Definition.prepare definition)),
      Definition.withId id (Definition.prepare definition)) := by
  have current : shelf.catalog.get? (.name (Definition.name definition)) = some entry.definition := by
    rw [Catalog.get?, Catalog.find_by_name, named, Option.bind_some, found]
    rfl
  rw [classify, LawfulDefinition.name_prepare, current, Change.classify, consistent.definition_id found]

end Classifying

theorem step_changes {rules : Rules δ} {extensions : Extensions} {shelf next : Shelf δ γ}
    (step : Step rules extensions shelf next) : Catalog.ComesFrom extensions shelf.catalog next.catalog := by
  cases step with
  | counted ids => exact .refl
  | compiled _ compiled installed => exact .single (.installed compiled installed)
  | replaced _ replaced => exact .single (.replaced replaced)
  | @removed id _ =>
      rw [remove_catalog]
      split
      · exact .single (.removed id)
      · exact .refl
  | filled key => exact .single (.filled key)
  | marked id => exact .single (.marked id)
  | added _ compiled installed => exact .single (.installed compiled installed)
  | addedAgain _ replaced => exact .single (.replaced replaced)

end Shelf

namespace Loading

variable {δ γ : Type}

theorem note_skipped_counts (loading : Loading δ γ) (skipped : List Skipped) :
    ∃ ids, (loading.noteSkipped skipped).shelf = { loading.shelf with ids } := by
  have counted : ∀ (reserved : List UInt32) (loading : Loading δ γ),
      ∃ ids, (reserved.foldl reserveThrough loading).shelf = { loading.shelf with ids } := by
    intro reserved
    induction reserved with
    | nil => exact fun loading => ⟨loading.shelf.ids, rfl⟩
    | cons id rest ih => exact fun loading => ih (loading.reserveThrough id)
  exact counted _ loading

theorem note_skipped_catalog (loading : Loading δ γ) (skipped : List Skipped) :
    (loading.noteSkipped skipped).shelf.catalog = loading.shelf.catalog := by
  obtain ⟨ids, counted⟩ := loading.note_skipped_counts skipped
  rw [counted]

theorem note_skipped_archive (loading : Loading δ γ) (skipped : List Skipped) :
    (loading.noteSkipped skipped).shelf.archive = loading.shelf.archive := by
  obtain ⟨ids, counted⟩ := loading.note_skipped_counts skipped
  rw [counted]

variable [Definition δ γ]

theorem make_way_changes {extensions : Extensions} (cleanUp : CleanUp) (definition : δ) (loading : Loading δ γ) :
    Catalog.ComesFrom extensions loading.shelf.catalog (loading.makeWay cleanUp definition).shelf.catalog := by
  simp only [makeWay]
  split
  · exact .refl
  next earlier _ =>
    split
    · exact .refl
    · have step : Shelf.Step (.lenient δ) extensions loading.shelf (loading.shelf.remove earlier).2 := .removed trivial
      exact Shelf.step_changes step

theorem install_changes {extensions : Extensions} (definition : δ) (loading : Loading δ γ) :
    Catalog.ComesFrom extensions loading.shelf.catalog (loading.install extensions definition).shelf.catalog := by
  unfold install
  dsimp only
  split
  next filled catalog compiled =>
    obtain ⟨generator, found, rfl, accepted⟩ := Catalog.compile_into_ok compiled
    exact .single (.installed found accepted)
  · exact .refl

theorem add_changes (extensions : Extensions) (cleanUp : CleanUp) (loading : Loading δ γ) (definition : δ) :
    Catalog.ComesFrom extensions loading.shelf.catalog (loading.add extensions cleanUp definition).shelf.catalog :=
  (make_way_changes cleanUp (Definition.prepare definition) (loading.reserveThrough _)).trans (install_changes _ _)

theorem of_archive_changes {extensions : Extensions} {cleanUp : CleanUp} {ids : IdCounter} {archive : Archive}
    {storage : ResultStorage} {loading : Loading δ γ}
    (loaded : ofArchive extensions cleanUp ids archive storage = .ok loading) :
    Catalog.ComesFrom extensions .empty loading.shelf.catalog := by
  obtain ⟨listing, _, rest⟩ := bind_ok loaded
  cases rest
  have folded : ∀ (definitions : List δ) (loading : Loading δ γ), Catalog.ComesFrom extensions loading.shelf.catalog
      (definitions.foldl (add extensions cleanUp) loading).shelf.catalog := by
    intro definitions
    induction definitions with
    | nil => exact fun _ => .refl
    | cons definition rest ih => exact fun loading => (add_changes extensions cleanUp loading definition).trans (ih _)
  have started := folded listing.definitions ((start ids archive storage).noteSkipped listing.skipped)
  rwa [note_skipped_catalog] at started

end Loading
end DocumentViews
