import DocumentViews.Proofs.Shelf
import DocumentViews.Registry

set_option autoImplicit false

namespace DocumentViews

inductive Event
  | createIndex (definition : IndexDefinition)
  | addIndex (definition : IndexDefinition)
  | putIndex (caller : Thread) (definition : IndexDefinition)
  | updateIndex (definition : IndexDefinition)
  | readIndex (key : DefinitionKey)
  | registerNew (key : DefinitionKey)
  | removeIndex (id : UInt32)
  | deleteIndex (caller : Thread) (name : String)
  | replaceIndex (caller : Thread) (oldName newName : String)
  | createTransformer (definition : TransformerDefinition)
  | addTransformer (definition : TransformerDefinition)
  | putTransformer (definition : TransformerDefinition)
  | updateTransformer (definition : TransformerDefinition)
  | removeTransformer (id : UInt32)
  | deleteTransformer (name : String)
  | allocateId
  | turn (move : Move)
  | failDeletes (fails : Bool)
  | meddle (disk : Disk)

-- Whether whatever the event changes in a catalog is written to files, and no other files
-- change.
def Event.keepsFiles : Event → Bool
  | addIndex _ => false
  | addTransformer _ => false
  | meddle _ => false
  | _ => true

structure RunRules where
  indexes : Rules IndexDefinition
  transformers : Rules TransformerDefinition
  keepsDisk : Prop

namespace RunRules

def lenient : RunRules := ⟨.lenient _, .lenient _, False⟩

def filed : RunRules := ⟨.filed _, .filed _, True⟩

end RunRules

namespace Registry

def perform (event : Event) (registry : Registry) : Except DefinitionError Unit × Registry :=
  match event with
  | .createIndex definition => answered (registry.createAndPersistIndex definition)
  | .addIndex definition => registry.addIndex definition
  | .putIndex caller definition => answered (registry.putIndex caller definition)
  | .updateIndex definition => registry.updateIndexWithoutRecompile definition
  | .readIndex key => (.ok (), (registry.indexDefinition key).2)
  | .registerNew key => (.ok (), (registry.registerNew key).2)
  | .removeIndex id => answered (registry.removeIndex id)
  | .deleteIndex caller name => answered (registry.deleteIndex caller name)
  | .replaceIndex caller oldName newName => answered (registry.replaceIndex caller oldName newName)
  | .createTransformer definition => answered (registry.createAndPersistTransformer definition)
  | .addTransformer definition => registry.addTransformer definition
  | .putTransformer definition => answered (registry.putTransformer definition)
  | .updateTransformer definition => registry.updateTransformerWithoutRecompile definition
  | .removeTransformer id => answered (registry.removeTransformer id)
  | .deleteTransformer name => answered (registry.deleteTransformer name)
  | .allocateId => (.ok (), registry.allocateId.2)
  | .turn move => (.ok (), { registry with traffic := (registry.traffic.advance move).getD registry.traffic })
  | .failDeletes fails => (.ok (), { registry with storage := registry.storage.failDeletes fails })
  | .meddle disk => (.ok (), { registry with archive := { registry.archive with disk } })
where
  answered {α : Type} (outcome : Except DefinitionError α × Registry) : Except DefinitionError Unit × Registry :=
    (outcome.1.map fun _ => (), outcome.2)

def run (registry : Registry) (events : List Event) : Registry :=
  events.foldl (fun registry event => (registry.perform event).2) registry

def putRefusal? (caller : Thread) (definition : IndexDefinition) (registry : Registry) : Option DefinitionError :=
  if Blank.isBlankText definition.name then some .emptyName
  else if (registry.classifyIndex definition).1.requiresCompile && !registry.traffic.gate.admits caller .administration then
    some (.gateTimeout registry.settings.administrationTimeout.toNat)
  else none

theorem put_index_eq (caller : Thread) (definition : IndexDefinition) (registry : Registry) :
    registry.putIndex caller definition = match registry.putRefusal? caller definition with
      | some error => (.error error, registry)
      | none => registry.onIndexes fun shelf => shelf.carryOut registry.extensions true
          (registry.classifyIndex definition).1 (registry.classifyIndex definition).2 := by
  by_cases blank : Blank.isBlankText definition.name = true
  · simp only [putIndex, checkName, putRefusal?, if_pos blank]
  · simp only [putIndex, checkName, putRefusal?, if_neg blank, administering]
    cases (registry.classifyIndex definition).1.requiresCompile with
    | false => rfl
    | true => cases registry.traffic.gate.admits caller .administration <;> rfl

inductive Step (rules : RunRules) (registry : Registry) : Registry → Prop
  | indexes {shelf : Shelf IndexDefinition IndexGenerator} :
      Shelf.Step rules.indexes registry.extensions registry.indexShelf shelf →
        Step rules registry (registry.withIndexShelf shelf)
  | transformers {shelf : Shelf TransformerDefinition TransformerGenerator} :
      Shelf.Step rules.transformers registry.extensions registry.transformerShelf shelf →
        Step rules registry (registry.withTransformerShelf shelf)
  | promoted {definition : IndexDefinition} {generator : IndexGenerator} {displaced : Option UInt32}
      {catalog : Catalog IndexDefinition IndexGenerator} :
      rules.indexes.compiles definition → definition.compile registry.extensions = .ok generator →
        displaced ≠ some definition.id →
          registry.indexes.installDisplacing (definition.fillFields generator) generator displaced = .ok catalog →
            Step rules registry (registry.withIndexShelf
              (persistPromoted displaced (definition.fillFields generator) (registry.indexShelf.relist catalog)).2)
  | around (storage : ResultStorage) (traffic : Traffic) : Step rules registry { registry with storage, traffic }
  | meddled (disk : Disk) :
      ¬ rules.keepsDisk → Step rules registry { registry with archive := { registry.archive with disk } }

abbrev ComesFrom (rules : RunRules) (before after : Registry) : Prop := Relation.ReflTransGen (Step rules) before after

section Operations

variable {rules : RunRules} {α : Type}

theorem on_indexes_comes_from (registry : Registry)
    {operation : Shelf IndexDefinition IndexGenerator →
      Except DefinitionError α × Shelf IndexDefinition IndexGenerator}
    (chain : Shelf.ComesFrom rules.indexes registry.extensions registry.indexShelf (operation registry.indexShelf).2) :
    ComesFrom rules registry (registry.onIndexes operation).2 := by
  have lifted : ∀ {shelf}, Shelf.ComesFrom rules.indexes registry.extensions registry.indexShelf shelf →
      ComesFrom rules registry (registry.withIndexShelf shelf) := by
    intro shelf chain
    induction chain with
    | refl => exact .refl
    | @tail between next _ step ih =>
        exact ih.tail (Step.indexes step : Step rules (registry.withIndexShelf between) _)
  exact lifted chain

theorem on_transformers_comes_from (registry : Registry)
    {operation : Shelf TransformerDefinition TransformerGenerator →
      Except DefinitionError α × Shelf TransformerDefinition TransformerGenerator}
    (chain : Shelf.ComesFrom rules.transformers registry.extensions registry.transformerShelf
      (operation registry.transformerShelf).2) :
    ComesFrom rules registry (registry.onTransformers operation).2 := by
  have lifted : ∀ {shelf}, Shelf.ComesFrom rules.transformers registry.extensions registry.transformerShelf shelf →
      ComesFrom rules registry (registry.withTransformerShelf shelf) := by
    intro shelf chain
    induction chain with
    | refl => exact .refl
    | @tail between next _ step ih =>
        exact ih.tail (Step.transformers step : Step rules (registry.withTransformerShelf between) _)
  exact lifted chain

theorem administering_comes_from (caller : Thread) (registry : Registry)
    {operation : Registry → Except DefinitionError α × Registry}
    (chain : ComesFrom rules registry (operation registry).2) :
    ComesFrom rules registry (registry.administering caller operation).2 := by
  simp only [administering]
  split
  · exact chain
  · exact .refl

theorem remove_index_comes_from {id : UInt32} (registry : Registry) (allowed : rules.indexes.removes id) :
    ComesFrom rules registry (registry.removeIndex id).2 :=
  on_indexes_comes_from registry (.single (.removed allowed))

theorem put_index_comes_from (caller : Thread) (definition : IndexDefinition) (registry : Registry)
    (allowed : checkName definition.name = .ok () →
      (∀ id, rules.indexes.compiles
        (Definition.prepare (Definition.withId id (registry.classifyIndex definition).2))) ∧
      ((registry.classifyIndex definition).1 = .updateWithoutRecompile →
        ∀ entry, registry.indexes.entries.get? (registry.classifyIndex definition).2.id = some entry →
          rules.indexes.replaces entry.definition (registry.classifyIndex definition).2)) :
    ComesFrom rules registry (registry.putIndex caller definition).2 := by
  unfold putIndex
  split
  · exact .refl
  next named =>
    obtain ⟨compiles, replaces⟩ := allowed named
    have carried : ComesFrom rules registry (registry.onIndexes fun shelf => shelf.carryOut registry.extensions true
        (registry.classifyIndex definition).1 (registry.classifyIndex definition).2).2 :=
      on_indexes_comes_from registry (Shelf.carry_out_comes_from true compiles replaces)
    dsimp only
    split
    · exact administering_comes_from caller registry carried
    · exact carried

-- The index that a deletion by name removes, if the gate lets the caller in and the storage
-- does not fail.
def deleted? (caller : Thread) (name : String) (registry : Registry) : Option UInt32 :=
  if registry.traffic.gate.admits caller .administration then
    (registry.indexes.resolve (.name name)).filter fun id => (registry.storage.deleteIndex id).1.isOk
  else none

theorem delete_index_comes_from (caller : Thread) (name : String) (registry : Registry)
    (allowed : ∀ id, registry.deleted? caller name = some id → rules.indexes.removes id) :
    ComesFrom rules registry (registry.deleteIndex caller name).2 := by
  unfold deleteIndex administering
  split
  next admitted =>
    dsimp only
    split
    · exact .refl
    next id resolved =>
      have told : ComesFrom rules registry { registry with storage := (registry.storage.deleteIndex id).2 } :=
        .single (.around _ registry.traffic)
      split
      · exact told
      next done =>
        have deleted : registry.deleted? caller name = some id := by
          rw [deleted?, if_pos admitted, resolved]
          simp [Option.filter, done, Except.isOk, Except.toBool]
        exact told.trans (remove_index_comes_from _ (allowed id deleted))
  · exact .refl

theorem replace_index_comes_from (caller : Thread) (oldName newName : String) (registry : Registry)
    (allowed : checkName newName = .ok () → ∀ definition, registry.indexes.get? (.name oldName) = some definition →
      rules.indexes.compiles (promoted newName definition)) :
    ComesFrom rules registry (registry.replaceIndex caller oldName newName).2 := by
  unfold replaceIndex
  split
  · exact .refl
  next named =>
    apply administering_comes_from caller registry
    split
    · exact .refl
    next definition found =>
      dsimp only
      split
      · exact .refl
      next generator compiled =>
        split
        · exact .refl
        next catalog installed =>
          have other : (registry.indexes.resolve (.name newName)).filter (· ≠ definition.id) ≠ some definition.id := by
            simp [Option.filter_eq_some_iff]
          exact .single (.promoted (allowed named definition found) compiled other installed)

theorem put_transformer_comes_from (definition : TransformerDefinition) (registry : Registry)
    (allowed : checkName definition.name = .ok () →
      (∀ id, rules.transformers.compiles
        (Definition.prepare (Definition.withId id (registry.classifyTransformer definition).2))) ∧
      ((registry.classifyTransformer definition).1 = .updateWithoutRecompile →
        ∀ entry, registry.transformers.entries.get? (registry.classifyTransformer definition).2.id = some entry →
          rules.transformers.replaces entry.definition (registry.classifyTransformer definition).2)) :
    ComesFrom rules registry (registry.putTransformer definition).2 := by
  simp only [putTransformer]
  split
  · exact .refl
  next named =>
    obtain ⟨compiles, replaces⟩ := allowed named
    exact on_transformers_comes_from registry (Shelf.carry_out_comes_from false compiles replaces)

theorem delete_transformer_comes_from (name : String) (registry : Registry)
    (allowed : ∀ id, registry.transformers.resolve (.name name) = some id → rules.transformers.removes id) :
    ComesFrom rules registry (registry.deleteTransformer name).2 := by
  simp only [deleteTransformer]
  split
  · exact .refl
  next id resolved => exact on_transformers_comes_from registry (.single (.removed (allowed id resolved)))

end Operations

def Allows (rules : RunRules) (registry : Registry) : Event → Prop
  | .createIndex definition => ∀ id, rules.indexes.compiles (Definition.prepare (Definition.withId id definition))
  | .addIndex _ => ¬ rules.indexes.keepsFiles
  | .putIndex _ definition => checkName definition.name = .ok () →
      (∀ id, rules.indexes.compiles
        (Definition.prepare (Definition.withId id (registry.classifyIndex definition).2))) ∧
      ((registry.classifyIndex definition).1 = .updateWithoutRecompile →
        ∀ entry, registry.indexes.entries.get? (registry.classifyIndex definition).2.id = some entry →
          rules.indexes.replaces entry.definition (registry.classifyIndex definition).2)
  | .updateIndex definition =>
      ∀ entry, registry.indexes.entries.get? definition.id = some entry →
        rules.indexes.replaces entry.definition definition
  | .removeIndex id => rules.indexes.removes id
  | .deleteIndex caller name => ∀ id, registry.deleted? caller name = some id → rules.indexes.removes id
  | .replaceIndex _ oldName newName => checkName newName = .ok () →
      ∀ definition, registry.indexes.get? (.name oldName) = some definition →
        rules.indexes.compiles (promoted newName definition)
  | .createTransformer definition =>
      ∀ id, rules.transformers.compiles (Definition.prepare (Definition.withId id definition))
  | .addTransformer _ => ¬ rules.transformers.keepsFiles
  | .putTransformer definition => checkName definition.name = .ok () →
      (∀ id, rules.transformers.compiles
        (Definition.prepare (Definition.withId id (registry.classifyTransformer definition).2))) ∧
      ((registry.classifyTransformer definition).1 = .updateWithoutRecompile →
        ∀ entry, registry.transformers.entries.get? (registry.classifyTransformer definition).2.id = some entry →
          rules.transformers.replaces entry.definition (registry.classifyTransformer definition).2)
  | .updateTransformer definition =>
      ∀ entry, registry.transformers.entries.get? definition.id = some entry →
        rules.transformers.replaces entry.definition definition
  | .removeTransformer id => rules.transformers.removes id
  | .deleteTransformer name => ∀ id, registry.transformers.resolve (.name name) = some id → rules.transformers.removes id
  | .meddle _ => ¬ rules.keepsDisk
  | _ => True

theorem perform_comes_from {rules : RunRules} {registry : Registry} {event : Event} (allowed : registry.Allows rules event) :
    ComesFrom rules registry (registry.perform event).2 := by
  cases event with
  | createIndex definition =>
      exact on_indexes_comes_from registry (Shelf.create_and_persist_comes_from definition _ allowed)
  | addIndex definition => exact on_indexes_comes_from registry (Shelf.add_comes_from allowed definition _)
  | putIndex caller definition => exact put_index_comes_from caller definition registry allowed
  | updateIndex definition => exact on_indexes_comes_from registry (Shelf.update_comes_from allowed)
  | readIndex key => exact .single (.indexes (.filled key))
  | registerNew key =>
      simp only [perform, registerNew]
      split
      · exact .refl
      next id _ => exact .single (.indexes (.marked id))
  | removeIndex id => exact remove_index_comes_from registry allowed
  | deleteIndex caller name => exact delete_index_comes_from caller name registry allowed
  | replaceIndex caller oldName newName => exact replace_index_comes_from caller oldName newName registry allowed
  | createTransformer definition =>
      exact on_transformers_comes_from registry (Shelf.create_and_persist_comes_from definition _ allowed)
  | addTransformer definition => exact on_transformers_comes_from registry (Shelf.add_comes_from allowed definition _)
  | putTransformer definition => exact put_transformer_comes_from definition registry allowed
  | updateTransformer definition => exact on_transformers_comes_from registry (Shelf.update_comes_from allowed)
  | removeTransformer id => exact on_transformers_comes_from registry (.single (.removed allowed))
  | deleteTransformer name => exact delete_transformer_comes_from name registry allowed
  | allocateId => exact .single (.indexes (.counted registry.ids.allocate.2))
  | turn move => exact .single (.around registry.storage _)
  | failDeletes fails => exact .single (.around (registry.storage.failDeletes fails) registry.traffic)
  | meddle disk => exact .single (.meddled disk allowed)

theorem run_keeps {good : Registry → Prop} (admissible : Event → Prop)
    (kept : ∀ registry event, admissible event → good registry → good (registry.perform event).2) {registry : Registry}
    (holds : good registry) {events : List Event} (all : ∀ event ∈ events, admissible event) :
    good (registry.run events) := by
  -- Each event is judged in the registry that the events before it have led to.
  induction events generalizing registry with
  | nil => exact holds
  | cons event rest ih =>
      rw [List.forall_mem_cons] at all
      exact ih (kept registry event all.1 holds) all.2

def emptyArchive : Archive :=
  (((⟨true, .present .empty⟩ : Archive).writeListing .index []).2.writeListing .transformer []).2

def fresh (settings : RegistrySettings) (extensions : Extensions) (storage : ResultStorage) : Registry where
  settings := settings
  extensions := extensions
  archive := emptyArchive
  storage := storage
  indexes := .empty
  transformers := .empty
  traffic := .idle
  ids := .initial
  report := ⟨0, 0, [], []⟩

theorem of_archive_empty {δ γ : Type} [Definition δ γ] (extensions : Extensions) (cleanUp : CleanUp) (ids : IdCounter)
    (storage : ResultStorage) :
    Loading.ofArchive extensions cleanUp ids ⟨true, .present .empty⟩ storage =
      .ok (Loading.start ids ⟨true, .present .empty⟩ storage : Loading δ γ) := by
  have files : Listing.files (Definition.kind δ) .empty = [] := by
    simp [Listing.files, Directory.empty]
  have nothing : (Listing.ofDirectory .empty : Listing δ) = .empty := by
    simp [Listing.ofDirectory, files, Listing.ofFiles, Listing.empty]
  simp only [Loading.ofArchive, Archive.list, nothing]
  rfl

def IsEmpty (disk : Disk) : Prop := disk.withDirectory? = some (.present .empty)

theorem open_on_empty {settings : RegistrySettings} (durable : settings.runInMemory = false) (extensions : Extensions)
    (storage : ResultStorage) {disk : Disk} (isEmpty : IsEmpty disk) :
    openOn settings extensions storage disk = .ok (fresh settings extensions storage) := by
  have opened : Archive.openOn settings disk = .ok ⟨true, .present .empty⟩ := by
    rw [Archive.openOn, durable, isEmpty]
    rfl
  rw [openOn, bind_of_ok _ opened, bind_of_ok _ (of_archive_empty extensions _ _ _), Loading.start,
    bind_of_ok _ (of_archive_empty extensions _ _ _)]
  rfl

theorem allows_lenient (registry : Registry) (event : Event) : registry.Allows .lenient event := by
  cases event <;> simp [Allows, RunRules.lenient, Rules.lenient]

theorem allows_filed (registry : Registry) {event : Event} (filed : event.keepsFiles = true) :
    registry.Allows .filed event := by
  cases event <;> simp_all [Allows, RunRules.filed, Rules.filed, Event.keepsFiles]

theorem persist_promoted_catalog (displaced : Option UInt32) (definition : IndexDefinition)
    (shelf : Shelf IndexDefinition IndexGenerator) :
    (persistPromoted displaced definition shelf).2.catalog = shelf.catalog := by
  unfold persistPromoted
  dsimp only
  split <;> rfl

theorem persist_promoted_ids (displaced : Option UInt32) (definition : IndexDefinition)
    (shelf : Shelf IndexDefinition IndexGenerator) : (persistPromoted displaced definition shelf).2.ids = shelf.ids := by
  unfold persistPromoted
  dsimp only
  split <;> rfl

theorem step_changes_catalogs {rules : RunRules} {registry next : Registry} (step : Step rules registry next) :
    next.extensions = registry.extensions ∧
      Catalog.ComesFrom registry.extensions registry.indexes next.indexes ∧
      Catalog.ComesFrom registry.extensions registry.transformers next.transformers := by
  cases step with
  | indexes step => exact ⟨rfl, Shelf.step_changes step, .refl⟩
  | transformers step => exact ⟨rfl, .refl, Shelf.step_changes step⟩
  | @promoted definition generator _ _ _ compiled apart installed =>
      refine ⟨rfl, .single ?_, .refl⟩
      simp only [withIndexShelf, persist_promoted_catalog]
      rw [← definition.fillFields_id generator] at apart
      exact .displacing compiled apart installed
  | around storage traffic => exact ⟨rfl, .refl, .refl⟩
  | meddled disk _ => exact ⟨rfl, .refl, .refl⟩

theorem comes_from_extensions {rules : RunRules} {before after : Registry} (chain : ComesFrom rules before after) :
    after.extensions = before.extensions := by
  induction chain with
  | refl => rfl
  | tail _ step ih => exact (step_changes_catalogs step).1.trans ih

theorem run_extensions (registry : Registry) (events : List Event) :
    (registry.run events).extensions = registry.extensions :=
  run_keeps (fun _ => True)
    (fun between event _ same => (comes_from_extensions (perform_comes_from (between.allows_lenient event))).trans same)
    rfl (fun _ _ => trivial)

def Consistent (registry : Registry) : Prop := registry.indexes.Consistent ∧ registry.transformers.Consistent

theorem comes_from_consistent {rules : RunRules} {before after : Registry} (consistent : before.Consistent)
    (chain : ComesFrom rules before after) : after.Consistent := by
  induction chain with
  | refl => exact consistent
  | tail _ step ih =>
      obtain ⟨_, indexes, transformers⟩ := step_changes_catalogs step
      exact ⟨Catalog.comes_from_consistent ih.1 indexes, Catalog.comes_from_consistent ih.2 transformers⟩

theorem open_on_consistent {settings : RegistrySettings} {extensions : Extensions} {storage : ResultStorage} {disk : Disk}
    {opened : Registry} (started : openOn settings extensions storage disk = .ok opened) : opened.Consistent := by
  obtain ⟨archive, _, started⟩ := bind_ok started
  obtain ⟨indexes, indexesLoaded, started⟩ := bind_ok started
  obtain ⟨transformers, transformersLoaded, started⟩ := bind_ok started
  cases started
  exact ⟨(Catalog.comes_from_consistent Catalog.consistent_empty
      (Loading.of_archive_changes indexesLoaded)).clear_new,
    (Catalog.comes_from_consistent Catalog.consistent_empty
      (Loading.of_archive_changes transformersLoaded)).clear_new⟩

theorem fresh_consistent (settings : RegistrySettings) (extensions : Extensions) (storage : ResultStorage) :
    (fresh settings extensions storage).Consistent := ⟨Catalog.consistent_empty, Catalog.consistent_empty⟩

theorem run_consistent {registry : Registry} (consistent : registry.Consistent) (events : List Event) :
    (registry.run events).Consistent :=
  run_keeps (fun _ => True)
    (fun registry event _ holds => comes_from_consistent holds (perform_comes_from (registry.allows_lenient event)))
    consistent (fun _ _ => trivial)

end Registry
end DocumentViews
