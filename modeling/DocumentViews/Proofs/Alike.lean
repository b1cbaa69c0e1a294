import DocumentViews.Proofs.Failure
import DocumentViews.Proofs.Provenance

set_option autoImplicit false

namespace DocumentViews

section Answers

variable {α β : Type} {durable durableThere : Bool}

-- What is answered after a change in memory: a value, unless there are files and one fails.
def Answers (durable : Bool) (value : α) (answer : Except DefinitionError α) : Prop :=
  answer = .ok value ∨ durable = true ∧ ∃ file, answer = .error (.persistence file)

inductive AnswersAlike (durable durableThere : Bool) (answer answerThere : Except DefinitionError α) : Prop
  | refused {error : DefinitionError} : error.isPersistence = false → answer = .error error →
      answerThere = .error error → AnswersAlike durable durableThere answer answerThere
  | done {value : α} : Answers durable value answer → Answers durableThere value answerThere →
      AnswersAlike durable durableThere answer answerThere

theorem Answers.map {value : α} {answer : Except DefinitionError α} (answers : Answers durable value answer)
    (change : α → β) : Answers durable (change value) (answer.map change) := by
  rcases answers with rfl | ⟨files, file, rfl⟩
  · exact .inl rfl
  · exact .inr ⟨files, file, rfl⟩

namespace AnswersAlike

variable {answer answerThere : Except DefinitionError α}

theorem map (alike : AnswersAlike durable durableThere answer answerThere) (change : α → β) :
    AnswersAlike durable durableThere (answer.map change) (answerThere.map change) := by
  cases alike with
  | refused final failed failedThere =>
      rw [failed, failedThere]
      exact .refused final rfl rfl
  | done answers answersThere => exact .done (answers.map change) (answersThere.map change)

theorem error {error : DefinitionError} (final : error.isPersistence = false) :
    AnswersAlike durable durableThere (.error error : Except DefinitionError α) (.error error) :=
  .refused final rfl rfl

theorem carried_out (alike : AnswersAlike durable durableThere answer answerThere) {error : DefinitionError}
    (failed : answer = .error error) (file : error.isPersistence = true) (inMemory : durableThere = false) :
    ∃ value, answerThere = .ok value := by
  cases alike with
  | refused final failedToo _ =>
      rw [failed] at failedToo
      cases failedToo
      rw [final] at file
      cases file
  | @done value _ answersThere =>
      refine ⟨value, answersThere.resolve_right ?_⟩
      rintro ⟨files, _⟩
      rw [inMemory] at files
      cases files

theorem ok (value : α) : AnswersAlike durable durableThere (.ok value) (.ok value) := .done (.inl rfl) (.inl rfl)

end AnswersAlike
end Answers

namespace Archive

theorem write_file_done_or_fails (archive : Archive) (name content : String) :
    Answers archive.isDurable () (archive.writeFile name content).1 := by
  simp only [writeFile]
  split
  · exact .inl rfl
  next durable =>
    rw [Bool.not_eq_true', Bool.not_eq_false] at durable
    split
    · exact .inr ⟨durable, _, rfl⟩
    · split
      · exact .inr ⟨durable, _, rfl⟩
      · exact .inl rfl

theorem delete_done_or_fails (archive : Archive) (kind : DefinitionKind) (id : UInt32) :
    Answers archive.isDurable () (archive.delete kind id).1 := by
  simp only [delete]
  split
  · exact .inl rfl
  next durable =>
    rw [Bool.not_eq_true', Bool.not_eq_false] at durable
    split
    · exact .inr ⟨durable, _, rfl⟩
    · exact .inl rfl

end Archive

theorem ResultStorage.delete_index_not_persistence {id : UInt32} {storage : ResultStorage} {error : DefinitionError}
    (failed : (storage.deleteIndex id).1 = .error error) : error.isPersistence = false := by
  have batch : ((Batch.prepareForDeletion id).andThen (Batch.delete id)) storage.failsDeletes [] =
      Batch.delete id storage.failsDeletes [.prepareForDeletion id] := rfl
  rw [deleteIndex, run, batch, Batch.delete] at failed
  split at failed
  · cases failed
  next other refused =>
    cases failed
    split at refused
    · cases refused
      rfl
    · cases refused

section Kind

variable {δ γ : Type}

namespace Shelf

structure Alike (durable durableThere : Bool) (shelf there : Shelf δ γ) : Prop where
  catalog : there.catalog = shelf.catalog
  ids : there.ids = shelf.ids
  durable : shelf.archive.isDurable = durable
  durable_there : there.archive.isDurable = durableThere

structure Together {α : Type} (durable durableThere : Bool)
    (outcome outcomeThere : Except DefinitionError α × Shelf δ γ) : Prop where
  answers : AnswersAlike durable durableThere outcome.1 outcomeThere.1
  shelves : Alike durable durableThere outcome.2 outcomeThere.2

namespace Alike

variable {durable durableThere : Bool} {shelf there : Shelf δ γ} {extensions : Extensions}

theorem change (alike : Alike durable durableThere shelf there) (catalog : Catalog δ γ) :
    Alike durable durableThere { shelf with catalog } { there with catalog } :=
  ⟨rfl, alike.ids, alike.durable, alike.durable_there⟩

theorem count (alike : Alike durable durableThere shelf there) (ids : IdCounter) :
    Alike durable durableThere { shelf with ids } { there with ids } :=
  ⟨alike.catalog, rfl, alike.durable, alike.durable_there⟩

variable [Definition δ γ]

theorem refresh (alike : Alike durable durableThere shelf there) :
    Alike durable durableThere shelf.refreshListing there.refreshListing where
  catalog := alike.catalog
  ids := alike.ids
  durable := (shelf.archive.write_file_keeps _ _).durable.trans alike.durable
  durable_there := (there.archive.write_file_keeps _ _).durable.trans alike.durable_there

theorem relist (alike : Alike durable durableThere shelf there) (catalog : Catalog δ γ) :
    Alike durable durableThere (shelf.relist catalog) (there.relist catalog) := (alike.change catalog).refresh

theorem persist (alike : Alike durable durableThere shelf there) (definition : δ) :
    Together durable durableThere (shelf.persist definition) (there.persist definition) where
  answers := by
    rw [← alike.durable, ← alike.durable_there]
    exact .done (Archive.write_file_done_or_fails _ _ _) (Archive.write_file_done_or_fails _ _ _)
  shelves := ⟨alike.catalog, alike.ids, (shelf.archive.write_file_keeps _ _).durable.trans alike.durable,
    (there.archive.write_file_keeps _ _).durable.trans alike.durable_there⟩

theorem identify (alike : Alike durable durableThere shelf there) (definition : δ) :
    (there.identify definition).1 = (shelf.identify definition).1 ∧
      Alike durable durableThere (shelf.identify definition).2 (there.identify definition).2 := by
  simp only [Shelf.identify, alike.ids]
  split
  · exact ⟨rfl, alike.count _⟩
  · exact ⟨rfl, alike.count _⟩

theorem create_and_persist (faults : FailsForGood δ extensions) (alike : Alike durable durableThere shelf there)
    (definition : δ) : Together durable durableThere (shelf.createAndPersist extensions definition)
      (there.createAndPersist extensions definition) := by
  obtain ⟨same, counted⟩ := alike.identify definition
  simp only [createAndPersist]
  rw [same, counted.catalog]
  split
  next error failed => exact ⟨.error (Catalog.compile_into_fails faults failed).not_persistence, counted⟩
  next installed catalog _ =>
    have persisted := (counted.relist catalog).persist installed
    exact ⟨persisted.answers.map _, persisted.shelves⟩

theorem add (faults : FailsForGood δ extensions) (alike : Alike durable durableThere shelf there) (definition : δ) :
    Together durable durableThere (shelf.add extensions definition) (there.add extensions definition) := by
  obtain ⟨same, counted⟩ := alike.identify definition
  simp only [Shelf.add]
  rw [alike.catalog, same, counted.catalog]
  split
  · split
    next error failed => exact ⟨.error (Catalog.replace_definition_fails failed).not_persistence, alike⟩
    next catalog _ => exact ⟨.ok (), alike.relist catalog⟩
  · split
    next error failed => exact ⟨.error (Catalog.compile_into_fails faults failed).not_persistence, counted⟩
    next catalog _ => exact ⟨.ok (), counted.relist catalog⟩

theorem remove (alike : Alike durable durableThere shelf there) (id : UInt32) :
    Together durable durableThere (shelf.remove id) (there.remove id) := by
  have listed := alike.relist (shelf.catalog.remove id)
  simp only [Shelf.remove]
  rw [alike.catalog]
  split
  · refine ⟨?_, listed.catalog, listed.ids, ?_, ?_⟩
    · rw [← listed.durable, ← listed.durable_there]
      exact .map (.done (Archive.delete_done_or_fails _ _ _) (Archive.delete_done_or_fails _ _ _)) _
    · exact (Archive.delete_keeps _ _ _).durable.trans listed.durable
    · exact (Archive.delete_keeps _ _ _).durable.trans listed.durable_there
  · exact ⟨.ok false, alike⟩

theorem update (alike : Alike durable durableThere shelf there) (definition : δ) : Together durable durableThere
    (shelf.updateWithoutRecompile definition) (there.updateWithoutRecompile definition) := by
  simp only [updateWithoutRecompile]
  rw [alike.catalog]
  split
  next error failed => exact ⟨.error (Catalog.replace_definition_fails failed).not_persistence, alike⟩
  next catalog _ => exact (alike.relist catalog).persist definition

theorem create (faults : FailsForGood δ extensions) (alike : Alike durable durableThere shelf there) (marksNew : Bool)
    (definition : δ) : Together durable durableThere (shelf.create extensions marksNew definition)
      (there.create extensions marksNew definition) := by
  simp only [Shelf.create]
  rw [alike.ids]
  have created := (alike.count shelf.ids.allocate.2).create_and_persist faults
    (Definition.withId shelf.ids.allocate.1 definition)
  refine ⟨created.answers.map _, ?_⟩
  rw [created.shelves.catalog]
  exact created.shelves.change _

theorem carry_out (faults : FailsForGood δ extensions) (alike : Alike durable durableThere shelf there) (marksNew : Bool)
    (change : Change) (definition : δ) : Together durable durableThere
      (shelf.carryOut extensions marksNew change definition) (there.carryOut extensions marksNew change definition) := by
  cases change with
  | noop => exact ⟨.ok _, alike⟩
  | updateWithoutRecompile =>
      have updated := alike.update definition
      exact ⟨updated.answers.map _, updated.shelves⟩
  | update =>
      have updated := alike.create_and_persist faults definition
      exact ⟨updated.answers.map _, updated.shelves⟩
  | create =>
      have created := alike.create faults marksNew definition
      exact ⟨created.answers.map _, created.shelves⟩

end Alike
end Shelf
end Kind

namespace Registry

structure Alike (registry there : Registry) : Prop where
  extensions : there.extensions = registry.extensions
  indexes : there.indexes = registry.indexes
  transformers : there.transformers = registry.transformers
  ids : there.ids = registry.ids
  storage : there.storage = registry.storage
  traffic : there.traffic = registry.traffic
  timeout : there.settings.administrationTimeout = registry.settings.administrationTimeout

namespace Alike

variable {registry there further : Registry}

theorem refl (registry : Registry) : registry.Alike registry := ⟨rfl, rfl, rfl, rfl, rfl, rfl, rfl⟩

theorem symm (alike : registry.Alike there) : there.Alike registry :=
  ⟨alike.extensions.symm, alike.indexes.symm, alike.transformers.symm, alike.ids.symm, alike.storage.symm,
    alike.traffic.symm, alike.timeout.symm⟩

theorem trans (alike : registry.Alike there) (onward : there.Alike further) : registry.Alike further :=
  ⟨onward.extensions.trans alike.extensions, onward.indexes.trans alike.indexes,
    onward.transformers.trans alike.transformers, onward.ids.trans alike.ids, onward.storage.trans alike.storage,
    onward.traffic.trans alike.traffic, onward.timeout.trans alike.timeout⟩

end Alike

structure Together {α : Type} (registry there : Registry) (outcome outcomeThere : Except DefinitionError α × Registry) :
    Prop where
  answers : AnswersAlike registry.archive.isDurable there.archive.isDurable outcome.1 outcomeThere.1
  registries : outcome.2.Alike outcomeThere.2

theorem Together.map {α β : Type} {registry there : Registry}
    {outcome outcomeThere : Except DefinitionError α × Registry} (together : registry.Together there outcome outcomeThere)
    (change : α → β) :
    registry.Together there (outcome.1.map change, outcome.2) (outcomeThere.1.map change, outcomeThere.2) :=
  ⟨together.answers.map change, together.registries⟩

theorem check_name_not_persistence {name : String} {error : DefinitionError} (refused : checkName name = .error error) :
    error.isPersistence = false := by
  simp only [checkName] at refused
  split at refused
  · cases refused
    rfl
  · cases refused

theorem put_refusal_not_persistence {registry : Registry} {caller : Thread} {definition : IndexDefinition}
    {error : DefinitionError} (refused : registry.putRefusal? caller definition = some error) :
    error.isPersistence = false := by
  simp only [putRefusal?] at refused
  split at refused
  · cases refused
    rfl
  · split at refused
    · cases refused
      rfl
    · cases refused

-- Where the file of the displaced index cannot be deleted the other one is not written.
theorem persist_promoted_answers (displaced : Option UInt32) (definition : IndexDefinition)
    (shelf : Shelf IndexDefinition IndexGenerator) :
    Answers shelf.archive.isDurable true (persistPromoted displaced definition shelf).1 := by
  cases displaced with
  | none => exact (Archive.write_file_done_or_fails _ _ _).map _
  | some holder =>
      unfold persistPromoted
      rcases shelf.archive.delete_done_or_fails .index holder with deleted | ⟨durable, file, failed⟩
      · simp only [deleted]
        rw [← (shelf.archive.delete_keeps .index holder).durable]
        exact (Archive.write_file_done_or_fails _ _ _).map _
      · simp only [failed]
        exact .inr ⟨durable, file, rfl⟩

namespace Alike

variable {registry there : Registry} {α : Type}

theorem index_shelf (alike : registry.Alike there) :
    Shelf.Alike registry.archive.isDurable there.archive.isDurable registry.indexShelf there.indexShelf :=
  ⟨alike.indexes, alike.ids, rfl, rfl⟩

theorem transformer_shelf (alike : registry.Alike there) :
    Shelf.Alike registry.archive.isDurable there.archive.isDurable registry.transformerShelf there.transformerShelf :=
  ⟨alike.transformers, alike.ids, rfl, rfl⟩

theorem on_indexes (alike : registry.Alike there)
    {operation operationThere : Shelf IndexDefinition IndexGenerator →
      Except DefinitionError α × Shelf IndexDefinition IndexGenerator}
    (together : Shelf.Together registry.archive.isDurable there.archive.isDurable (operation registry.indexShelf)
      (operationThere there.indexShelf)) :
    registry.Together there (registry.onIndexes operation) (there.onIndexes operationThere) :=
  ⟨together.answers, alike.extensions, together.shelves.catalog, alike.transformers, together.shelves.ids, alike.storage,
    alike.traffic, alike.timeout⟩

theorem on_transformers (alike : registry.Alike there)
    {operation operationThere : Shelf TransformerDefinition TransformerGenerator →
      Except DefinitionError α × Shelf TransformerDefinition TransformerGenerator}
    (together : Shelf.Together registry.archive.isDurable there.archive.isDurable (operation registry.transformerShelf)
      (operationThere there.transformerShelf)) :
    registry.Together there (registry.onTransformers operation) (there.onTransformers operationThere) :=
  ⟨together.answers, alike.extensions, alike.indexes, together.shelves.catalog, together.shelves.ids, alike.storage,
    alike.traffic, alike.timeout⟩

theorem refuse (alike : registry.Alike there) {error : DefinitionError} (final : error.isPersistence = false) :
    registry.Together there ((.error error, registry) : Except DefinitionError α × Registry) (.error error, there) :=
  ⟨.error final, alike⟩

theorem answer (alike : registry.Alike there) (value : α) : registry.Together there (.ok value, registry) (.ok value, there) :=
  ⟨.ok value, alike⟩

theorem administering (alike : registry.Alike there) (caller : Thread)
    {operation operationThere : Registry → Except DefinitionError α × Registry}
    (together : registry.Together there (operation registry) (operationThere there)) :
    registry.Together there (registry.administering caller operation) (there.administering caller operationThere) := by
  simp only [Registry.administering]
  rw [alike.traffic, alike.timeout]
  split
  · exact together
  · exact alike.refuse rfl

theorem create_and_persist_index (alike : registry.Alike there) (definition : IndexDefinition) :
    registry.Together there (registry.createAndPersistIndex definition) (there.createAndPersistIndex definition) := by
  rw [createAndPersistIndex, createAndPersistIndex, alike.extensions]
  exact alike.on_indexes (alike.index_shelf.create_and_persist (indexes_fail_for_good _) definition)

theorem add_index (alike : registry.Alike there) (definition : IndexDefinition) :
    registry.Together there (registry.addIndex definition) (there.addIndex definition) := by
  rw [addIndex, addIndex, alike.extensions]
  exact alike.on_indexes (alike.index_shelf.add (indexes_fail_for_good _) definition)

theorem remove_index (alike : registry.Alike there) (id : UInt32) :
    registry.Together there (registry.removeIndex id) (there.removeIndex id) :=
  alike.on_indexes (alike.index_shelf.remove id)

theorem put_index (alike : registry.Alike there) (caller : Thread) (definition : IndexDefinition) :
    registry.Together there (registry.putIndex caller definition) (there.putIndex caller definition) := by
  have classified : there.classifyIndex definition = registry.classifyIndex definition := by
    rw [classifyIndex, classifyIndex, Shelf.classify, Shelf.classify, alike.index_shelf.catalog]
  have refusal : there.putRefusal? caller definition = registry.putRefusal? caller definition := by
    rw [putRefusal?, putRefusal?, classified, alike.traffic, alike.timeout]
  rw [put_index_eq, put_index_eq, refusal, classified, alike.extensions]
  cases refused : registry.putRefusal? caller definition with
  | some error => exact alike.refuse (put_refusal_not_persistence refused)
  | none => exact alike.on_indexes (alike.index_shelf.carry_out (indexes_fail_for_good _) true _ _)

theorem delete_index (alike : registry.Alike there) (caller : Thread) (name : String) :
    registry.Together there (registry.deleteIndex caller name) (there.deleteIndex caller name) := by
  apply alike.administering caller
  dsimp only
  rw [alike.indexes, alike.storage]
  split
  · exact alike.answer false
  next id _ =>
    have told : ({ registry with storage := (registry.storage.deleteIndex id).2 } : Registry).Alike
        { there with storage := (registry.storage.deleteIndex id).2, indexes := registry.indexes } :=
      ⟨alike.extensions, rfl, alike.transformers, alike.ids, rfl, alike.traffic, alike.timeout⟩
    split
    next error failed => exact ⟨.error (ResultStorage.delete_index_not_persistence failed), told⟩
    next =>
      have removed := told.remove_index id
      exact ⟨removed.answers, removed.registries⟩

theorem persist_promoted {durable durableThere : Bool} {shelf shelfThere : Shelf IndexDefinition IndexGenerator}
    (alike : Shelf.Alike durable durableThere shelf shelfThere) (displaced : Option UInt32) (definition : IndexDefinition) :
    Shelf.Together durable durableThere (persistPromoted displaced definition shelf)
      (persistPromoted displaced definition shelfThere) where
  answers := by
    rw [← alike.durable, ← alike.durable_there]
    exact .done (persist_promoted_answers _ _ _) (persist_promoted_answers _ _ _)
  shelves := by
    refine ⟨?_, ?_, ?_, ?_⟩
    · rw [persist_promoted_catalog, persist_promoted_catalog, alike.catalog]
    · rw [persist_promoted_ids, persist_promoted_ids, alike.ids]
    · exact (persist_promoted_derives _ _ _).durable.trans alike.durable
    · exact (persist_promoted_derives _ _ _).durable.trans alike.durable_there

theorem replace_index (alike : registry.Alike there) (caller : Thread) (oldName newName : String) :
    registry.Together there (registry.replaceIndex caller oldName newName) (there.replaceIndex caller oldName newName) := by
  simp only [replaceIndex]
  split
  next error refused => exact alike.refuse (check_name_not_persistence refused)
  · apply alike.administering caller
    rw [alike.indexes, alike.extensions]
    split
    · exact alike.answer false
    · split
      next error failed =>
        obtain ⟨fault, rfl⟩ := IndexDefinition.compile_fails failed
        exact alike.refuse rfl
      · split
        next error failed => exact alike.refuse (Catalog.install_displacing_fails failed).not_persistence
        next catalog _ => exact alike.on_indexes (persist_promoted (alike.index_shelf.relist catalog) _ _)

theorem update_index (alike : registry.Alike there) (definition : IndexDefinition) : registry.Together there
    (registry.updateIndexWithoutRecompile definition) (there.updateIndexWithoutRecompile definition) :=
  alike.on_indexes (alike.index_shelf.update definition)

theorem index_definition (alike : registry.Alike there) (key : DefinitionKey) : registry.Together there
    (.ok (registry.indexDefinition key).1, (registry.indexDefinition key).2)
    (.ok (there.indexDefinition key).1, (there.indexDefinition key).2) := by
  simp only [indexDefinition]
  rw [alike.indexes]
  exact ⟨.ok _, alike.extensions, rfl, alike.transformers, alike.ids, alike.storage, alike.traffic, alike.timeout⟩

theorem register_new (alike : registry.Alike there) (key : DefinitionKey) : registry.Together there
    (.ok (registry.registerNew key).1, (registry.registerNew key).2)
    (.ok (there.registerNew key).1, (there.registerNew key).2) := by
  simp only [registerNew]
  rw [alike.indexes]
  split
  · exact alike.answer false
  · exact ⟨.ok _, alike.extensions, rfl, alike.transformers, alike.ids, alike.storage, alike.traffic, alike.timeout⟩

theorem create_and_persist_transformer (alike : registry.Alike there) (definition : TransformerDefinition) :
    registry.Together there (registry.createAndPersistTransformer definition)
      (there.createAndPersistTransformer definition) := by
  rw [createAndPersistTransformer, createAndPersistTransformer, alike.extensions]
  exact alike.on_transformers (alike.transformer_shelf.create_and_persist (transformers_fail_for_good _) definition)

theorem add_transformer (alike : registry.Alike there) (definition : TransformerDefinition) :
    registry.Together there (registry.addTransformer definition) (there.addTransformer definition) := by
  rw [addTransformer, addTransformer, alike.extensions]
  exact alike.on_transformers (alike.transformer_shelf.add (transformers_fail_for_good _) definition)

theorem put_transformer (alike : registry.Alike there) (definition : TransformerDefinition) :
    registry.Together there (registry.putTransformer definition) (there.putTransformer definition) := by
  have classified : there.classifyTransformer definition = registry.classifyTransformer definition := by
    rw [classifyTransformer, classifyTransformer, Shelf.classify, Shelf.classify, alike.transformer_shelf.catalog]
  simp only [putTransformer]
  rw [classified, alike.extensions]
  split
  next error refused => exact alike.refuse (check_name_not_persistence refused)
  · exact alike.on_transformers (alike.transformer_shelf.carry_out (transformers_fail_for_good _) false _ _)

theorem update_transformer (alike : registry.Alike there) (definition : TransformerDefinition) : registry.Together there
    (registry.updateTransformerWithoutRecompile definition) (there.updateTransformerWithoutRecompile definition) :=
  alike.on_transformers (alike.transformer_shelf.update definition)

theorem remove_transformer (alike : registry.Alike there) (id : UInt32) :
    registry.Together there (registry.removeTransformer id) (there.removeTransformer id) :=
  alike.on_transformers (alike.transformer_shelf.remove id)

theorem delete_transformer (alike : registry.Alike there) (name : String) :
    registry.Together there (registry.deleteTransformer name) (there.deleteTransformer name) := by
  simp only [deleteTransformer]
  rw [alike.transformers]
  split
  · exact alike.answer false
  next id _ => exact alike.remove_transformer id

end Alike
end Registry

inductive Reply
  | done
  | named (name : String)
  | told (holds : Bool)
  | put (outcome : PutOutcome)
  | found (definition : Option IndexDefinition)
  | allocated (id : UInt32)
deriving DecidableEq

namespace Registry

def respond (event : Event) (registry : Registry) : Except DefinitionError Reply × Registry :=
  match event with
  | .createIndex definition => replied .named (registry.createAndPersistIndex definition)
  | .addIndex definition => replied (fun _ => .done) (registry.addIndex definition)
  | .putIndex caller definition => replied .put (registry.putIndex caller definition)
  | .updateIndex definition => replied (fun _ => .done) (registry.updateIndexWithoutRecompile definition)
  | .readIndex key => replied .found (.ok (registry.indexDefinition key).1, (registry.indexDefinition key).2)
  | .registerNew key => replied .told (.ok (registry.registerNew key).1, (registry.registerNew key).2)
  | .removeIndex id => replied .told (registry.removeIndex id)
  | .deleteIndex caller name => replied .told (registry.deleteIndex caller name)
  | .replaceIndex caller oldName newName => replied .told (registry.replaceIndex caller oldName newName)
  | .createTransformer definition => replied .named (registry.createAndPersistTransformer definition)
  | .addTransformer definition => replied (fun _ => .done) (registry.addTransformer definition)
  | .putTransformer definition => replied .put (registry.putTransformer definition)
  | .updateTransformer definition => replied (fun _ => .done) (registry.updateTransformerWithoutRecompile definition)
  | .removeTransformer id => replied .told (registry.removeTransformer id)
  | .deleteTransformer name => replied .told (registry.deleteTransformer name)
  | .allocateId => replied .allocated (.ok registry.allocateId.1, registry.allocateId.2)
  | .turn move =>
      (.ok (.told (registry.traffic.advance move).isSome),
        { registry with traffic := (registry.traffic.advance move).getD registry.traffic })
  | .failDeletes fails => (.ok .done, { registry with storage := registry.storage.failDeletes fails })
  | .meddle disk => (.ok .done, { registry with archive := { registry.archive with disk } })
where
  replied {α : Type} (reply : α → Reply) (outcome : Except DefinitionError α × Registry) :
      Except DefinitionError Reply × Registry := (outcome.1.map reply, outcome.2)

theorem perform_eq_respond (event : Event) (registry : Registry) :
    registry.perform event = ((registry.respond event).1.map fun _ => (), (registry.respond event).2) := by
  have forgotten : ∀ {α : Type} (reply : α → Reply) (outcome : Except DefinitionError α × Registry),
      perform.answered outcome = ((respond.replied reply outcome).1.map fun _ => (), (respond.replied reply outcome).2) := by
    rintro α reply ⟨answer, next⟩
    cases answer <;> rfl
  have plain : ∀ outcome : Except DefinitionError Unit × Registry, perform.answered outcome = outcome := by
    rintro ⟨answer, next⟩
    cases answer <;> rfl
  cases event with
  | addIndex definition => exact (plain _).symm.trans (forgotten _ _)
  | updateIndex definition => exact (plain _).symm.trans (forgotten _ _)
  | addTransformer definition => exact (plain _).symm.trans (forgotten _ _)
  | updateTransformer definition => exact (plain _).symm.trans (forgotten _ _)
  | readIndex | registerNew | allocateId | turn | failDeletes | meddle => rfl
  | _ => exact forgotten _ _

theorem perform_respond (event : Event) (registry : Registry) : (registry.perform event).2 = (registry.respond event).2 := by
  rw [perform_eq_respond]

theorem Alike.respond {registry there : Registry} (alike : registry.Alike there) {event : Event}
    (own : event.meddles = false) : registry.Together there (registry.respond event) (there.respond event) := by
  cases event with
  | createIndex definition => exact (alike.create_and_persist_index definition).map _
  | addIndex definition => exact (alike.add_index definition).map _
  | putIndex caller definition => exact (alike.put_index caller definition).map _
  | updateIndex definition => exact (alike.update_index definition).map _
  | readIndex key => exact (alike.index_definition key).map _
  | registerNew key => exact (alike.register_new key).map _
  | removeIndex id => exact (alike.remove_index id).map _
  | deleteIndex caller name => exact (alike.delete_index caller name).map _
  | replaceIndex caller oldName newName => exact (alike.replace_index caller oldName newName).map _
  | createTransformer definition => exact (alike.create_and_persist_transformer definition).map _
  | addTransformer definition => exact (alike.add_transformer definition).map _
  | putTransformer definition => exact (alike.put_transformer definition).map _
  | updateTransformer definition => exact (alike.update_transformer definition).map _
  | removeTransformer id => exact (alike.remove_transformer id).map _
  | deleteTransformer name => exact (alike.delete_transformer name).map _
  | allocateId =>
      simp only [Registry.respond, respond.replied, allocateId]
      rw [alike.ids]
      exact ⟨.ok _, alike.extensions, alike.indexes, alike.transformers, rfl, alike.storage, alike.traffic, alike.timeout⟩
  | turn move =>
      simp only [Registry.respond]
      rw [alike.traffic]
      exact ⟨.ok _, alike.extensions, alike.indexes, alike.transformers, alike.ids, alike.storage, rfl, alike.timeout⟩
  | failDeletes fails =>
      simp only [Registry.respond]
      rw [alike.storage]
      exact ⟨.ok _, alike.extensions, alike.indexes, alike.transformers, alike.ids, rfl, alike.traffic, alike.timeout⟩
  | meddle disk => cases own

theorem alike_meddle (registry : Registry) {event : Event} (meddles : event.meddles = true) :
    registry.Alike (registry.perform event).2 := by
  cases event with
  | meddle disk => exact ⟨rfl, rfl, rfl, rfl, rfl, rfl, rfl⟩
  | _ => cases meddles

theorem perform_durable (event : Event) (registry : Registry) :
    (registry.perform event).2.archive.isDurable = registry.archive.isDurable := by
  cases meddles : event.meddles with
  | false => exact (comes_from_derives (perform_comes_from (registry.allows_undisturbed meddles))).durable
  | true =>
      cases event with
      | meddle disk => rfl
      | _ => cases meddles

theorem run_durable (registry : Registry) (events : List Event) :
    (registry.run events).archive.isDurable = registry.archive.isDurable :=
  @run_keeps (fun after => after.archive.isDurable = registry.archive.isDurable) (fun _ => True)
    (fun between event _ same => (perform_durable event between).trans same) registry rfl events fun _ _ => trivial

def undisturbedEvents (events : List Event) : List Event := events.filter fun event => !event.meddles

theorem run_undisturbed {registry there : Registry} (alike : registry.Alike there) (events : List Event) :
    (registry.run events).Alike (there.run (undisturbedEvents events)) := by
  induction events generalizing registry there with
  | nil => exact alike
  | cons event later ih =>
      cases meddles : event.meddles with
      | true =>
          rw [undisturbedEvents, List.filter_cons_of_neg (by simp [meddles])]
          exact ih ((alike_meddle registry meddles).symm.trans alike)
      | false =>
          rw [undisturbedEvents, List.filter_cons_of_pos (by simp [meddles])]
          have together := (alike.respond meddles).registries
          rw [← perform_respond, ← perform_respond] at together
          exact ih together

/-- Two registries with the same memory go through the same memory and batches of the storage, whatever files they have and
whoever meddles with these. They are answered alike, and what fails for its file in one has been carried out in one that runs
in memory. -/
theorem run_alike {registry there : Registry} (alike : registry.Alike there) {events eventsThere : List Event}
    (same : undisturbedEvents events = undisturbedEvents eventsThere) :
    (registry.run events).Alike (there.run eventsThere) ∧ ∀ event : Event, event.meddles = false →
      registry.Together there ((registry.run events).respond event) ((there.run eventsThere).respond event) ∧
      ∀ error, ((registry.run events).respond event).1 = .error error → error.isPersistence = true →
        there.archive.isDurable = false → ∃ reply, ((there.run eventsThere).respond event).1 = .ok reply := by
  have alikeThen : (registry.run events).Alike (there.run eventsThere) := by
    apply (run_undisturbed alike events).trans
    rw [same]
    exact (run_undisturbed (.refl there) eventsThere).symm
  refine ⟨alikeThen, fun event own => ?_⟩
  have together := alikeThen.respond own
  have answers := together.answers
  rw [run_durable, run_durable] at answers
  exact ⟨⟨answers, together.registries⟩, fun error failed file inMemory => answers.carried_out failed file inMemory⟩

theorem run_alike_blocked :
    let dogs : IndexDefinition := .ofSingleMap "Dogs" "from d in docs select new \x7b d.Name \x7d"
    let cats : IndexDefinition := .ofSingleMap "Cats" "from d in docs.Cats select new \x7b d.Name \x7d"
    let events : List Event := [.createIndex dogs, .meddle .blocked, .createIndex cats]
    let eventsThere : List Event := [.createIndex dogs, .createIndex cats]
    let event : Event := .replaceIndex "main" "Cats" "DOGS"
    ∃ opened there, openOn .standard .builtins .empty .absent = .ok opened ∧
      openOn .inMemory .builtins .empty .absent = .ok there ∧ opened.Alike there ∧
      undisturbedEvents events = undisturbedEvents eventsThere ∧ (opened.run events).Alike (there.run eventsThere) ∧
      opened.Together there ((opened.run events).respond event) ((there.run eventsThere).respond event) ∧
      (∃ file, ((opened.run events).respond event).1 = .error (.persistence file)) ∧
      ((there.run eventsThere).respond event).1 = .ok (.told true) := by
  intro dogs cats events eventsThere event
  have started : openOn .standard .builtins .empty .absent = .ok (fresh .standard .builtins .empty) :=
    open_on_empty rfl _ _ rfl
  let there : Registry := { fresh .inMemory .builtins .empty with archive := ⟨false, .absent⟩ }
  have alike : (fresh .standard .builtins .empty).Alike there := ⟨rfl, rfl, rfl, rfl, rfl, rfl, rfl⟩
  have startedThere : openOn .inMemory .builtins .empty .absent = .ok there := rfl
  have same : undisturbedEvents events = undisturbedEvents eventsThere := by
    simp [undisturbedEvents, events, eventsThere, Event.meddles]
  obtain ⟨alikeThen, answered⟩ := run_alike alike same
  have fails : (((fresh .standard .builtins .empty).run events).respond event).1.isOk = false := by decide +kernel
  have replies : ((there.run eventsThere).respond event).1 = .ok (.told true) := ok_of_to_option (by decide +kernel)
  have together := (answered event rfl).1
  refine ⟨_, there, started, startedThere, alike, same, alikeThen, together, ?_, replies⟩
  cases together.answers with
  | refused final failed failedThere =>
      rw [replies] at failedThere
      cases failedThere
  | done answers _ =>
      rcases answers with succeeded | ⟨_, failed⟩
      · rw [succeeded] at fails
        cases fails
      · exact failed

end Registry
end DocumentViews
