import DocumentViews.Proofs.Admission
import DocumentViews.Proofs.Run

set_option autoImplicit false

namespace DocumentViews

namespace Archive

theorem write_file_fails {archive : Archive} {name content : String} {error : DefinitionError}
    (failed : (archive.writeFile name content).1 = .error error) : error.isPersistence = true := by
  simp only [writeFile] at failed
  split at failed
  · cases failed
  · split at failed
    · cases failed
      rfl
    · split at failed
      · cases failed
        rfl
      · cases failed

theorem delete_fails {archive : Archive} {kind : DefinitionKind} {id : UInt32} {error : DefinitionError}
    (failed : (archive.delete kind id).1 = .error error) : error.isPersistence = true := by
  simp only [delete] at failed
  split at failed
  · cases failed
  · split at failed
    · cases failed
      rfl
    · cases failed

end Archive

namespace ResultStorage

theorem run_fails {batch : Batch} {storage : ResultStorage} {error : DefinitionError}
    (failed : (storage.run batch).1 = .error error) : (storage.run batch).2 = storage := by
  unfold run at failed ⊢
  split at failed
  · cases failed
  · rfl

theorem delete_index_fails {id : UInt32} {storage : ResultStorage} {error : DefinitionError}
    (failed : (storage.deleteIndex id).1 = .error error) : (storage.deleteIndex id).2 = storage :=
  run_fails failed

end ResultStorage

theorem IndexDefinition.compile_fails {extensions : Extensions} {definition : IndexDefinition} {error : DefinitionError}
    (failed : definition.compile extensions = .error error) :
    ∃ fault, error = .compile .index definition.id definition.name fault := by
  simp only [compile] at failed
  split at failed
  · cases failed
  · cases failed
    exact ⟨_, rfl⟩

theorem TransformerDefinition.compile_fails {extensions : Extensions} {definition : TransformerDefinition}
    {error : DefinitionError} (failed : definition.compile extensions = .error error) :
    ∃ fault, error = .compile .transformer definition.id definition.name fault := by
  simp only [compile] at failed
  split at failed
  · cases failed
  · cases failed
    exact ⟨_, rfl⟩

structure DefinitionError.IsFinal (error : DefinitionError) : Prop where
  not_retryable : error.isRetryable = false
  not_persistence : error.isPersistence = false

section Kind

variable {δ γ : Type} [Definition δ γ]

def FailsForGood (δ : Type) {γ : Type} [Definition δ γ] (extensions : Extensions) : Prop :=
  ∀ (definition : δ) (error : DefinitionError), Definition.compile extensions definition = .error error → error.IsFinal

theorem indexes_fail_for_good (extensions : Extensions) : FailsForGood IndexDefinition extensions := by
  intro definition error failed
  obtain ⟨fault, rfl⟩ := IndexDefinition.compile_fails failed
  exact ⟨rfl, rfl⟩

theorem transformers_fail_for_good (extensions : Extensions) : FailsForGood TransformerDefinition extensions := by
  intro definition error failed
  obtain ⟨fault, rfl⟩ := TransformerDefinition.compile_fails failed
  exact ⟨rfl, rfl⟩

namespace Catalog

variable {catalog : Catalog δ γ} {error : DefinitionError}

theorem check_replaceable_fails {id : UInt32} (failed : catalog.checkReplaceable id = .error error) :
    error.IsFinal := by
  simp only [checkReplaceable] at failed
  split at failed
  · cases failed
  · split at failed
    · cases failed
      exact ⟨rfl, rfl⟩
    · cases failed

theorem check_name_free_fails {name : String} {id : UInt32} {displaced : Option UInt32}
    (failed : catalog.checkNameFree name id displaced = .error error) : error.IsFinal := by
  simp only [checkNameFree] at failed
  split at failed
  · cases failed
  · split at failed
    · cases failed
    · cases failed
      exact ⟨rfl, rfl⟩

theorem install_fails {definition : δ} {generator : γ} (failed : catalog.install definition generator = .error error) :
    error.IsFinal := by
  rcases bind_error failed with failed | ⟨_, _, failed⟩
  · exact check_replaceable_fails failed
  · rcases bind_error failed with failed | ⟨_, _, failed⟩
    · exact check_name_free_fails failed
    · cases failed

theorem replace_definition_fails {definition : δ} (failed : catalog.replaceDefinition definition = .error error) :
    error.IsFinal := by
  dsimp only [replaceDefinition] at failed
  split at failed
  · cases failed
    exact ⟨rfl, rfl⟩
  · rcases bind_error failed with failed | ⟨_, _, failed⟩
    · exact check_replaceable_fails failed
    · rcases bind_error failed with failed | ⟨_, _, failed⟩
      · exact check_name_free_fails failed
      · cases failed

theorem compile_into_fails {extensions : Extensions} (faults : FailsForGood δ extensions) {definition : δ}
    (failed : catalog.compileInto extensions definition = .error error) : error.IsFinal := by
  rcases bind_error failed with failed | ⟨_, _, failed⟩
  · exact faults definition error failed
  · rcases bind_error failed with failed | ⟨_, _, failed⟩
    · exact install_fails failed
    · cases failed

theorem install_displacing_fails {definition : δ} {generator : γ} {displaced : Option UInt32}
    (failed : catalog.installDisplacing definition generator displaced = .error error) : error.IsFinal := by
  rcases bind_error failed with failed | ⟨_, _, failed⟩
  · exact check_replaceable_fails failed
  · cases displaced with
    | none =>
        rcases bind_error failed with failed | ⟨_, _, failed⟩
        · cases failed
        · rcases bind_error failed with failed | ⟨_, _, failed⟩
          · exact check_name_free_fails failed
          · cases failed
    | some holder =>
        rcases bind_error failed with failed | ⟨_, _, failed⟩
        · exact check_replaceable_fails failed
        · rcases bind_error failed with failed | ⟨_, _, failed⟩
          · exact check_name_free_fails failed
          · cases failed

end Catalog

namespace Shelf

variable {α : Type} {extensions : Extensions}

-- A failure that is not one of a file is none of the gate either, and has changed nothing but
-- the counter.
def Spared (shelf : Shelf δ γ) (outcome : Except DefinitionError α × Shelf δ γ) : Prop :=
  ∀ error, outcome.1 = .error error → error.isPersistence = false →
    error.isRetryable = false ∧ ∃ ids, outcome.2 = { shelf with ids }

theorem persist_fails {definition : δ} {shelf : Shelf δ γ} {error : DefinitionError}
    (failed : (shelf.persist definition).1 = .error error) : error.isPersistence = true :=
  Archive.write_file_fails failed

theorem create_and_persist_spared (faults : FailsForGood δ extensions) (definition : δ) (shelf : Shelf δ γ) :
    shelf.Spared (shelf.createAndPersist extensions definition) := by
  obtain ⟨ids, counted⟩ := shelf.identify_counts definition
  unfold createAndPersist
  dsimp only
  split
  next error failed =>
    intro other raised _
    cases raised
    exact ⟨(Catalog.compile_into_fails faults failed).not_retryable, ids, counted⟩
  next installed catalog _ =>
    intro error failed early
    rw [persist_fails (map_error failed)] at early
    cases early

theorem add_spared (faults : FailsForGood δ extensions) (definition : δ) (shelf : Shelf δ γ) :
    shelf.Spared (shelf.add extensions definition) := by
  obtain ⟨ids, counted⟩ := shelf.identify_counts definition
  unfold add
  split
  · split
    next error failed =>
      intro other raised _
      cases raised
      exact ⟨(Catalog.replace_definition_fails failed).not_retryable, shelf.ids, rfl⟩
    next =>
      intro error failed
      cases failed
  · dsimp only
    split
    next error failed =>
      intro other raised _
      cases raised
      exact ⟨(Catalog.compile_into_fails faults failed).not_retryable, ids, counted⟩
    next =>
      intro error failed
      cases failed

theorem update_spared (definition : δ) (shelf : Shelf δ γ) : shelf.Spared (shelf.updateWithoutRecompile definition) := by
  simp only [updateWithoutRecompile]
  split
  next error failed =>
    intro other raised _
    cases raised
    exact ⟨(Catalog.replace_definition_fails failed).not_retryable, shelf.ids, rfl⟩
  next catalog _ =>
    intro error failed early
    rw [persist_fails failed] at early
    cases early

theorem remove_fails {id : UInt32} {shelf : Shelf δ γ} {error : DefinitionError}
    (failed : (shelf.remove id).1 = .error error) : error.isPersistence = true := by
  simp only [remove] at failed
  split at failed
  · exact Archive.delete_fails (map_error failed)
  · cases failed

-- The new id is marked as soon as it is live. After a failure it is not, unless it was live
-- before.
theorem create_spared (faults : FailsForGood δ extensions) (marksNew : Bool) (definition : δ) {shelf : Shelf δ γ}
    (fresh : shelf.ids.next ∉ shelf.catalog.ids) : shelf.Spared (shelf.create extensions marksNew definition) := by
  intro error failed early
  have created := create_and_persist_spared faults (Definition.withId shelf.ids.allocate.1 definition)
    { shelf with ids := shelf.ids.allocate.2 } error (map_error failed) early
  obtain ⟨final, ids, unchanged⟩ := created
  refine ⟨final, ids, ?_⟩
  have marked : (shelf.catalog.markNew shelf.ids.allocate.1).2 = shelf.catalog := Catalog.mark_absent fresh
  unfold create
  dsimp only
  rw [unchanged]
  dsimp only
  rw [marked]
  split <;> rfl

theorem carry_out_spared (faults : FailsForGood δ extensions) (marksNew : Bool) (change : Change) (definition : δ)
    {shelf : Shelf δ γ} (fresh : shelf.ids.next ∉ shelf.catalog.ids) :
    shelf.Spared (shelf.carryOut extensions marksNew change definition) := by
  cases change with
  | noop =>
      intro error failed
      cases failed
  | updateWithoutRecompile => exact fun error failed => update_spared definition shelf error (map_error failed)
  | update => exact fun error failed => create_and_persist_spared faults definition shelf error (map_error failed)
  | create => exact fun error failed => create_spared faults marksNew definition fresh error (map_error failed)

end Shelf

end Kind

namespace Registry

section Operations

variable {α : Type}

def Spared (registry : Registry) (outcome : Except DefinitionError α × Registry) : Prop :=
  ∀ error, outcome.1 = .error error → error.isPersistence = false →
    (∃ ids, outcome.2 = { registry with ids }) ∧ (error.isRetryable = true → outcome.2 = registry)

-- Every live id was handed out or is not handed out any more.
structure CountsAhead (registry : Registry) : Prop where
  indexes : ∀ id ∈ registry.indexes.ids, id < registry.ids.next
  transformers : ∀ id ∈ registry.transformers.ids, id < registry.ids.next

variable {registry : Registry}

-- Only the ids that are live are gone through, not all there are.
instance : Decidable registry.CountsAhead :=
  decidable_of_iff ((registry.indexes.ids.all fun id => decide (id < registry.ids.next)) = true ∧
      (registry.transformers.ids.all fun id => decide (id < registry.ids.next)) = true)
    ⟨fun ⟨indexes, transformers⟩ => ⟨by simpa using indexes, by simpa using transformers⟩,
      fun ahead => ⟨by simpa using ahead.indexes, by simpa using ahead.transformers⟩⟩

theorem CountsAhead.fresh_index (ahead : registry.CountsAhead) : registry.ids.next ∉ registry.indexes.ids :=
  fun live => UInt32.lt_irrefl _ (ahead.indexes _ live)

theorem CountsAhead.fresh_transformer (ahead : registry.CountsAhead) :
    registry.ids.next ∉ registry.transformers.ids :=
  fun live => UInt32.lt_irrefl _ (ahead.transformers _ live)

theorem spared_unchanged (result : Except DefinitionError α) : registry.Spared (result, registry) :=
  fun _ _ _ => ⟨⟨registry.ids, rfl⟩, fun _ => rfl⟩

theorem answered_spared {outcome : Except DefinitionError α × Registry} (spared : registry.Spared outcome) :
    registry.Spared (perform.answered outcome) :=
  fun error failed => spared error (map_error failed)

theorem on_indexes_spared
    {operation : Shelf IndexDefinition IndexGenerator →
      Except DefinitionError α × Shelf IndexDefinition IndexGenerator}
    (spared : registry.indexShelf.Spared (operation registry.indexShelf)) :
    registry.Spared (registry.onIndexes operation) := by
  intro error failed early
  obtain ⟨final, ids, unchanged⟩ := spared error failed early
  refine ⟨⟨ids, ?_⟩, fun retryable => ?_⟩
  · exact congrArg registry.withIndexShelf unchanged
  · rw [final] at retryable
    cases retryable

theorem on_transformers_spared
    {operation : Shelf TransformerDefinition TransformerGenerator →
      Except DefinitionError α × Shelf TransformerDefinition TransformerGenerator}
    (spared : registry.transformerShelf.Spared (operation registry.transformerShelf)) :
    registry.Spared (registry.onTransformers operation) := by
  intro error failed early
  obtain ⟨final, ids, unchanged⟩ := spared error failed early
  refine ⟨⟨ids, ?_⟩, fun retryable => ?_⟩
  · exact congrArg registry.withTransformerShelf unchanged
  · rw [final] at retryable
    cases retryable

theorem administering_spared (caller : Thread) {operation : Registry → Except DefinitionError α × Registry}
    (spared : registry.Spared (operation registry)) : registry.Spared (registry.administering caller operation) := by
  simp only [administering]
  split
  · exact spared
  · exact spared_unchanged _

theorem remove_index_spared (id : UInt32) (before : Registry) : registry.Spared (before.removeIndex id) :=
  fun _ failed early => by
    rw [Shelf.remove_fails failed] at early
    cases early

theorem remove_transformer_spared (id : UInt32) (before : Registry) : registry.Spared (before.removeTransformer id) :=
  fun _ failed early => by
    rw [Shelf.remove_fails failed] at early
    cases early

theorem put_index_spared (ahead : registry.CountsAhead) (caller : Thread) (definition : IndexDefinition) :
    registry.Spared (registry.putIndex caller definition) := by
  have carried : registry.Spared (registry.onIndexes fun shelf => shelf.carryOut registry.extensions true
      (registry.classifyIndex definition).1 (registry.classifyIndex definition).2) :=
    on_indexes_spared (Shelf.carry_out_spared (indexes_fail_for_good _) true _ _ ahead.fresh_index)
  rw [put_index_eq]
  cases registry.putRefusal? caller definition with
  | some error => exact spared_unchanged _
  | none => exact carried

theorem delete_index_spared (caller : Thread) (name : String) : registry.Spared (registry.deleteIndex caller name) := by
  apply administering_spared caller
  split
  · exact spared_unchanged _
  next id _ =>
    dsimp only
    split
    next error refused =>
      rw [ResultStorage.delete_index_fails refused]
      exact spared_unchanged _
    next => exact remove_index_spared id { registry with storage := (registry.storage.deleteIndex id).2 }

theorem persist_promoted_fails {displaced : Option UInt32} {definition : IndexDefinition}
    {shelf : Shelf IndexDefinition IndexGenerator} {error : DefinitionError}
    (failed : (persistPromoted displaced definition shelf).1 = .error error) : error.isPersistence = true := by
  unfold persistPromoted at failed
  dsimp only at failed
  split at failed
  next other deleted =>
    cases failed
    cases displaced with
    | none => cases deleted
    | some holder => exact Archive.delete_fails deleted
  next => exact Shelf.persist_fails (map_error failed)

theorem replace_index_spared (caller : Thread) (oldName newName : String) :
    registry.Spared (registry.replaceIndex caller oldName newName) := by
  unfold replaceIndex
  split
  · exact spared_unchanged _
  · apply administering_spared caller
    split
    · exact spared_unchanged _
    · dsimp only
      split
      · exact spared_unchanged _
      · split
        · exact spared_unchanged _
        · intro error failed early
          rw [persist_promoted_fails failed] at early
          cases early

theorem put_transformer_spared (ahead : registry.CountsAhead) (definition : TransformerDefinition) :
    registry.Spared (registry.putTransformer definition) := by
  simp only [putTransformer]
  split
  · exact spared_unchanged _
  · exact on_transformers_spared
      (Shelf.carry_out_spared (transformers_fail_for_good _) false _ _ ahead.fresh_transformer)

theorem delete_transformer_spared (name : String) : registry.Spared (registry.deleteTransformer name) := by
  simp only [deleteTransformer]
  split
  · exact spared_unchanged _
  next id _ => exact remove_transformer_spared id registry

theorem perform_spared (ahead : registry.CountsAhead) (event : Event) : registry.Spared (registry.perform event) := by
  cases event with
  | createIndex definition =>
      exact answered_spared
        (on_indexes_spared (Shelf.create_and_persist_spared (indexes_fail_for_good _) definition _))
  | addIndex definition => exact on_indexes_spared (Shelf.add_spared (indexes_fail_for_good _) definition _)
  | putIndex caller definition => exact answered_spared (put_index_spared ahead caller definition)
  | updateIndex definition => exact on_indexes_spared (Shelf.update_spared definition _)
  | removeIndex id => exact answered_spared (remove_index_spared id registry)
  | deleteIndex caller name => exact answered_spared (delete_index_spared caller name)
  | replaceIndex caller oldName newName => exact answered_spared (replace_index_spared caller oldName newName)
  | createTransformer definition =>
      exact answered_spared
        (on_transformers_spared (Shelf.create_and_persist_spared (transformers_fail_for_good _) definition _))
  | addTransformer definition =>
      exact on_transformers_spared (Shelf.add_spared (transformers_fail_for_good _) definition _)
  | putTransformer definition => exact answered_spared (put_transformer_spared ahead definition)
  | updateTransformer definition => exact on_transformers_spared (Shelf.update_spared definition _)
  | removeTransformer id => exact answered_spared (remove_transformer_spared id registry)
  | deleteTransformer name => exact answered_spared (delete_transformer_spared name)
  -- The other events cannot fail.
  | _ =>
      intro error failed
      cases failed

end Operations

section Waiting

variable {registry : Registry}

def timedOut (registry : Registry) {α : Type} : Except DefinitionError α × Registry :=
  (.error (.gateTimeout registry.settings.administrationTimeout.toNat), registry)

structure HeldUp (registry : Registry) (caller : Thread) : Prop where
  put : ∀ definition : IndexDefinition, Blank.isBlankText definition.name = false →
    (registry.classifyIndex definition).1.requiresCompile = true → registry.putIndex caller definition = registry.timedOut
  delete : ∀ name : String, registry.deleteIndex caller name = registry.timedOut
  replace : ∀ oldName newName : String, Blank.isBlankText newName = false →
    registry.replaceIndex caller oldName newName = registry.timedOut

theorem held_up_refused {caller : Thread} (refused : registry.traffic.gate.admits caller .administration = false) :
    registry.HeldUp caller := by
  have waits : ∀ {α : Type} (operation : Registry → Except DefinitionError α × Registry),
      registry.administering caller operation = registry.timedOut := by
    intro α operation
    rw [administering, refused]
    rfl
  constructor
  · intro definition named compiles
    simp [putIndex, checkName, named, compiles, waits]
  · exact fun name => waits _
  · intro oldName newName named
    simp [replaceIndex, checkName, named, waits]

theorem held_up_by_pass (sound : registry.traffic.Sound) {caller other : Thread} (different : other ≠ caller)
    (indexing : (other, .pass) ∈ registry.traffic.held) : registry.HeldUp caller := by
  apply held_up_refused
  have notWriter : registry.traffic.gate.isWriter caller = false := by
    rw [Bool.eq_false_iff]
    intro writes
    exact different (sound.alone (sound.writer_holds writes) indexing)
  simp [Gate.admits, notWriter, sound.read_by_others different indexing]

theorem administering_traffic (caller : Thread) {α : Type} {operation : Registry → Except DefinitionError α × Registry}
    (kept : (operation registry).2.traffic = registry.traffic) :
    (registry.administering caller operation).2.traffic = registry.traffic := by
  simp only [administering]
  split
  · exact kept
  · rfl

theorem put_index_traffic (caller : Thread) (definition : IndexDefinition) :
    (registry.putIndex caller definition).2.traffic = registry.traffic := by
  rw [put_index_eq]
  cases registry.putRefusal? caller definition <;> rfl

theorem delete_index_traffic (caller : Thread) (name : String) :
    (registry.deleteIndex caller name).2.traffic = registry.traffic := by
  apply administering_traffic caller
  split
  · rfl
  · dsimp only
    split <;> rfl

theorem replace_index_traffic (caller : Thread) (oldName newName : String) :
    (registry.replaceIndex caller oldName newName).2.traffic = registry.traffic := by
  unfold replaceIndex
  split
  · rfl
  · apply administering_traffic caller
    split
    · rfl
    · dsimp only
      split
      · rfl
      · split <;> rfl

theorem perform_traffic (event : Event) (registry : Registry) :
    (registry.perform event).2.traffic = registry.traffic ∨
      ∃ move, (registry.perform event).2.traffic = (registry.traffic.advance move).getD registry.traffic := by
  cases event with
  | turn move => exact .inr ⟨move, rfl⟩
  | putIndex caller definition => exact .inl (put_index_traffic caller definition)
  | deleteIndex caller name => exact .inl (delete_index_traffic caller name)
  | replaceIndex caller oldName newName => exact .inl (replace_index_traffic caller oldName newName)
  | putTransformer definition =>
      left
      simp only [perform, perform.answered, putTransformer]
      split <;> rfl
  | deleteTransformer name =>
      left
      simp only [perform, perform.answered, deleteTransformer]
      split <;> rfl
  | registerNew key =>
      left
      simp only [perform, registerNew]
      split <;> rfl
  | _ => exact .inl rfl

theorem perform_sound (event : Event) (registry : Registry) (sound : registry.traffic.Sound) :
    (registry.perform event).2.traffic.Sound := by
  rcases registry.perform_traffic event with same | ⟨move, moved⟩
  · rw [same]
    exact sound
  · rw [moved]
    cases made : registry.traffic.advance move with
    | none => exact sound
    | some next => exact Traffic.sound_advance sound made

theorem open_on_idle {settings : RegistrySettings} {extensions : Extensions} {storage : ResultStorage} {disk : Disk}
    {opened : Registry} (started : openOn settings extensions storage disk = .ok opened) : opened.traffic = .idle := by
  obtain ⟨_, _, started⟩ := bind_ok started
  obtain ⟨_, _, started⟩ := bind_ok started
  obtain ⟨_, _, started⟩ := bind_ok started
  cases started
  rfl

theorem run_sound {registry : Registry} (sound : registry.traffic.Sound) (events : List Event) :
    (registry.run events).traffic.Sound :=
  run_keeps (fun _ => True) (fun registry event _ => registry.perform_sound event) sound (fun _ _ => trivial)

/-- An operation that fails, at whatever moment the counter is ahead of all live ids, has changed nothing but the counter,
unless a file has failed, and not even the counter where the gate timed out. While another thread is in a pass, whatever
administers an index ends with that timeout. -/
theorem opened_run_spared {settings : RegistrySettings} {extensions : Extensions} {storage : ResultStorage} {disk : Disk}
    {opened : Registry} (started : openOn settings extensions storage disk = .ok opened) {events : List Event}
    (ahead : (opened.run events).CountsAhead) :
    (∀ event, (opened.run events).Spared ((opened.run events).perform event)) ∧
      ∀ caller other : Thread, other ≠ caller → (other, .pass) ∈ (opened.run events).traffic.held →
        (opened.run events).HeldUp caller := by
  constructor
  · exact perform_spared ahead
  · intro caller other different indexing
    have idle : opened.traffic.Sound := by
      rw [open_on_idle started]
      exact Traffic.sound_idle
    exact held_up_by_pass (run_sound idle events) different indexing

theorem opened_run_spared_indexing :
    let dogs : IndexDefinition := .ofSingleMap "Dogs" "from d in docs select new \x7b d.Name \x7d"
    let events : List Event := [.putIndex "main" dogs, .turn (.call ⟨"worker", .enter⟩)]
    let busy := (fresh .standard .builtins .empty).run events
    busy.indexes.ids = [1] ∧ busy.CountsAhead ∧ ("worker", .pass) ∈ busy.traffic.held ∧
      (∀ event, busy.Spared (busy.perform event)) ∧ busy.HeldUp "main" := by
  intro dogs events busy
  have started : openOn .standard .builtins .empty .absent = .ok (fresh .standard .builtins .empty) :=
    open_on_empty rfl _ _ rfl
  have live : busy.indexes.ids = [1] := by decide +kernel
  have noTransformers : busy.transformers.ids = [] := by decide +kernel
  have next : busy.ids.next = 2 := by decide +kernel
  have ahead : busy.CountsAhead := by
    constructor
    · simp [live, next]
    · simp [noTransformers]
  have indexing : ("worker", .pass) ∈ busy.traffic.held := by decide +kernel
  obtain ⟨spared, heldUp⟩ := opened_run_spared started ahead
  exact ⟨live, ahead, indexing, spared, heldUp "main" "worker" (by decide) indexing⟩

end Waiting

end Registry
end DocumentViews
