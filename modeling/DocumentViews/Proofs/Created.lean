import DocumentViews.Proofs.Prepared
import DocumentViews.Proofs.Reopen

set_option autoImplicit false

namespace DocumentViews

open LawfulDefinition ComparableDefinition

section Kind

variable {δ γ : Type} [Definition δ γ]

def Rules.created (δ : Type) {γ : Type} [Definition δ γ] : Rules δ where
  compiles := Prepared
  replaces _ _ := False
  keepsFiles := True
  removes _ := False

structure CatalogEntry.Current (extensions : Extensions) (entry : CatalogEntry δ γ) : Prop where
  prepared : Prepared entry.definition
  compiled : Definition.compile extensions entry.definition = .ok entry.generator

def Shelf.stored? (extensions : Extensions) (definition : δ) (shelf : Shelf δ γ) : Option δ :=
  match shelf.createAndPersist extensions definition with
  | (.ok name, after) => after.catalog.get? (.name name)
  | (.error _, _) => none

namespace Shelf

variable {extensions : Extensions} {shelf : Shelf δ γ}

theorem get_after_create (writable : shelf.archive.Writable) (definition : δ) (id : UInt32) :
    (shelf.createAndPersist extensions definition).2.catalog.get? (.id id) =
      ((shelf.stored? extensions definition).filter (Definition.id · = id)).or (shelf.catalog.get? (.id id)) := by
  rw [stored?]
  cases created : shelf.createAndPersist extensions definition with
  | mk answer after =>
      cases answer with
      | error error =>
          have unchanged := create_and_persist_unchanged writable (congrArg Prod.fst created)
          rw [created] at unchanged
          dsimp only at unchanged ⊢
          rw [unchanged, Option.filter_none, Option.none_or]
      | ok name =>
          obtain ⟨generator, rfl, _, placed⟩ := create_and_persist_ok (congrArg Prod.fst created)
          rw [created] at placed
          dsimp only at placed ⊢
          generalize Definition.fill (Definition.prepare (shelf.identify definition).1) generator = installed at placed ⊢
          have found : after.catalog.get? (.name (Definition.name installed)) = some installed := by
            simp [placed, Catalog.get?, Catalog.find_by_name, Catalog.place]
          rw [found, placed, Catalog.get?, Catalog.get?, Catalog.find_by_id, Catalog.find_by_id, Catalog.place,
            SortedMap.get_insert]
          by_cases own : id = Definition.id installed
          · simp [own, Option.filter]
          · simp [own, Option.filter, Ne.symm own]

end Shelf

variable [LawfulDefinition δ γ] {extensions : Extensions}

theorem current_invariant :
    EntryInvariant (.created δ) extensions fun _ (entry : CatalogEntry δ γ) => entry.Current extensions where
  compiled {definition generator} prepared compiled _ := by
    refine ⟨prepared_fill prepared generator, ?_⟩
    rw [← compile_bare, bare_fill, compile_bare]
    exact compiled
  replaced never := never.elim
  filled {_ entry} current := by
    refine ⟨prepared_fill current.prepared entry.generator, ?_⟩
    rw [← compile_bare, bare_fill, compile_bare]
    exact current.compiled

-- What was stored last is what is live before and, up to its fields, after the registry is
-- opened anew, unless it has a blank name. No other id is live.
structure Catalog.Survives (stored? : UInt32 → Option δ) (before after : Catalog δ γ) : Prop where
  live : ∀ id, before.get? (.id id) = stored? id
  restored : ∀ {id : UInt32} {definition : δ}, stored? id = some definition →
    Blank.isBlankText (Definition.name definition) = false →
      (∃ again, after.get? (.id id) = some again ∧ Definition.equivalent .exact definition again = true) ∧
        after.generator? (.id id) = before.generator? (.id id)
  lost : ∀ {id : UInt32} {definition : δ}, stored? id = some definition →
    Blank.isBlankText (Definition.name definition) = true → after.get? (.id id) = none
  absent : ∀ {id : UInt32}, stored? id = none → after.get? (.id id) = none

theorem Reloads.survives {stored? : UInt32 → Option δ} {before after : Catalog δ γ}
    (reloads : Reloads extensions before.named after) (consistent : before.Consistent)
    (current : before.All fun _ entry => entry.Current extensions)
    (matching : ∀ one other : δ, bare one = bare other → Definition.equivalent .exact one other = true)
    (live : ∀ id, before.get? (.id id) = stored? id) : before.Survives stored? after where
  live := live
  restored {id definition} last named := by
    obtain ⟨entry, found, rfl⟩ := Catalog.live_of_id ((live id).trans last)
    have kept : before.named.entries.get? id = some entry := by
      rw [consistent.get_named, found]
      simp [Option.filter, named]
    obtain ⟨again, present, sameGenerator, same⟩ := reloads.compiled kept (current id entry found).compiled
    refine ⟨⟨again.definition, ?_, matching _ _ same.symm⟩, ?_⟩
    · rw [Catalog.get?, Catalog.find_by_id, present, Option.map_some]
    · rw [Catalog.generator?, Catalog.generator?, Catalog.find_by_id, Catalog.find_by_id, present, found, Option.map_some,
        Option.map_some, sameGenerator]
  lost {id definition} last blank := by
    obtain ⟨entry, found, rfl⟩ := Catalog.live_of_id ((live id).trans last)
    have dropped : before.named.entries.get? id = none := by
      rw [consistent.get_named, found]
      simp [Option.filter, blank]
    rw [Catalog.get?, Catalog.find_by_id, reloads.absent dropped, Option.map_none]
  absent {id} nothing := by
    have missing : before.entries.get? id = none := by
      rw [← Catalog.find_by_id]
      exact Option.map_eq_none_iff.mp ((live id).trans nothing)
    have missingThere : before.named.entries.get? id = none := by
      rw [consistent.get_named, missing, Option.filter_none]
    rw [Catalog.get?, Catalog.find_by_id, reloads.absent missingThere, Option.map_none]

end Kind

theorem IndexDefinition.equivalent_of_bare (one other : IndexDefinition) (same : bare one = bare other) :
    Definition.equivalent .exact one other = true := by
  have compared : Definition.equivalent .exact (bare one) (bare other) = true := by
    rw [same]
    exact equivalent_self (bare other)
  exact compared

theorem TransformerDefinition.equivalent_of_bare (one other : TransformerDefinition) (same : bare one = bare other) :
    Definition.equivalent .exact one other = true := by
  have same : one = other := same
  rw [same]
  exact equivalent_self other

def Event.creates : Event → Bool
  | createIndex _ => true
  | createTransformer _ => true
  | _ => false

theorem Event.creates_keeps_files {event : Event} (creates : event.creates = true) : event.keepsFiles = true := by
  cases event <;> first | rfl | cases creates

def RunRules.created : RunRules := ⟨.created _, .created _, True⟩

namespace Registry

def storedIndex? (registry : Registry) : Event → Option IndexDefinition
  | .createIndex definition => registry.indexShelf.stored? registry.extensions definition
  | _ => none

def storedTransformer? (registry : Registry) : Event → Option TransformerDefinition
  | .createTransformer definition => registry.transformerShelf.stored? registry.extensions definition
  | _ => none

def lastStored? {δ γ : Type} [Definition δ γ] (stored? : Registry → Event → Option δ) (registry : Registry)
    (id : UInt32) : List Event → Option δ
  | [] => none
  | event :: rest =>
      (lastStored? stored? (registry.perform event).2 id rest).or
        ((stored? registry event).filter (Definition.id · = id))

theorem run_stores {δ γ : Type} [Definition δ γ] {catalog : Registry → Catalog δ γ}
    {stored? : Registry → Event → Option δ} {id : UInt32}
    (one : ∀ {registry : Registry} {event : Event}, registry.Mirrored → event.creates = true →
      (catalog (registry.perform event).2).get? (.id id) =
        ((stored? registry event).filter (Definition.id · = id)).or ((catalog registry).get? (.id id)))
    {registry : Registry} (mirrored : registry.Mirrored) {events : List Event}
    (creates : ∀ event ∈ events, event.creates = true) :
    (catalog (registry.run events)).get? (.id id) =
      (lastStored? stored? registry id events).or ((catalog registry).get? (.id id)) := by
  induction events generalizing registry with
  | nil => rfl
  | cons event rest ih =>
      obtain ⟨first, others⟩ := List.forall_mem_cons.mp creates
      have filed := registry.allows_filed (Event.creates_keeps_files first)
      have mirroredThere := comes_from_mirrored mirrored (perform_comes_from filed)
      rw [lastStored?, Option.or_assoc, ← one mirrored first]
      exact ih mirroredThere others

theorem perform_stores_index {registry : Registry} {event : Event} (id : UInt32) (mirrored : registry.Mirrored)
    (creates : event.creates = true) :
    (registry.perform event).2.indexes.get? (.id id) =
      ((registry.storedIndex? event).filter (Definition.id · = id)).or (registry.indexes.get? (.id id)) := by
  cases event with
  | createIndex definition =>
      have writable : registry.indexShelf.archive.Writable := mirrored.writable
      exact Shelf.get_after_create writable definition id
  | createTransformer definition => rfl
  | _ => cases creates

theorem perform_stores_transformer {registry : Registry} {event : Event} (id : UInt32) (mirrored : registry.Mirrored)
    (creates : event.creates = true) :
    (registry.perform event).2.transformers.get? (.id id) =
      ((registry.storedTransformer? event).filter (Definition.id · = id)).or (registry.transformers.get? (.id id)) := by
  cases event with
  | createTransformer definition =>
      have writable : registry.transformerShelf.archive.Writable := mirrored.writable
      exact Shelf.get_after_create writable definition id
  | createIndex definition => rfl
  | _ => cases creates

structure Current (registry : Registry) : Prop where
  indexes : registry.indexes.All fun _ entry => entry.Current registry.extensions
  transformers : registry.transformers.All fun _ entry => entry.Current registry.extensions

theorem allows_created (registry : Registry) {event : Event} (creates : event.creates = true) :
    registry.Allows .created event := by
  cases event with
  | createIndex definition => exact fun id => prepare_prepare (Definition.withId id definition)
  | createTransformer definition => exact fun id => prepare_prepare (Definition.withId id definition)
  | _ => cases creates

theorem comes_from_current {before after : Registry} (current : before.Current) (chain : ComesFrom .created before after) :
    after.Current where
  indexes := by
    rw [comes_from_extensions chain]
    exact comes_from_all_indexes trivial current_invariant current.indexes chain
  transformers := by
    rw [comes_from_extensions chain]
    exact comes_from_all_transformers trivial current_invariant current.transformers chain

theorem run_current {registry : Registry} (current : registry.Current) {events : List Event}
    (creates : ∀ event ∈ events, event.creates = true) : (registry.run events).Current := by
  apply run_keeps (fun event => event.creates = true) ?_ current creates
  intro between event allowed holds
  exact comes_from_current holds (perform_comes_from (between.allows_created allowed))

theorem fresh_current (settings : RegistrySettings) (extensions : Extensions) (storage : ResultStorage) :
    (fresh settings extensions storage).Current where
  indexes _ _ found := by cases found
  transformers _ _ found := by cases found

variable {settings again : RegistrySettings} {disk : Disk} {events : List Event}

theorem created_run_reopens (settings : RegistrySettings) (durable : again.runInMemory = false) (extensions : Extensions)
    (storage later : ResultStorage) (creates : ∀ event ∈ events, event.creates = true) :
    ∃ reopened,
      openOn again extensions later ((fresh settings extensions storage).run events).archive.disk = .ok reopened ∧
      Reloads extensions ((fresh settings extensions storage).run events).indexes.named reopened.indexes ∧
      Reloads extensions ((fresh settings extensions storage).run events).transformers.named reopened.transformers := by
  have current := run_current (fresh_current settings extensions storage) creates
  have inForm : ((fresh settings extensions storage).run events).InForm :=
    ⟨fun id entry found => (current.indexes id entry found).prepared,
      fun id entry found => (current.transformers id entry found).prepared⟩
  exact run_reopens_named settings durable extensions storage later
    (fun event member => Event.creates_keeps_files (creates event member)) inForm

/-- If definitions are only created in an empty directory, a registry that is opened there anew holds under each id what the
last create that succeeded has stored under it, unless that has a blank name. -/
theorem reopened_run_restores_created (durable : settings.runInMemory = false) (durableAgain : again.runInMemory = false)
    (extensions : Extensions) (storage later : ResultStorage) (isEmpty : IsEmpty disk)
    (creates : ∀ event ∈ events, event.creates = true) :
    ∃ opened reopened, openOn settings extensions storage disk = .ok opened ∧
      openOn again extensions later (opened.run events).archive.disk = .ok reopened ∧
      (opened.run events).indexes.Survives (lastStored? storedIndex? opened · events) reopened.indexes ∧
      (opened.run events).transformers.Survives (lastStored? storedTransformer? opened · events) reopened.transformers := by
  obtain ⟨reopened, started, indexes, transformers⟩ :=
    created_run_reopens settings durableAgain extensions storage later creates
  have consistent := run_consistent (fresh_consistent settings extensions storage) events
  have mirrored := fresh_mirrored settings extensions storage
  have current := run_current (fresh_current settings extensions storage) creates
  have same : ((fresh settings extensions storage).run events).extensions = extensions := run_extensions _ events
  obtain ⟨currentIndexes, currentTransformers⟩ := current
  rw [same] at currentIndexes currentTransformers
  refine ⟨_, reopened, open_on_empty durable extensions storage isEmpty, started, ?_, ?_⟩
  · refine indexes.survives consistent.1 currentIndexes IndexDefinition.equivalent_of_bare fun id => ?_
    exact (run_stores (perform_stores_index id) mirrored creates).trans (Option.or_none)
  · refine transformers.survives consistent.2 currentTransformers TransformerDefinition.equivalent_of_bare fun id => ?_
    exact (run_stores (perform_stores_transformer id) mirrored creates).trans (Option.or_none)

-- The second index overwrites the first one; the third one is not created, for its name is
-- taken.
theorem reopened_run_restores_overwritten :
    let dogs := { IndexDefinition.ofSingleMap "Dogs" "from d in docs select new \x7b d.Name \x7d" with id := 7 }
    let cats := { IndexDefinition.ofSingleMap "Cats" "from d in docs.Cats select new \x7b d.Name \x7d" with id := 7 }
    let events := [.createIndex dogs, .createTransformer (.ofQuery "Names" "from r in results select r.N"),
      .createIndex cats, .createIndex { dogs with id := 9, name := "CATS" }]
    ∃ opened reopened, openOn .standard .builtins .empty .absent = .ok opened ∧
      openOn .standard .builtins .empty (opened.run events).archive.disk = .ok reopened ∧
      (∃ again, reopened.indexes.get? (.id 7) = some again ∧ Definition.equivalent .exact cats again = true) ∧
      reopened.indexes.get? (.id 9) = none ∧
      (opened.run events).transformers.Survives (lastStored? storedTransformer? opened · events) reopened.transformers := by
  intro dogs cats events
  have durable : RegistrySettings.standard.runInMemory = false := rfl
  have isEmpty : IsEmpty .absent := rfl
  have creates : ∀ event ∈ events, event.creates = true := by simp [events, Event.creates]
  obtain ⟨opened, reopened, started, startedAgain, indexes, transformers⟩ :=
    reopened_run_restores_created durable durable .builtins .empty .empty isEmpty creates
  refine ⟨opened, reopened, started, startedAgain, ?_, ?_, transformers⟩
  · rw [open_on_empty durable .builtins .empty isEmpty] at started
    cases started
    have last : lastStored? storedIndex? (fresh .standard .builtins .empty) 7 events =
        some { cats with fields := ["Name", "__document_id"] } := by decide +kernel
    exact (indexes.restored last (by decide +kernel)).1
  · rw [open_on_empty durable .builtins .empty isEmpty] at started
    cases started
    exact indexes.absent (by decide +kernel)

-- A create takes a blank name, and the file that it writes is skipped.
theorem reopened_run_loses_unnamed :
    let unnamed : IndexDefinition := .ofSingleMap " " "from d in docs select new \x7b d.X \x7d"
    ∃ opened reopened, openOn .standard .builtins .empty .absent = .ok opened ∧
      openOn .standard .builtins .empty (opened.run [.createIndex unnamed]).archive.disk = .ok reopened ∧
      (opened.createAndPersistIndex unnamed).1.toOption = some " " ∧
      (opened.run [.createIndex unnamed]).indexes.isLive 1 = true ∧ reopened.indexes.isLive 1 = false := by
  intro unnamed
  have durable : RegistrySettings.standard.runInMemory = false := rfl
  have creates : ∀ event ∈ [Event.createIndex unnamed], event.creates = true := by simp [Event.creates]
  obtain ⟨reopened, startedAgain, indexes, _⟩ := created_run_reopens .standard durable .builtins .empty .empty creates
  refine ⟨_, reopened, open_on_empty durable .builtins .empty rfl, startedAgain, ?_, ?_, ?_⟩
  · decide +kernel
  · decide +kernel
  · rw [Catalog.isLive, SortedMap.contains, indexes.absent (by decide +kernel)]
    rfl

end Registry
end DocumentViews
