import DocumentViews.Proofs.Provenance
import DocumentViews.Proofs.Report

set_option autoImplicit false

namespace DocumentViews

open DefinitionKind (IsDefinitionName)
open Listing (Holds)

section Kind

variable {δ γ : Type} [Definition δ γ]

theorem Shelf.remove_gone {shelf : Shelf δ γ} {id : UInt32} (durable : shelf.archive.isDurable = true)
    (removed : (shelf.remove id).1 = .ok true) :
    (shelf.remove id).2.archive.disk.get? ((Definition.kind δ).fileName id) = none := by
  have stillDurable : (shelf.relist (shelf.catalog.remove id)).archive.isDurable = true :=
    (shelf.relist_derives _).durable.trans durable
  simp only [remove] at removed ⊢
  split at removed
  next live =>
    rw [if_pos live]
    apply Archive.delete_done stillDurable
    cases deleted : ((shelf.relist (shelf.catalog.remove id)).archive.delete (Definition.kind δ) id).1 with
    | ok done => rfl
    | error error =>
        have failed : Except.map (fun _ => true)
            ((shelf.relist (shelf.catalog.remove id)).archive.delete (Definition.kind δ) id).1 = .ok true := removed
        rw [deleted] at failed
        cases failed
  next => cases removed

theorem Archive.delete_answers {archive : Archive} {kind : DefinitionKind} {id : UInt32} {directory : Directory}
    (present : archive.disk = .present directory) (free : archive.disk.get? (kind.fileName id) = none) :
    (archive.delete kind id).1 = .ok () := by
  have noFolder : directory.get? (kind.fileName id) = none := by
    rwa [present] at free
  simp only [Archive.delete, present, Disk.removeFile?, noFolder]
  split <;> rfl

theorem Shelf.remove_answers {shelf : Shelf δ γ} {id : UInt32} (live : shelf.catalog.isLive id = true)
    {directory : Directory} (present : shelf.archive.disk = .present directory)
    (free : shelf.archive.disk.get? ((Definition.kind δ).fileName id) = none) : (shelf.remove id).1 = .ok true := by
  have listed := ({ shelf with catalog := shelf.catalog.remove id } : Shelf δ γ).refresh_keeps
  obtain ⟨later, presentThere⟩ := listed.present present
  have deleted := Archive.delete_answers presentThere ((listed.files ⟨_, _, rfl⟩).trans free)
  rw [remove, if_pos live]
  dsimp only
  rw [deleted]
  rfl

variable [LawfulDefinition δ γ]

theorem Listing.held_written [Provenance δ] {directory : Directory} {file : DefinitionFile} {definition : δ}
    (holds : Holds directory file definition) (written : WrittenFor file.name file.node) :
    file.name = (Definition.kind δ).fileName (Definition.id definition) := by
  obtain ⟨stem, name⟩ := Listing.file_extension holds.1
  rw [name] at written
  obtain ⟨stored, own, content⟩ := Provenance.of_written written
  have found := (Listing.mem_files_iff.mp holds.1).2
  rw [name, own, content, DefinitionFile.of_node_written] at found
  have read := holds.2
  rw [← Option.some.inj found] at read
  rw [name, own, (DefinitionFile.read_written_iff.mp read).2]

theorem Archive.Derives.held_elsewhere [Provenance δ] {before after : Archive} {directory : Directory}
    (derives : Archive.Derives before after) (present : after.disk = .present directory) {file : DefinitionFile} {definition : δ}
    (gone : after.disk.get? ((Definition.kind δ).fileName (Definition.id definition)) = none)
    (holds : Holds directory file definition) :
    file.name ≠ (Definition.kind δ).fileName (Definition.id definition) ∧ before.disk.get? file.name = some file.node ∧
      after.disk.get? file.name = some file.node := by
  have there : after.disk.get? file.name = some file.node := by
    rw [present]
    exact (Listing.mem_files_iff.mp holds.1).1
  have elsewhere : file.name ≠ (Definition.kind δ).fileName (Definition.id definition) := by
    intro same
    rw [same, gone] at there
    cases there
  obtain ⟨stem, name⟩ := Listing.file_extension holds.1
  rcases derives.files ⟨_, stem, name⟩ there with started | written
  · exact ⟨elsewhere, started, there⟩
  · exact absurd (Listing.held_written holds written) elsewhere

theorem Catalog.Told.held {extensions : Extensions} {directory : Directory} {loaded : Nat} {report : LoadReport}
    {catalog : Catalog δ γ} (told : catalog.Told extensions directory loaded report) {id : UInt32}
    (live : catalog.isLive id = true) :
    ∃ (file : DefinitionFile) (definition : δ), Holds directory file definition ∧ Definition.id definition = id ∧
      Compiles extensions definition := by
  obtain ⟨archive, loading, ledger, _, rfl, rfl⟩ := told
  obtain ⟨entry, found⟩ := (Catalog.isLive_iff _ _).mp live
  obtain ⟨definition, member, own⟩ := ledger.tallies.stored found
  obtain ⟨file, holds⟩ := Listing.mem_definitions_iff.mp (Fates.mem_of_live member)
  exact ⟨file, definition, holds, own, Fates.installed_compiles extensions _ definition (List.mem_append_left _ member)⟩

theorem Catalog.Told.held_elsewhere [Provenance δ] {extensions : Extensions} {directory listed : Directory} {loaded : Nat}
    {report : LoadReport} {catalog : Catalog δ γ} (told : catalog.Told extensions listed loaded report)
    (agree : ∀ stem : String, listed.get? (stem ++ "." ++ (Definition.kind δ).fileExtension) =
      directory.get? (stem ++ "." ++ (Definition.kind δ).fileExtension)) {id : UInt32} (live : catalog.isLive id = true)
    {before after : Archive} (derives : Archive.Derives before after) (present : after.disk = .present directory)
    (gone : after.disk.get? ((Definition.kind δ).fileName id) = none) :
    ∃ file : DefinitionFile,
      (DefinitionFile.ofNode? (Definition.kind δ).fileExtension (file.name, file.node) = some file ∧
        ∃ definition : δ, file.read = .ok definition ∧ Definition.id definition = id ∧ Compiles extensions definition) ∧
      file.name ≠ (Definition.kind δ).fileName id ∧ before.disk.get? file.name = some file.node ∧
      after.disk.get? file.name = some file.node := by
  obtain ⟨file, definition, holdsThen, rfl, compiles⟩ := told.held live
  have holds := (Listing.holds_congr agree file definition).mp holdsThen
  exact ⟨file, ⟨(Listing.mem_files_iff.mp holds.1).2, definition, holds.2, rfl, compiles⟩,
    derives.held_elsewhere present gone holds⟩

end Kind

def DefinitionFile.Tells (extensions : Extensions) (kind : DefinitionKind) (id : UInt32) (file : DefinitionFile) : Prop :=
  DefinitionFile.ofNode? kind.fileExtension (file.name, file.node) = some file ∧
    match kind with
    | .index => ∃ definition : IndexDefinition, file.read = .ok definition ∧ definition.id = id ∧
        Compiles extensions definition
    | .transformer => ∃ definition : TransformerDefinition, file.read = .ok definition ∧ definition.id = id ∧
        Compiles extensions definition

-- A file that the id does not name has held a definition of that id all along.
def HeldElsewhere (extensions : Extensions) (origin closed : Disk) (kind : DefinitionKind) (id : UInt32) : Prop :=
  ∃ file : DefinitionFile, file.Tells extensions kind id ∧ file.name ≠ kind.fileName id ∧
    origin.get? file.name = some file.node ∧ closed.get? file.name = some file.node

namespace Registry

def isLive (kind : DefinitionKind) (id : UInt32) (registry : Registry) : Bool :=
  match kind with
  | .index => registry.indexes.isLive id
  | .transformer => registry.transformers.isLive id

inductive Removes (registry : Registry) : DefinitionKind → UInt32 → Registry → Prop
  | index {id : UInt32} {after : Registry} : registry.removeIndex id = (.ok true, after) → Removes registry .index id after
  | indexNamed {caller : Thread} {name : String} {id : UInt32} {after : Registry} :
      registry.indexes.resolve (.name name) = some id → registry.deleteIndex caller name = (.ok true, after) →
        Removes registry .index id after
  | transformer {id : UInt32} {after : Registry} :
      registry.removeTransformer id = (.ok true, after) → Removes registry .transformer id after
  | transformerNamed {name : String} {id : UInt32} {after : Registry} :
      registry.transformers.resolve (.name name) = some id → registry.deleteTransformer name = (.ok true, after) →
        Removes registry .transformer id after

-- No event of a run writes the file of an id: it stays as it is, or it goes.
def Unwritten (kind : DefinitionKind) (id : UInt32) : Registry → List Event → Prop
  | _, [] => True
  | registry, event :: events =>
      (∀ node, (registry.perform event).2.archive.disk.get? (kind.fileName id) = some node →
        registry.archive.disk.get? (kind.fileName id) = some node) ∧ Unwritten kind id (registry.perform event).2 events

variable {registry after : Registry} {kind : DefinitionKind} {id : UInt32}

theorem delete_index_removes {caller : Thread} {name : String} (resolved : registry.indexes.resolve (.name name) = some id)
    (deleted : registry.deleteIndex caller name = (.ok true, after)) :
    ∃ storage, { registry with storage }.removeIndex id = (.ok true, after) := by
  simp only [deleteIndex, administering, resolved] at deleted
  split at deleted
  · split at deleted
    · cases deleted
    · exact ⟨_, deleted⟩
  · cases deleted

theorem delete_transformer_removes {name : String} (resolved : registry.transformers.resolve (.name name) = some id)
    (deleted : registry.deleteTransformer name = (.ok true, after)) :
    registry.removeTransformer id = (.ok true, after) := by
  simpa only [deleteTransformer, resolved] using deleted

theorem Removes.removal (removes : Removes registry kind id after) : Archive.Derives registry.archive after.archive ∧
    (registry.archive.isDurable = true → after.archive.disk.get? (kind.fileName id) = none) := by
  have onIndexes : ∀ before : Registry, before.removeIndex id = (.ok true, after) →
      Archive.Derives before.archive after.archive ∧
        (before.archive.isDurable = true → after.archive.disk.get? (DefinitionKind.index.fileName id) = none) := by
    intro before removed
    have answered : (before.indexShelf.remove id).1 = .ok true := congrArg Prod.fst removed
    have left : before.withIndexShelf (before.indexShelf.remove id).2 = after := congrArg Prod.snd removed
    rw [← left]
    exact ⟨before.indexShelf.remove_derives id, fun durable => Shelf.remove_gone durable answered⟩
  have onTransformers : registry.removeTransformer id = (.ok true, after) →
      Archive.Derives registry.archive after.archive ∧
        (registry.archive.isDurable = true → after.archive.disk.get? (DefinitionKind.transformer.fileName id) = none) := by
    intro removed
    have answered : (registry.transformerShelf.remove id).1 = .ok true := congrArg Prod.fst removed
    have left : registry.withTransformerShelf (registry.transformerShelf.remove id).2 = after := congrArg Prod.snd removed
    rw [← left]
    exact ⟨registry.transformerShelf.remove_derives id, fun durable => Shelf.remove_gone durable answered⟩
  cases removes with
  | index removed => exact onIndexes registry removed
  | indexNamed resolved deleted =>
      obtain ⟨storage, removed⟩ := delete_index_removes resolved deleted
      exact onIndexes { registry with storage } removed
  | transformer removed => exact onTransformers removed
  | transformerNamed resolved deleted => exact onTransformers (delete_transformer_removes resolved deleted)

theorem Unwritten.stays_gone {events : List Event} (unwritten : Unwritten kind id registry events)
    (gone : registry.archive.disk.get? (kind.fileName id) = none) :
    (registry.run events).archive.disk.get? (kind.fileName id) = none := by
  induction events generalizing registry with
  | nil => exact gone
  | cons event events ih =>
      obtain ⟨kept, rest⟩ := unwritten
      apply ih rest
      cases found : (registry.perform event).2.archive.disk.get? (kind.fileName id) with
      | none => rfl
      | some node =>
          have before := kept node found
          rw [gone] at before
          cases before

theorem of_archive_in_memory {δ γ : Type} [Definition δ γ] (extensions : Extensions) (cleanUp : CleanUp) (ids : IdCounter)
    (storage : ResultStorage) {archive : Archive} (inMemory : archive.isDurable = false) :
    Loading.ofArchive extensions cleanUp ids archive storage = .ok (Loading.start ids archive storage : Loading δ γ) := by
  rw [Loading.ofArchive, bind_of_ok _ (Archive.list_in_memory inMemory)]
  rfl

theorem open_on_in_memory {settings : RegistrySettings} (inMemory : settings.runInMemory = true) (extensions : Extensions)
    (storage : ResultStorage) (disk : Disk) :
    ∃ opened, openOn settings extensions storage disk = .ok opened ∧ opened.indexes = .empty ∧
      opened.transformers = .empty := by
  have archived : Archive.openOn settings disk = .ok ⟨false, disk⟩ := by
    rw [Archive.openOn, if_pos inMemory]
  rw [openOn, bind_of_ok _ archived, bind_of_ok _ (of_archive_in_memory extensions _ _ _ rfl), Loading.start,
    bind_of_ok _ (of_archive_in_memory extensions _ _ _ rfl)]
  exact ⟨_, rfl, rfl, rfl⟩

theorem open_archive_spec {settings : RegistrySettings} (durable : settings.runInMemory = false) {disk : Disk}
    {archive : Archive} (archived : Archive.openOn settings disk = .ok archive) :
    archive.isDurable = true ∧ (∃ directory, archive.disk = .present directory) ∧
      ∀ name, archive.disk.get? name = disk.get? name := by
  simp only [Archive.openOn, durable, Bool.false_eq_true, if_false] at archived
  cases disk with
  | absent =>
      cases archived
      exact ⟨rfl, ⟨_, rfl⟩, fun _ => rfl⟩
  | blocked => cases archived
  | present directory =>
      cases archived
      exact ⟨rfl, ⟨_, rfl⟩, fun _ => rfl⟩

/-- What was removed, and not written again, stays removed: once the directory is opened again a definition of that kind and
id can only be live if a file that the id does not name has held it all along. -/
theorem reopened_run_removed {settings : RegistrySettings} {extensions : Extensions} {storage : ResultStorage} {disk : Disk}
    {opened : Registry} (started : openOn settings extensions storage disk = .ok opened) {events later : List Event}
    (own : ∀ event ∈ events ++ later, event.meddles = false) {kind : DefinitionKind} {id : UInt32} {after : Registry}
    (removes : (opened.run events).Removes kind id after) (unwritten : after.Unwritten kind id later)
    (extensionsThen : Extensions) (storageThen : ResultStorage) :
    ∃ reopened, openOn settings extensionsThen storageThen (after.run later).archive.disk = .ok reopened ∧
      (reopened.isLive kind id = true →
        HeldElsewhere extensionsThen disk (after.run later).archive.disk kind id) := by
  obtain ⟨archive, archived, opening⟩ := open_on_derives started
  obtain ⟨removal, gone⟩ := removes.removal
  have derives := opening.trans ((run_derives opened fun event member => own event (List.mem_append_left _ member)).trans
    (removal.trans (run_derives after fun event member => own event (List.mem_append_right _ member))))
  cases inMemory : settings.runInMemory with
  | true =>
      obtain ⟨reopened, again, indexes, transformers⟩ := open_on_in_memory inMemory extensionsThen storageThen
        (after.run later).archive.disk
      refine ⟨reopened, again, fun live => ?_⟩
      cases kind with
      | index =>
          rw [isLive, indexes] at live
          cases live
      | transformer =>
          rw [isLive, transformers] at live
          cases live
  | false =>
      obtain ⟨durable, ⟨_, present⟩, sameFiles⟩ := open_archive_spec inMemory archived
      obtain ⟨directory, closed⟩ := derives.present present
      have gone := unwritten.stays_gone (gone ((opening.trans (run_derives opened fun event member =>
        own event (List.mem_append_left _ member))).durable.trans durable))
      obtain ⟨reopened, _, again, indexes, agree, transformers⟩ := open_on_told inMemory extensionsThen storageThen
        (by rw [closed]; rfl : (after.run later).archive.disk.withDirectory? = some (.present directory))
      refine ⟨reopened, again, fun live => ?_⟩
      cases kind with
      | index =>
          obtain ⟨file, tells, elsewhere, before, still⟩ := indexes.held_elsewhere (fun _ => rfl) live derives closed gone
          exact ⟨file, tells, elsewhere, (sameFiles _).symm.trans before, still⟩
      | transformer =>
          obtain ⟨file, tells, elsewhere, before, still⟩ := transformers.held_elsewhere agree live derives closed gone
          exact ⟨file, tells, elsewhere, (sameFiles _).symm.trans before, still⟩

theorem reopened_run_removed_created :
    let dogs : IndexDefinition := .ofSingleMap "Dogs" "from d in docs select new \x7b d.Name \x7d"
    let cats : IndexDefinition := .ofSingleMap "Cats" "from d in docs.Cats select new \x7b d.Name \x7d"
    let events : List Event := [.createIndex dogs]
    let later : List Event := [.putIndex "main" cats]
    ∃ opened after reopened, openOn .standard .builtins .empty .absent = .ok opened ∧
      (opened.run events).deleteIndex "main" "DOGS" = (.ok true, after) ∧ after.Unwritten .index 1 later ∧
      openOn .standard .builtins .empty (after.run later).archive.disk = .ok reopened ∧ reopened.isLive .index 1 = false := by
  intro dogs cats events later
  have started : openOn .standard .builtins .empty .absent = .ok (fresh .standard .builtins .empty) :=
    open_on_empty rfl _ _ rfl
  let before := (fresh .standard .builtins .empty).run events
  have answered : (before.deleteIndex "main" "DOGS").1 = .ok true := ok_of_to_option (by decide +kernel)
  have resolved : before.indexes.resolve (.name "DOGS") = some 1 := by decide +kernel
  have unwritten : (before.deleteIndex "main" "DOGS").2.Unwritten .index 1 later := by
    refine ⟨fun node found => ?_, trivial⟩
    have gone : ((before.deleteIndex "main" "DOGS").2.perform (.putIndex "main" cats)).2.archive.disk.get?
        (DefinitionKind.index.fileName 1) = none := by decide +kernel
    rw [gone] at found
    cases found
  obtain ⟨reopened, again, lingers⟩ := reopened_run_removed started (by decide)
    (.indexNamed resolved (Prod.ext answered rfl)) unwritten .builtins .empty
  refine ⟨_, _, reopened, started, Prod.ext answered rfl, unwritten, again, Bool.eq_false_iff.mpr fun live => ?_⟩
  obtain ⟨_, _, _, origin, _⟩ := lingers live
  cases origin

theorem open_on_single {directory : Directory} {file : DefinitionFile} {definition : IndexDefinition}
    (files : Listing.files .index directory = [file]) (read : file.read = .ok definition)
    (compiles : Compiles .builtins definition) (others : Listing.files .transformer directory = []) :
    ∃ opened, openOn .standard .builtins .empty (.present directory) = .ok opened ∧
      opened.indexes.isLive definition.id = true ∧
      Archive.Keeps IsDefinitionName ⟨true, .present directory⟩ opened.archive := by
  let archive : Archive := ⟨true, .present directory⟩
  have archived : Archive.openOn .standard (.present directory) = .ok archive := rfl
  have indexListing : (Listing.ofDirectory directory : Listing IndexDefinition) = ⟨[definition], []⟩ := by
    refine Listing.of_directory_eq ?_ (List.pairwise_singleton _ _)
    change List.Forall₂ _ (Listing.files .index directory) _
    rw [files]
    exact .cons read .nil
  have transformerListing : (Listing.ofDirectory directory : Listing TransformerDefinition) = ⟨[], []⟩ := by
    refine Listing.of_directory_eq ?_ List.Pairwise.nil
    change List.Forall₂ _ (Listing.files .transformer directory) _
    rw [others]
    exact .nil
  -- The index is loaded into an empty catalog, so no file changes.
  let begun : Loading IndexDefinition IndexGenerator := (Loading.start .initial archive .empty).noteSkipped []
  have free : ∀ other ∈ [definition], Loading.Free begun.shelf.catalog other := fun _ _ => ⟨rfl, rfl⟩
  obtain ⟨sameArchive, admits, _⟩ := Loading.load_all .builtins cleanUpIndex
    (List.pairwise_singleton Loading.Apart definition) free
  have indexesListed : (archive.list : Except DefinitionError (Listing IndexDefinition)) = .ok ⟨[definition], []⟩ :=
    (Archive.list_present rfl rfl).trans (congrArg Except.ok indexListing)
  let loaded := [definition].foldl (Loading.add .builtins cleanUpIndex) begun
  have indexesLoaded : Loading.ofArchive .builtins cleanUpIndex .initial archive .empty = .ok loaded :=
    bind_of_ok _ indexesListed
  have loadedArchive : loaded.shelf.archive = archive :=
    sameArchive.trans (Loading.note_skipped_archive (Loading.start .initial archive .empty) [])
  have transformersListed : (loaded.shelf.archive.list : Except DefinitionError (Listing TransformerDefinition)) =
      .ok ⟨[], []⟩ := by
    rw [loadedArchive, Archive.list_present rfl rfl, transformerListing]
  have transformersLoaded : Loading.ofArchive .builtins cleanUpTransformer loaded.shelf.ids loaded.shelf.archive
      loaded.storage = .ok ((Loading.start loaded.shelf.ids loaded.shelf.archive loaded.storage :
        Loading TransformerDefinition TransformerGenerator).noteSkipped []) :=
    bind_of_ok _ transformersListed
  rw [openOn, bind_of_ok _ archived, bind_of_ok _ indexesLoaded, bind_of_ok _ transformersLoaded]
  refine ⟨_, rfl, ?_, ?_⟩
  · obtain ⟨generator, compiled⟩ := compiles
    obtain ⟨entry, found, _⟩ := (admits definition (List.mem_singleton_self _)).compiled compiled
    exact (Catalog.isLive_iff _ _).mpr ⟨entry, found⟩
  · have unchanged : Archive.Keeps IsDefinitionName archive loaded.shelf.archive := by
      rw [loadedArchive]
      exact Archive.keeps_all _ _
    exact unchanged.trans (listings_keep loaded.shelf ((Loading.start loaded.shelf.ids loaded.shelf.archive loaded.storage :
      Loading TransformerDefinition TransformerGenerator).noteSkipped []).shelf)

-- The file that the id names is deleted, but the definition was read from another one.
theorem reopened_run_removed_lingers :
    let dogs : IndexDefinition := { IndexDefinition.ofSingleMap "A" "from d in docs select new \x7b d.X \x7d" with id := 1 }
    ∃ directory opened after reopened, directory.entries = [("a.index", .text (Definition.toValue dogs).pretty)] ∧
      openOn .standard .builtins .empty (.present directory) = .ok opened ∧ opened.removeIndex 1 = (.ok true, after) ∧
      openOn .standard .builtins .empty after.archive.disk = .ok reopened ∧ reopened.isLive .index 1 = true := by
  intro dogs
  let directory : Directory := ⟨[("a.index", .text (Definition.toValue dogs).pretty)], by decide⟩
  let file : DefinitionFile := ⟨"a.index", none, .text (Definition.toValue dogs).pretty⟩
  have parts : splitExtension "a.index" = some (['a'], DefinitionKind.index.fileExtension.toList) := by decide +kernel
  have files : Listing.files .index directory = [file] := by
    have id : parseId? ['a'] = none := by decide +kernel
    exact Listing.files_eq (by simp [directory, file, DefinitionFile.ofNode?, parts, id]) (List.pairwise_singleton _ _)
  have others : Listing.files .transformer directory = [] := by
    have different : ¬ DefinitionKind.index.fileExtension.toList = DefinitionKind.transformer.fileExtension.toList := by decide
    exact Listing.files_eq (by simp [directory, DefinitionFile.ofNode?, parts, different]) List.Pairwise.nil
  have read : file.read = .ok dogs := DefinitionFile.read_text rfl (by decide) (by decide)
  have compiles : Compiles .builtins dogs := is_ok_exists (by decide +kernel)
  obtain ⟨opened, started, live, keeps⟩ := open_on_single files read compiles others
  have unnamed : opened.archive.disk.get? (DefinitionKind.index.fileName 1) = none :=
    (keeps.files ⟨.index, _, rfl⟩).trans (by decide +kernel : directory.get? (DefinitionKind.index.fileName 1) = none)
  obtain ⟨between, present⟩ := keeps.present rfl
  have answered : (opened.indexShelf.remove 1).1 = .ok true := Shelf.remove_answers live present unnamed
  have gone : (opened.indexShelf.remove 1).2.archive.disk.get? (DefinitionKind.index.fileName 1) = none :=
    Shelf.remove_gone keeps.durable answered
  have removal := opened.indexShelf.remove_keeps 1
  obtain ⟨later, presentThere⟩ := removal.present present
  have closed : (opened.removeIndex 1).2.archive.disk = .present later := presentThere
  have gone : later.get? (DefinitionKind.index.fileName 1) = none := by
    rwa [presentThere] at gone
  -- Of the files of definitions only that of the id could have changed, and there was none.
  have agree : ∀ (kind : DefinitionKind) (stem : String), later.get? (stem ++ "." ++ kind.fileExtension) =
      directory.get? (stem ++ "." ++ kind.fileExtension) := by
    intro kind stem
    have before : opened.archive.disk.get? (stem ++ "." ++ kind.fileExtension) =
        directory.get? (stem ++ "." ++ kind.fileExtension) := keeps.files ⟨kind, stem, rfl⟩
    by_cases own : stem ++ "." ++ kind.fileExtension = DefinitionKind.index.fileName 1
    · rw [own] at before ⊢
      exact gone.trans (unnamed.symm.trans before)
    · have kept := removal.files ⟨⟨kind, stem, rfl⟩, own⟩
      rw [presentThere] at kept
      exact kept.trans before
  have filesThen : Listing.files .index later = [file] := List.perm_singleton.mp (files ▸ Listing.files_perm (agree .index))
  have othersThen : Listing.files .transformer later = [] :=
    List.perm_nil.mp (others ▸ Listing.files_perm (agree .transformer))
  obtain ⟨reopened, again, liveAgain, _⟩ := open_on_single filesThen read compiles othersThen
  exact ⟨directory, opened, _, reopened, rfl, started, Prod.ext answered rfl, by rw [closed]; exact again, liveAgain⟩

end Registry
end DocumentViews
