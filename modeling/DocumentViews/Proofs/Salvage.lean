import DocumentViews.Proofs.Archive.Listing
import DocumentViews.Proofs.Newest
import DocumentViews.Proofs.Run

set_option autoImplicit false

namespace DocumentViews

open Listing (Holds Readable Orderly)

namespace Loading

variable {δ γ : Type} [Definition δ γ] [LawfulDefinition δ γ]

theorem of_archive_loaded (extensions : Extensions) (cleanUp : CleanUp) (ids : IdCounter) (storage : ResultStorage)
    {archive : Archive} {directory : Directory} (durable : archive.isDurable = true)
    (present : archive.disk = .present directory) (orderly : Orderly δ directory) :
    ∃ loading : Loading δ γ, ofArchive extensions cleanUp ids archive storage = .ok loading ∧
      Loaded extensions archive (Listing.ofDirectory directory : Listing δ).definitions loading := by
  have catalog := note_skipped_catalog (start ids archive storage : Loading δ γ)
    (Listing.ofDirectory directory : Listing δ).skipped
  have sameArchive := note_skipped_archive (start ids archive storage : Loading δ γ)
    (Listing.ofDirectory directory : Listing δ).skipped
  have nothing : Loaded extensions (start ids archive storage : Loading δ γ).shelf.archive []
      ((start ids archive storage : Loading δ γ).noteSkipped (Listing.ofDirectory directory : Listing δ).skipped) := by
    rw [← sameArchive]
    apply loaded_start extensions
    · rw [catalog]
      exact Catalog.consistent_empty
    · rw [catalog]
      rfl
  exact ⟨_, bind_of_ok _ (Archive.list_present durable present), nothing.add_all cleanUp (Listing.definitions_ascending orderly)⟩

theorem Loaded.other_kind {extensions : Extensions} {origin : Archive} {definitions : List δ} {loading : Loading δ γ}
    (loaded : Loaded extensions origin definitions loading) {kind : DefinitionKind} (different : kind ≠ Definition.kind δ)
    (stem : String) : loading.shelf.archive.disk.get? (stem ++ "." ++ kind.fileExtension) =
      origin.disk.get? (stem ++ "." ++ kind.fileExtension) := by
  have left : LeavesFile extensions definitions (stem ++ "." ++ kind.fileExtension) :=
    ⟨⟨kind, stem, rfl⟩, fun definition _ _ => DefinitionKind.file_name_of_other different stem _⟩
  exact loaded.archive.files left

end Loading

namespace Catalog

variable {δ γ : Type} [Definition δ γ]

-- What is asked of a name: if a definition of that name compiles, one is live, and the file of
-- one that compiles is left unless another one is live in its place.
structure KeepsName (extensions : Extensions) (directory : Directory) (disk : Disk) (catalog : Catalog δ γ)
    (name : String) : Prop where
  live : ∀ {definition : δ}, Readable directory definition → foldName (Definition.name definition) = foldName name →
    Compiles extensions definition → catalog.containsName name = true
  files : ∀ {file : DefinitionFile} {definition : δ}, Holds directory file definition →
    foldName (Definition.name definition) = foldName name → Compiles extensions definition →
      disk.get? file.name = some file.node ∨
        ∃ other, catalog.get? (.name name) = some other ∧ Definition.id other ≠ Definition.id definition

variable {extensions : Extensions} {directory : Directory} {disk : Disk} {catalog : Catalog δ γ}

theorem holder_named (orderly : Orderly δ directory) {file : DefinitionFile} {definition other : δ}
    (holds : Holds directory file definition) (readable : Readable directory other)
    (named : file.name = (Definition.kind δ).fileName (Definition.id other)) : definition = other := by
  obtain ⟨otherFile, otherHolds⟩ := readable
  have found := (Listing.mem_files_iff.mp holds.1).2
  rw [named, DefinitionFile.of_node_written] at found
  have id : file.id = some (Definition.id other) := by rw [← Option.some.inj found]
  rw [orderly.named holds] at id
  have same := orderly.distinct holds otherHolds (Option.some.inj id)
  rw [← same] at otherHolds
  exact Except.ok.inj (holds.2.symm.trans otherHolds.2)

theorem salvaged_files (orderly : Orderly δ directory)
    (kept : ∀ stem : String, (∀ definition : δ, Readable directory definition →
        Superseded extensions (Readable directory) definition →
          stem ++ "." ++ (Definition.kind δ).fileExtension ≠ (Definition.kind δ).fileName (Definition.id definition)) →
      disk.get? (stem ++ "." ++ (Definition.kind δ).fileExtension) =
        directory.get? (stem ++ "." ++ (Definition.kind δ).fileExtension))
    {file : DefinitionFile} {definition : δ} (holds : Holds directory file definition) :
    disk.get? file.name = some file.node ∨ Superseded extensions (Readable directory) definition := by
  by_cases superseded : Superseded extensions (Readable directory) definition
  · exact .inr superseded
  · left
    obtain ⟨stem, name⟩ := Listing.file_extension holds.1
    have there := (Listing.mem_files_iff.mp holds.1).1
    rw [name] at there ⊢
    rw [kept stem, there]
    intro other readable supersededThere named
    have same := holder_named orderly holds readable (name.trans named)
    rw [same] at superseded
    exact superseded supersededThere

variable [LawfulDefinition δ γ]

theorem found_of_resolved (consistent : catalog.Consistent) {name : String} {id : UInt32}
    (resolved : catalog.resolve (.name name) = some id) :
    ∃ definition, catalog.get? (.name name) = some definition ∧ Definition.id definition = id := by
  obtain ⟨entry, found, _⟩ := (consistent.names_exact _ _).mp resolved
  refine ⟨entry.definition, ?_, consistent.definition_id found⟩
  have held : catalog.names.get? (foldName name) = some id := resolved
  rw [get?, find_by_name, held, Option.bind_some, found, Option.map_some]

structure Salvaged (extensions : Extensions) (directory : Directory) (disk : Disk) (catalog : Catalog δ γ) : Prop where
  consistent : catalog.Consistent
  live_iff : ∀ (name : String) (id : UInt32), catalog.resolve (.name name) = some id ↔
    ∃ definition : δ, Newest (Readable directory) (foldName name) definition ∧ Compiles extensions definition ∧
      Definition.id definition = id
  files : ∀ {file : DefinitionFile} {definition : δ}, Holds directory file definition →
    disk.get? file.name = some file.node ∨ Superseded extensions (Readable directory) definition

theorem Salvaged.keeps_name_iff (salvaged : catalog.Salvaged extensions directory disk) (name : String) :
    catalog.KeepsName extensions directory disk name ↔ NewestCompiles extensions (Readable directory : δ → Prop) name := by
  constructor
  · intro keeps some
    obtain ⟨definition, readable, named, compiles⟩ := some
    obtain ⟨id, resolved⟩ := Option.isSome_iff_exists.mp (keeps.live readable named compiles)
    obtain ⟨newest, isNewest, newestCompiles, _⟩ := (salvaged.live_iff name id).mp resolved
    exact ⟨newest, isNewest, newestCompiles⟩
  · intro newestCompiles
    constructor
    · intro definition readable named compiles
      obtain ⟨newest, isNewest, compilesToo⟩ := newestCompiles ⟨definition, readable, named, compiles⟩
      have resolved := (salvaged.live_iff name _).mpr ⟨newest, isNewest, compilesToo, rfl⟩
      exact Option.isSome_iff_exists.mpr ⟨_, resolved⟩
    · intro file definition holds named compiles
      refine (salvaged.files holds).imp_right fun superseded => ?_
      obtain ⟨newest, isNewest, compilesToo⟩ := newestCompiles ⟨definition, ⟨file, holds⟩, named, compiles⟩
      have resolved := (salvaged.live_iff name _).mpr ⟨newest, isNewest, compilesToo, rfl⟩
      obtain ⟨other, found, own⟩ := found_of_resolved salvaged.consistent resolved
      refine ⟨other, found, ?_⟩
      obtain ⟨later, readable, laterNamed, less⟩ := superseded.later
      have last := isNewest.last later readable (laterNamed.trans named)
      rw [own]
      exact (UInt32.ne_of_lt (UInt32.lt_of_lt_of_le less last)).symm

theorem salvaged_of_loaded {origin : Archive} {definitions : List δ} {loading : Loading δ γ}
    (loaded : Loading.Loaded extensions origin definitions loading) (orderly : Orderly δ directory)
    (read : ∀ definition, definition ∈ definitions ↔ Readable directory definition)
    (kept : ∀ stem : String,
      Loading.LeavesFile extensions definitions (stem ++ "." ++ (Definition.kind δ).fileExtension) →
      disk.get? (stem ++ "." ++ (Definition.kind δ).fileExtension) =
        directory.get? (stem ++ "." ++ (Definition.kind δ).fileExtension)) :
    loading.shelf.catalog.clearNew.Salvaged extensions directory disk := by
  have among : (fun definition => definition ∈ definitions) = Readable directory :=
    funext fun definition => propext (read definition)
  have newest := loaded.newest
  rw [among] at newest
  refine ⟨loaded.consistent.clear_new, fun name => newest (foldName name), fun holds => ?_⟩
  refine salvaged_files orderly (fun stem apart => kept stem
    ⟨⟨_, stem, rfl⟩, fun definition member superseded => ?_⟩) holds
  rw [among] at superseded
  exact apart definition ((read definition).mp member) superseded

end Catalog

namespace Registry

theorem listings_keep (indexes : Shelf IndexDefinition IndexGenerator)
    (transformers : Shelf TransformerDefinition TransformerGenerator) :
    Archive.Keeps DefinitionKind.IsDefinitionName transformers.archive
      ({ transformers with archive := ({ indexes with archive := transformers.archive } :
        Shelf IndexDefinition IndexGenerator).refreshListing.archive } :
          Shelf TransformerDefinition TransformerGenerator).refreshListing.archive := by
  have first := ({ indexes with archive := transformers.archive } : Shelf IndexDefinition IndexGenerator).refresh_keeps
  have second := ({ transformers with archive := ({ indexes with archive := transformers.archive } :
    Shelf IndexDefinition IndexGenerator).refreshListing.archive } :
      Shelf TransformerDefinition TransformerGenerator).refresh_keeps
  exact first.trans second

theorem open_on_salvaged {settings : RegistrySettings} (durable : settings.runInMemory = false) (extensions : Extensions)
    (storage : ResultStorage) {disk : Disk} {directory : Directory} (present : disk.withDirectory? = some (.present directory))
    (indexesOrderly : Orderly IndexDefinition directory) (transformersOrderly : Orderly TransformerDefinition directory) :
    ∃ opened, openOn settings extensions storage disk = .ok opened ∧
      opened.indexes.Salvaged extensions directory opened.archive.disk ∧
      opened.transformers.Salvaged extensions directory opened.archive.disk := by
  have archived := Archive.open_present durable present
  obtain ⟨indexes, indexesLoaded, loadedIndexes⟩ := Loading.of_archive_loaded extensions cleanUpIndex .initial storage
    (rfl : (⟨true, .present directory⟩ : Archive).isDurable = true) rfl indexesOrderly
  obtain ⟨later, presentThere⟩ := loadedIndexes.archive.present rfl
  have agree : ∀ stem : String, later.get? (stem ++ "." ++ DefinitionKind.transformer.fileExtension) =
      directory.get? (stem ++ "." ++ DefinitionKind.transformer.fileExtension) := by
    intro stem
    have same := loadedIndexes.other_kind (by decide : DefinitionKind.transformer ≠ .index) stem
    rwa [presentThere] at same
  -- What is read as transformers is what was there before the indexes were loaded.
  have holds : ∀ (file : DefinitionFile) (definition : TransformerDefinition),
      Holds later file definition ↔ Holds directory file definition := Listing.holds_congr agree
  obtain ⟨transformers, transformersLoaded, loadedTransformers⟩ := Loading.of_archive_loaded extensions cleanUpTransformer
    indexes.shelf.ids indexes.storage loadedIndexes.archive.durable presentThere (transformersOrderly.congr holds)
  have listed := listings_keep indexes.shelf transformers.shelf
  rw [openOn, bind_of_ok _ archived, bind_of_ok _ indexesLoaded, bind_of_ok _ transformersLoaded]
  refine ⟨_, rfl, Catalog.salvaged_of_loaded loadedIndexes indexesOrderly ?_ fun stem left => ?_,
    Catalog.salvaged_of_loaded loadedTransformers transformersOrderly ?_ fun stem left => ?_⟩
  · exact fun definition => Listing.mem_definitions_iff
  · have unconcerned := loadedTransformers.other_kind (by decide : DefinitionKind.index ≠ .transformer) stem
    exact (listed.files left.definition_name).trans (unconcerned.trans (loadedIndexes.archive.files left))
  · intro definition
    rw [Listing.mem_definitions_iff]
    exact exists_congr fun file => holds file definition
  · refine (listed.files left.definition_name).trans ((loadedTransformers.archive.files left).trans ?_)
    rw [presentThere]
    exact agree stem

/-- After a directory was opened whose files are named by distinct ids, a name is kept exactly if its newest definition
compiles or none of them does: one of that name is live, and the file of one that compiles is left, or another one is live in its
place. -/
theorem open_on_keeps_name_iff {settings : RegistrySettings} (durable : settings.runInMemory = false)
    (extensions : Extensions) (storage : ResultStorage) {disk : Disk} {directory : Directory}
    (present : disk.withDirectory? = some (.present directory)) (indexesOrderly : Orderly IndexDefinition directory)
    (transformersOrderly : Orderly TransformerDefinition directory) :
    ∃ opened, openOn settings extensions storage disk = .ok opened ∧ ∀ name : String,
      (opened.indexes.KeepsName extensions directory opened.archive.disk name ↔
        NewestCompiles extensions (Readable directory : IndexDefinition → Prop) name) ∧
      (opened.transformers.KeepsName extensions directory opened.archive.disk name ↔
        NewestCompiles extensions (Readable directory : TransformerDefinition → Prop) name) := by
  obtain ⟨opened, started, indexes, transformers⟩ :=
    open_on_salvaged durable extensions storage present indexesOrderly transformersOrderly
  exact ⟨opened, started, fun name => ⟨indexes.keeps_name_iff name, transformers.keeps_name_iff name⟩⟩

theorem open_on_keeps_name_newer :
    let dogs := { IndexDefinition.ofSingleMap "Dogs" "from d in docs select new \x7b d.Name \x7d" with id := 1 }
    let newer := { dogs with id := 3, name := "DOGS" }
    let broken := { dogs with id := 2, name := "Cats", maps := ["oops"] }
    ∃ directory opened, directory.entries = Listing.written [dogs, broken, newer] ∧
      openOn .standard .builtins .empty (.present directory) = .ok opened ∧
      opened.indexes.KeepsName .builtins directory opened.archive.disk "Dogs" := by
  intro dogs newer broken
  have durable : RegistrySettings.standard.runInMemory = false := rfl
  let directory : Directory := ⟨Listing.written [dogs, broken, newer], by decide⟩
  have named : ∀ definition ∈ [dogs, broken, newer], Blank.isBlankText (Definition.name definition) = false := by decide
  obtain ⟨opened, started, kept⟩ := open_on_keeps_name_iff durable .builtins .empty
    (rfl : (Disk.present directory).withDirectory? = some (.present directory)) (Listing.orderly_written rfl named)
    (Listing.orderly_other_kind (by decide) (rfl : directory.entries = Listing.written [dogs, broken, newer]))
  refine ⟨directory, opened, rfl, started, (kept "Dogs").1.mpr fun _ => ⟨newer, ?_, ?_⟩⟩
  · have readable := Listing.readable_written_iff (rfl : directory.entries = Listing.written [dogs, broken, newer]) named
    refine ⟨(readable newer).mpr (by simp), by decide, fun other member _ => ?_⟩
    have last : ∀ definition ∈ [dogs, broken, newer], Definition.id definition ≤ Definition.id newer := by decide
    exact last other ((readable other).mp member)
  · exact is_ok_exists (by decide +kernel)

-- The newest definition of the name does not compile. The other one had to make way for it.
theorem open_on_loses_name :
    let dogs := { IndexDefinition.ofSingleMap "Dogs" "from d in docs select new \x7b d.Name \x7d" with id := 1 }
    let broken := { dogs with id := 2, name := "DOGS", maps := ["oops"] }
    ∃ directory opened, directory.entries = Listing.written [dogs, broken] ∧
      openOn .standard .builtins .empty (.present directory) = .ok opened ∧ Readable directory dogs ∧
      Compiles .builtins dogs ∧ opened.indexes.containsName "Dogs" = false := by
  intro dogs broken
  have durable : RegistrySettings.standard.runInMemory = false := rfl
  let directory : Directory := ⟨Listing.written [dogs, broken], by decide⟩
  have named : ∀ definition ∈ [dogs, broken], Blank.isBlankText (Definition.name definition) = false := by decide
  have readable := Listing.readable_written_iff (rfl : directory.entries = Listing.written [dogs, broken]) named
  obtain ⟨opened, started, salvaged, _⟩ := open_on_salvaged durable .builtins .empty
    (rfl : (Disk.present directory).withDirectory? = some (.present directory)) (Listing.orderly_written rfl named)
    (Listing.orderly_other_kind (by decide) (rfl : directory.entries = Listing.written [dogs, broken]))
  refine ⟨directory, opened, rfl, started, (readable dogs).mpr (by simp), is_ok_exists (by decide +kernel), ?_⟩
  rw [Bool.eq_false_iff]
  intro live
  obtain ⟨id, resolved⟩ := Option.isSome_iff_exists.mp live
  obtain ⟨definition, newest, compiles, _⟩ := (salvaged.live_iff "Dogs" id).mp resolved
  have last := newest.last broken ((readable broken).mpr (by simp)) (by decide)
  rcases List.mem_pair.mp ((readable definition).mp newest.member) with same | same
  · rw [same] at last
    exact absurd last (by decide)
  · rw [same] at compiles
    obtain ⟨generator, compiled⟩ := compiles
    have fails : (Definition.compile .builtins (Definition.prepare broken)).isOk = false := by decide +kernel
    rw [compiled] at fails
    cases fails

end Registry
end DocumentViews
