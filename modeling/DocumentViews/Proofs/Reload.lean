import DocumentViews.Proofs.Archive.Listing
import DocumentViews.Proofs.Loading
import DocumentViews.Proofs.Mirror

set_option autoImplicit false

namespace DocumentViews

open LawfulDefinition

variable {δ γ : Type} [Definition δ γ]

namespace Catalog

def without (ids : List UInt32) (catalog : Catalog δ γ) : Catalog δ γ := ids.foldl remove catalog

def named (catalog : Catalog δ γ) : Catalog δ γ :=
  catalog.without ((catalog.definitions.filter fun definition =>
    Blank.isBlankText (Definition.name definition)).map Definition.id)

theorem get_without (ids : List UInt32) (catalog : Catalog δ γ) (id : UInt32) :
    (catalog.without ids).entries.get? id = if id ∈ ids then none else catalog.entries.get? id := by
  induction ids generalizing catalog with
  | nil => rfl
  | cons first rest ih =>
      rw [without, List.foldl_cons, ← without, ih, remove, SortedMap.get_erase]
      by_cases later : id ∈ rest <;> by_cases own : id = first <;> simp [later, own]

variable [LawfulDefinition δ γ]

theorem Consistent.without {catalog : Catalog δ γ} (consistent : catalog.Consistent) (ids : List UInt32) :
    (catalog.without ids).Consistent := by
  induction ids generalizing catalog with
  | nil => exact consistent
  | cons first rest ih => exact ih (consistent.remove first)

theorem Consistent.get_named {catalog : Catalog δ γ} (consistent : catalog.Consistent) (id : UInt32) :
    catalog.named.entries.get? id =
      (catalog.entries.get? id).filter fun entry => !Blank.isBlankText (Definition.name entry.definition) := by
  have unnamed : id ∈ (catalog.definitions.filter fun definition => Blank.isBlankText (Definition.name definition)).map
      Definition.id ↔ ∃ entry, catalog.entries.get? id = some entry ∧
        Blank.isBlankText (Definition.name entry.definition) = true := by
    simp only [definitions, SortedMap.values, List.mem_map, List.mem_filter, Prod.exists]
    constructor
    · rintro ⟨_, ⟨⟨_, ⟨own, entry, member, rfl⟩, rfl⟩, blank⟩, rfl⟩
      have found := (SortedMap.mem_entries_iff _ _ _).mp member
      rw [consistent.definition_id found]
      exact ⟨entry, found, blank⟩
    · rintro ⟨entry, found, blank⟩
      have member := (SortedMap.mem_entries_iff _ _ _).mpr found
      exact ⟨_, ⟨⟨entry, ⟨id, entry, member, rfl⟩, rfl⟩, blank⟩, consistent.definition_id found⟩
  rw [named, get_without]
  simp only [unnamed]
  cases catalog.entries.get? id with
  | none => simp
  | some entry => cases blank : Blank.isBlankText (Definition.name entry.definition) <;> simp [Option.filter, blank]

end Catalog

variable [LawfulDefinition δ γ]

structure ReadFrom (entries : SortedMap UInt32 (CatalogEntry δ γ)) (definitions : List δ) : Prop where
  distinct : (definitions.map Definition.id).Nodup
  live : ∀ stored ∈ definitions, ∃ entry, entries.get? (Definition.id stored) = some entry ∧
    bare stored = bare entry.definition
  all : ∀ id entry, entries.get? id = some entry → ∃ stored ∈ definitions, Definition.id stored = id

variable {entries : SortedMap UInt32 (CatalogEntry δ γ)} {archive : Archive} {directory : Directory}

variable {extensions : Extensions} {catalog : Catalog δ γ}

theorem FilesMatch.file_written (files : FilesMatch entries archive) (present : archive.disk = .present directory)
    (own : ∀ id entry, entries.get? id = some entry → Definition.id entry.definition = id) {file : DefinitionFile}
    (listed : file ∈ Listing.files (Definition.kind δ) directory) :
    ∃ stored : δ, file = ⟨(Definition.kind δ).fileName (Definition.id stored), some (Definition.id stored),
        .text (Definition.toValue stored).pretty⟩ ∧
      ∃ entry, entries.get? (Definition.id stored) = some entry ∧ bare stored = bare entry.definition := by
  obtain ⟨held, found⟩ := Listing.mem_files_iff.mp listed
  obtain ⟨stem, name⟩ := Listing.file_extension listed
  have there : archive.disk.get? (stem ++ "." ++ (Definition.kind δ).fileExtension) = some file.node := by
    rw [present, ← name]
    exact held
  obtain ⟨id, entry, live, sameName⟩ := files.only there
  obtain ⟨stored, written, same⟩ := files.written live
  have storedId : Definition.id stored = id := by
    rw [← id_bare stored, same, id_bare]
    exact own id entry live
  rw [sameName, written] at there
  rw [name, sameName, ← Option.some.inj there, DefinitionFile.of_node_written] at found
  subst storedId
  exact ⟨stored, (Option.some.inj found).symm, entry, live, same⟩

theorem FilesMatch.read_from (files : FilesMatch catalog.entries archive) (present : archive.disk = .present directory)
    (consistent : catalog.Consistent) :
    ReadFrom catalog.named.entries (Listing.ofDirectory directory : Listing δ).definitions := by
  have own : ∀ id entry, catalog.entries.get? id = some entry → Definition.id entry.definition = id :=
    fun id entry found => consistent.definition_id found
  have held : ∀ {file : DefinitionFile} {definition : δ}, Listing.Holds directory file definition →
      file.name = (Definition.kind δ).fileName (Definition.id definition) ∧
        ∃ entry, catalog.named.entries.get? (Definition.id definition) = some entry ∧ bare definition = bare entry.definition := by
    intro file definition holds
    obtain ⟨stored, rfl, entry, live, same⟩ := files.file_written present own holds.1
    obtain ⟨named, rfl⟩ := DefinitionFile.read_written_iff.mp holds.2
    refine ⟨rfl, entry, ?_, same⟩
    rw [← name_bare stored, same, name_bare] at named
    rw [consistent.get_named, live]
    simp [named]
  refine ⟨?_, fun stored member => ?_, fun id entry live => ?_⟩
  · refine List.pairwise_map.mpr (Listing.definitions_distinct fun {file other definition another} holds otherHolds same => ?_)
    have sameName : file.name = other.name := by rw [(held holds).1, (held otherHolds).1, same]
    exact Listing.file_of_name holds.1 otherHolds.1 sameName
  · obtain ⟨file, holds⟩ := Listing.mem_definitions_iff.mp member
    exact (held holds).2
  · rw [consistent.get_named, Option.filter_eq_some_iff] at live
    obtain ⟨found, named⟩ := live
    obtain ⟨stored, written, same⟩ := files.written found
    have storedId : Definition.id stored = id := by
      rw [← id_bare stored, same, id_bare]
      exact own id entry found
    have storedNamed : Blank.isBlankText (Definition.name stored) = false := by
      rw [← name_bare stored, same, name_bare]
      simpa using named
    rw [present, ← storedId] at written
    have listed : (⟨(Definition.kind δ).fileName (Definition.id stored), some (Definition.id stored),
        .text (Definition.toValue stored).pretty⟩ : DefinitionFile) ∈ Listing.files (Definition.kind δ) directory :=
      Listing.mem_files_iff.mpr ⟨written, DefinitionFile.of_node_written _ _ _⟩
    have read := DefinitionFile.read_written_iff.mpr ⟨storedNamed, rfl⟩
    exact ⟨stored, Listing.mem_definitions_iff.mpr ⟨_, listed, read⟩, storedId⟩

-- One catalog has the entries of another one whose definitions compile, with new
-- generators.
structure Reloads (extensions : Extensions) (before after : Catalog δ γ) : Prop where
  compiled : ∀ {id : UInt32} {entry : CatalogEntry δ γ} {generator : γ}, before.entries.get? id = some entry →
    Definition.compile extensions entry.definition = .ok generator →
      ∃ again, after.entries.get? id = some again ∧ again.generator = generator ∧
        bare again.definition = bare entry.definition
  failed : ∀ {id : UInt32} {entry : CatalogEntry δ γ} {error : DefinitionError}, before.entries.get? id = some entry →
    Definition.compile extensions entry.definition = .error error → after.entries.get? id = none
  absent : ∀ {id : UInt32}, before.entries.get? id = none → after.entries.get? id = none

-- A definition in prepared form compiles as it does after it was read back, although its
-- fields may have been filled in since.
theorem compile_read_back (extensions : Extensions) {stored live : δ} (inForm : Definition.prepare live = live)
    (same : bare stored = bare live) :
    Definition.compile extensions (Definition.prepare stored) = Definition.compile extensions live ∧
      bare (Definition.prepare stored) = bare live := by
  have prepared : bare (Definition.prepare stored) = bare live := by
    rw [← prepare_bare, same, prepare_bare, inForm]
  refine ⟨?_, prepared⟩
  rw [← compile_bare, prepared, compile_bare]

theorem read_apart {definitions : List δ} (read : ReadFrom catalog.entries definitions)
    (consistent : catalog.Consistent) : definitions.Pairwise Loading.Apart := by
  have distinct : definitions.Pairwise fun one other => Definition.id one ≠ Definition.id other :=
    List.pairwise_map.mp read.distinct
  apply distinct.imp_of_mem
  intro one other member otherMember different
  refine ⟨different, fun sameName => different ?_⟩
  have held : ∀ stored ∈ definitions,
      catalog.names.get? (foldName (Definition.name stored)) = some (Definition.id stored) := by
    intro stored member
    obtain ⟨entry, live, same⟩ := read.live stored member
    refine (consistent.names_exact _ _).mpr ⟨entry, live, ?_⟩
    rw [← name_bare entry.definition, ← same, name_bare]
  have first := held one member
  rw [sameName, held other otherMember] at first
  exact (Option.some.inj first).symm

theorem loaded_reloads (extensions : Extensions) (cleanUp : CleanUp) {definitions : List δ} (read : ReadFrom catalog.entries definitions)
    (consistent : catalog.Consistent)
    (inForm : ∀ id entry, catalog.entries.get? id = some entry → Definition.prepare entry.definition = entry.definition)
    {loading : Loading δ γ} (nothing : loading.shelf.catalog = .empty) :
    (definitions.foldl (Loading.add extensions cleanUp) loading).shelf.archive = loading.shelf.archive ∧
      Reloads extensions catalog (definitions.foldl (Loading.add extensions cleanUp) loading).shelf.catalog := by
  have free : ∀ definition ∈ definitions, Loading.Free loading.shelf.catalog definition := by
    intro definition _
    rw [nothing]
    exact ⟨rfl, rfl⟩
  obtain ⟨archive, admits, untouched⟩ := Loading.load_all extensions cleanUp
    (read_apart read consistent) free
  refine ⟨archive, ?_, ?_, ?_⟩
  · intro id entry generator found compiled
    obtain ⟨stored, member, rfl⟩ := read.all id entry found
    obtain ⟨other, live, same⟩ := read.live stored member
    cases found.symm.trans live
    obtain ⟨sameResult, prepared⟩ := compile_read_back extensions (inForm _ _ found) same
    obtain ⟨again, present, sameGenerator, filled⟩ := (admits stored member).compiled (sameResult.trans compiled)
    refine ⟨again, present, sameGenerator, ?_⟩
    rw [filled, bare_fill, prepared]
  · intro id entry error found failed
    obtain ⟨stored, member, rfl⟩ := read.all id entry found
    obtain ⟨other, live, same⟩ := read.live stored member
    cases found.symm.trans live
    obtain ⟨sameResult, _⟩ := compile_read_back extensions (inForm _ _ found) same
    exact (admits stored member).failed (sameResult.trans failed)
  · intro id missing
    rw [untouched id, nothing]
    · rfl
    · rintro definition member rfl
      obtain ⟨entry, live, _⟩ := read.live definition member
      rw [missing] at live
      cases live

theorem of_archive_reloads (extensions : Extensions) (consistent : catalog.Consistent)
    (inForm : ∀ id entry, catalog.entries.get? id = some entry → Definition.prepare entry.definition = entry.definition)
    (writable : archive.Writable) (files : FilesMatch catalog.entries archive) (cleanUp : CleanUp) (ids : IdCounter)
    (storage : ResultStorage) :
    ∃ loading : Loading δ γ, Loading.ofArchive extensions cleanUp ids archive storage = .ok loading ∧
      loading.shelf.archive = archive ∧ Reloads extensions catalog.named loading.shelf.catalog := by
  obtain ⟨directory, present⟩ := writable.present
  have listed : (archive.list : Except DefinitionError (Listing δ)) = .ok (.ofDirectory directory) :=
    Archive.list_present writable.durable present
  have inFormThere : ∀ id entry, catalog.named.entries.get? id = some entry →
      Definition.prepare entry.definition = entry.definition := by
    intro id entry found
    rw [consistent.get_named, Option.filter_eq_some_iff] at found
    exact inForm id entry found.1
  obtain ⟨sameArchive, reloads⟩ := loaded_reloads extensions cleanUp (files.read_from present consistent)
    (consistent.without _) inFormThere (Loading.note_skipped_catalog (Loading.start ids archive storage) _)
  exact ⟨_, bind_of_ok _ listed, sameArchive.trans (Loading.note_skipped_archive _ _), reloads⟩

theorem Reloads.of_named {after : Catalog δ γ} (reloads : Reloads extensions catalog.named after)
    (consistent : catalog.Consistent) (named : ∀ id entry, catalog.entries.get? id = some entry →
      Blank.isBlankText (Definition.name entry.definition) = false) : Reloads extensions catalog after := by
  have same : ∀ id, catalog.named.entries.get? id = catalog.entries.get? id := by
    intro id
    rw [consistent.get_named]
    cases found : catalog.entries.get? id with
    | none => rfl
    | some entry => simp [Option.filter, named id entry found]
  exact ⟨fun found => reloads.compiled ((same _).trans found), fun found => reloads.failed ((same _).trans found),
    fun missing => reloads.absent ((same _).trans missing)⟩

end DocumentViews
