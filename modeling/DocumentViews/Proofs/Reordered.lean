import DocumentViews.Proofs.Archive.FileOrder

set_option autoImplicit false

namespace DocumentViews

open Listing (Untied)

inductive Disk.SameFiles : Disk → Disk → Prop
  | present {directory reordered : Directory} (files : ∀ name, reordered.get? name = directory.get? name) :
      SameFiles (.present directory) (.present reordered)

namespace Disk.SameFiles

variable {one other : Disk}

theorem directories (same : one.SameFiles other) : ∃ directory reordered, one = .present directory ∧
    other = .present reordered ∧ ∀ name, reordered.get? name = directory.get? name := by
  obtain ⟨files⟩ := same
  exact ⟨_, _, rfl, rfl, files⟩

theorem lookup (same : one.SameFiles other) (name : String) : other.get? name = one.get? name := by
  obtain ⟨files⟩ := same
  exact files name

theorem write_text (same : one.SameFiles other) (name content : String) :
    Option.Rel SameFiles (one.writeText? name content) (other.writeText? name content) := by
  obtain ⟨files⟩ := same
  simp only [writeText?, files]
  split
  · exact .none
  · exact .some (.present fun query => by rw [Directory.get_put, Directory.get_put, files])

theorem rename (same : one.SameFiles other) (source target : String) :
    Option.Rel SameFiles (one.rename? source target) (other.rename? source target) := by
  obtain ⟨files⟩ := same
  simp only [rename?, files]
  split
  · exact .none
  · split
    · exact .none
    · refine .some (.present fun query => ?_)
      rw [Directory.get_put, Directory.get_put, Directory.get_erase, Directory.get_erase, files]

theorem remove_file (same : one.SameFiles other) (name : String) :
    Option.Rel SameFiles (one.removeFile? name) (other.removeFile? name) := by
  obtain ⟨files⟩ := same
  simp only [removeFile?, files]
  split
  · exact .none
  · exact .some (.present fun query => by rw [Directory.get_erase, Directory.get_erase, files])

end Disk.SameFiles

structure Archive.SameFiles (one other : Archive) : Prop where
  durable : other.isDurable = one.isDurable
  disk : one.disk.SameFiles other.disk

namespace Archive.SameFiles

variable {one other : Archive}

theorem write_file (same : one.SameFiles other) (name content : String) :
    (one.writeFile name content).2.SameFiles (other.writeFile name content).2 := by
  have wrote := same.disk.write_text (temporaryName name) content
  rw [writeFile, writeFile, same.durable]
  generalize one.disk.writeText? (temporaryName name) content = text at wrote ⊢
  generalize other.disk.writeText? (temporaryName name) content = otherText at wrote ⊢
  split
  · exact same
  · cases wrote with
    | none => exact same
    | @some written otherWritten written_same =>
        have placed := written_same.rename (temporaryName name) name
        dsimp only
        generalize written.rename? (temporaryName name) name = place at placed ⊢
        generalize otherWritten.rename? (temporaryName name) name = otherPlace at placed ⊢
        cases placed with
        | none => exact ⟨rfl, written_same⟩
        | some placed_same => exact ⟨rfl, placed_same⟩

theorem delete (same : one.SameFiles other) (kind : DefinitionKind) (id : UInt32) :
    (one.delete kind id).2.SameFiles (other.delete kind id).2 := by
  have removed := same.disk.remove_file (kind.fileName id)
  rw [Archive.delete, Archive.delete, same.durable]
  generalize one.disk.removeFile? (kind.fileName id) = disk at removed ⊢
  generalize other.disk.removeFile? (kind.fileName id) = otherDisk at removed ⊢
  split
  · exact same
  · cases removed with
    | none => exact same
    | some removed_same => exact ⟨rfl, removed_same⟩

end Archive.SameFiles

section Kind

variable {δ γ : Type} [Definition δ γ]

structure Shelf.Reordered (one other : Shelf δ γ) : Prop where
  catalog : other.catalog = one.catalog
  ids : other.ids = one.ids
  archive : one.archive.SameFiles other.archive

namespace Shelf.Reordered

variable {one other : Shelf δ γ}

omit [Definition δ γ] in
theorem with_archive (same : one.Reordered other) {archive otherArchive : Archive}
    (files : archive.SameFiles otherArchive) : Reordered { one with archive } { other with archive := otherArchive } :=
  ⟨same.catalog, same.ids, files⟩

theorem refresh (same : one.Reordered other) : one.refreshListing.Reordered other.refreshListing where
  catalog := same.catalog
  ids := same.ids
  archive := by
    rw [refreshListing, refreshListing, same.catalog]
    exact same.archive.write_file _ _

theorem remove (same : one.Reordered other) (id : UInt32) : (one.remove id).2.Reordered (other.remove id).2 := by
  rw [Shelf.remove, Shelf.remove, same.catalog]
  split
  · have listed : Reordered { one with catalog := one.catalog.remove id }.refreshListing
        { other with catalog := one.catalog.remove id }.refreshListing :=
      refresh ⟨rfl, same.ids, same.archive⟩
    exact ⟨listed.catalog, listed.ids, listed.archive.delete _ id⟩
  · exact same

end Shelf.Reordered

structure Loading.Reordered (one other : Loading δ γ) : Prop where
  shelf : one.shelf.Reordered other.shelf
  storage : other.storage = one.storage
  loaded : other.loaded = one.loaded
  replaced : other.replaced = one.replaced
  skipped : other.skipped = one.skipped

namespace Loading

namespace Reordered

variable {one other : Loading δ γ}

omit [Definition δ γ] in
theorem reserve (same : one.Reordered other) (id : UInt32) :
    (one.reserveThrough id).Reordered (other.reserveThrough id) where
  shelf := ⟨same.shelf.catalog, by rw [reserveThrough, reserveThrough, same.shelf.ids], same.shelf.archive⟩
  storage := same.storage
  loaded := same.loaded
  replaced := same.replaced
  skipped := same.skipped

omit [Definition δ γ] in
theorem reserve_all (same : one.Reordered other) (ids : List UInt32) :
    (ids.foldl reserveThrough one).Reordered (ids.foldl reserveThrough other) := by
  induction ids generalizing one other with
  | nil => exact same
  | cons id ids ih => exact ih (same.reserve id)

omit [Definition δ γ] in
theorem note_skipped (same : one.Reordered other) (skipped : List Skipped) :
    (one.noteSkipped skipped).Reordered (other.noteSkipped skipped) :=
  let reserved := same.reserve_all (skipped.filterMap Skipped.id)
  { reserved with skipped := congrArg (· ++ skipped) reserved.skipped }

theorem discard (same : one.Reordered other) (cleanUp : CleanUp) (earlier : UInt32) (definition : δ) :
    (one.discard cleanUp earlier definition).Reordered (other.discard cleanUp earlier definition) where
  shelf := same.shelf.remove earlier
  storage := congrArg (cleanUp earlier) same.storage
  loaded := congrArg (· - 1) same.loaded
  replaced := congrArg (· ++ _) same.replaced
  skipped := same.skipped

theorem make_way (same : one.Reordered other) (cleanUp : CleanUp) (definition : δ) :
    (one.makeWay cleanUp definition).Reordered (other.makeWay cleanUp definition) := by
  rw [makeWay, makeWay, same.shelf.catalog]
  split
  · exact same
  · split
    · exact same
    · exact same.discard cleanUp _ definition

theorem install (same : one.Reordered other) (extensions : Extensions) (definition : δ) :
    (one.install extensions definition).Reordered (other.install extensions definition) := by
  simp only [Loading.install, same.shelf.catalog]
  split
  · exact ⟨⟨rfl, same.shelf.ids, same.shelf.archive⟩, same.storage, congrArg (· + 1) same.loaded, same.replaced,
      same.skipped⟩
  · exact ⟨same.shelf, same.storage, same.loaded, same.replaced, congrArg (· ++ _) same.skipped⟩

theorem add (same : one.Reordered other) (extensions : Extensions) (cleanUp : CleanUp) (definition : δ) :
    (one.add extensions cleanUp definition).Reordered (other.add extensions cleanUp definition) :=
  ((same.reserve _).make_way cleanUp _).install extensions _

theorem add_all (same : one.Reordered other) (extensions : Extensions) (cleanUp : CleanUp) (definitions : List δ) :
    (definitions.foldl (Loading.add extensions cleanUp) one).Reordered
      (definitions.foldl (Loading.add extensions cleanUp) other) := by
  induction definitions generalizing one other with
  | nil => exact same
  | cons definition definitions ih => exact ih (same.add extensions cleanUp definition)

end Reordered

theorem of_archive_reordered (extensions : Extensions) (cleanUp : CleanUp) (ids : IdCounter) (storage : ResultStorage)
    {archive other : Archive} {listing : Listing δ} (listed : archive.list = .ok listing)
    (otherListed : other.list = .ok listing) (same : archive.SameFiles other) :
    ∃ one next : Loading δ γ, ofArchive extensions cleanUp ids archive storage = .ok one ∧
      ofArchive extensions cleanUp ids other storage = .ok next ∧ one.Reordered next ∧
      Archive.Keeps (ForeignFile δ) archive one.shelf.archive := by
  have started : (start ids archive storage : Loading δ γ).Reordered (start ids other storage) :=
    ⟨⟨rfl, rfl, same⟩, rfl, rfl, rfl, rfl⟩
  have kept := add_all_keeps extensions cleanUp listing.definitions
    ((start ids archive storage : Loading δ γ).noteSkipped listing.skipped)
  rw [note_skipped_archive] at kept
  exact ⟨_, _, bind_of_ok _ listed, bind_of_ok _ otherListed,
    (started.note_skipped listing.skipped).add_all extensions cleanUp listing.definitions, kept⟩

end Loading

theorem Archive.SameFiles.list_untied {origin : Directory} (untied : Untied δ origin) {one other : Archive}
    (same : one.SameFiles other) (agree : ∀ stem : String,
      one.disk.get? (stem ++ "." ++ (Definition.kind δ).fileExtension) =
        origin.get? (stem ++ "." ++ (Definition.kind δ).fileExtension)) :
    ∃ listing : Listing δ, one.list = .ok listing ∧ other.list = .ok listing := by
  by_cases inMemory : one.isDurable = false
  · exact ⟨_, list_in_memory inMemory, list_in_memory (same.durable.trans inMemory)⟩
  · have durable : one.isDurable = true := (Bool.not_eq_false _).mp inMemory
    obtain ⟨directory, reordered, present, otherPresent, files⟩ := same.disk.directories
    rw [present] at agree
    have listed := Listing.of_directory_untied agree untied
    have otherListed := Listing.of_directory_untied (fun stem => (files _).trans (agree stem)) untied
    refine ⟨_, list_present durable present, ?_⟩
    rw [list_present (same.durable.trans durable) otherPresent, otherListed, listed]

end Kind

namespace Registry

theorem open_on_present (settings : RegistrySettings) (directory : Directory) :
    Archive.openOn settings (.present directory) = .ok ⟨!settings.runInMemory, .present directory⟩ := by
  rw [Archive.openOn]
  cases settings.runInMemory <;> rfl

theorem open_on_untied (settings : RegistrySettings) (extensions : Extensions) (storage : ResultStorage)
    {directory reordered : Directory} (files : ∀ name, reordered.get? name = directory.get? name)
    (indexesUntied : Untied IndexDefinition directory) (transformersUntied : Untied TransformerDefinition directory) :
    ∃ first second, openOn settings extensions storage (.present directory) = .ok first ∧
      openOn settings extensions storage (.present reordered) = .ok second ∧
      second = { first with archive := second.archive } ∧
      ∀ name, second.archive.disk.get? name = first.archive.disk.get? name := by
  have same : Archive.SameFiles ⟨!settings.runInMemory, .present directory⟩ ⟨!settings.runInMemory, .present reordered⟩ :=
    ⟨rfl, .present files⟩
  obtain ⟨indexListing, indexesListed, indexesListedToo⟩ := same.list_untied indexesUntied fun _ => rfl
  obtain ⟨indexes, otherIndexes, indexesLoaded, otherIndexesLoaded, sameIndexes, kept⟩ :=
    Loading.of_archive_reordered extensions cleanUpIndex .initial storage indexesListed indexesListedToo same
  -- Loading indexes leaves the files of transformers as they are.
  have agree : ∀ stem : String, indexes.shelf.archive.disk.get?
      (stem ++ "." ++ DefinitionKind.transformer.fileExtension) =
        directory.get? (stem ++ "." ++ DefinitionKind.transformer.fileExtension) := fun stem =>
    kept.files ⟨⟨.transformer, stem, rfl⟩, fun id =>
      DefinitionKind.file_name_of_other (by decide : DefinitionKind.transformer ≠ .index) stem id⟩
  obtain ⟨transformerListing, transformersListed, transformersListedToo⟩ :=
    sameIndexes.shelf.archive.list_untied transformersUntied agree
  obtain ⟨transformers, otherTransformers, transformersLoaded, otherTransformersLoaded, sameTransformers, _⟩ :=
    Loading.of_archive_reordered extensions cleanUpTransformer indexes.shelf.ids indexes.storage transformersListed
      transformersListedToo sameIndexes.shelf.archive
  rw [← sameIndexes.storage, ← sameIndexes.shelf.ids] at otherTransformersLoaded
  have listed := (sameIndexes.shelf.with_archive sameTransformers.shelf.archive).refresh
  have finished := (sameTransformers.shelf.with_archive listed.archive).refresh
  rw [openOn, openOn, bind_of_ok _ (open_on_present settings directory), bind_of_ok _ (open_on_present settings reordered),
    bind_of_ok _ indexesLoaded, bind_of_ok _ otherIndexesLoaded, bind_of_ok _ transformersLoaded,
    bind_of_ok _ otherTransformersLoaded]
  refine ⟨_, _, rfl, rfl, ?_, finished.archive.disk.lookup⟩
  simp only [Shelf.refreshListing, sameIndexes.shelf.catalog, sameIndexes.loaded, sameIndexes.replaced,
    sameIndexes.skipped, sameTransformers.shelf.catalog, sameTransformers.shelf.ids, sameTransformers.storage,
    sameTransformers.loaded, sameTransformers.replaced, sameTransformers.skipped]

/-- What is read from a directory does not depend on the order of its entries exactly when no files tie, and then
opening it does not either: in any order it gives the same catalogs, ids, report and storage, and it leaves the
same files. -/
theorem open_on_reordered (settings : RegistrySettings) (extensions : Extensions) (storage : ResultStorage)
    (directory : Directory) :
    ((∀ reordered : Directory, directory.entries.Perm reordered.entries →
        (Listing.ofDirectory reordered : Listing IndexDefinition) = .ofDirectory directory ∧
          (Listing.ofDirectory reordered : Listing TransformerDefinition) = .ofDirectory directory) ↔
      Untied IndexDefinition directory ∧ Untied TransformerDefinition directory) ∧
    (Untied IndexDefinition directory → Untied TransformerDefinition directory →
      ∀ reordered : Directory, directory.entries.Perm reordered.entries →
        ∃ first second, openOn settings extensions storage (.present directory) = .ok first ∧
          openOn settings extensions storage (.present reordered) = .ok second ∧
          second = { first with archive := second.archive } ∧
          ∀ name, second.archive.disk.get? name = first.archive.disk.get? name) := by
  refine ⟨?_, fun indexes transformers reordered perm =>
    open_on_untied settings extensions storage (Listing.agree_of_perm perm) indexes transformers⟩
  rw [← Listing.reordered_iff, ← Listing.reordered_iff]
  exact ⟨fun same => ⟨fun reordered perm => (same reordered perm).1, fun reordered perm => (same reordered perm).2⟩,
    fun same reordered perm => ⟨same.1 reordered perm, same.2 reordered perm⟩⟩

theorem open_on_reordered_three :
    let text (definition : IndexDefinition) : Node := .text (Definition.toValue definition).pretty
    let dogs := { IndexDefinition.ofSingleMap "Dogs" "from d in docs select new \x7b d.Name \x7d" with id := 1 }
    let cats := { dogs with id := 2, name := "Cats" }
    ∃ directory reordered : Directory,
      directory.entries = [("1.index", text dogs), ("a.index", text cats), ("b.index", .binary)] ∧
      reordered.entries = [("b.index", .binary), ("a.index", text cats), ("1.index", text dogs)] ∧
      ∃ first second, openOn .standard .builtins .empty (.present directory) = .ok first ∧
        openOn .standard .builtins .empty (.present reordered) = .ok second ∧
        second = { first with archive := second.archive } ∧
        ∀ name, second.archive.disk.get? name = first.archive.disk.get? name := by
  intro text dogs cats
  let directory : Directory := ⟨[("1.index", text dogs), ("a.index", text cats), ("b.index", .binary)], by decide⟩
  let reordered : Directory := ⟨[("b.index", .binary), ("a.index", text cats), ("1.index", text dogs)], by decide⟩
  have ids : parseId? ['1'] = some 1 ∧ parseId? ['a'] = none ∧ parseId? ['b'] = none := by decide +kernel
  have parts : splitExtension "1.index" = some (['1'], DefinitionKind.index.fileExtension.toList) ∧
      splitExtension "a.index" = some (['a'], DefinitionKind.index.fileExtension.toList) ∧
      splitExtension "b.index" = some (['b'], DefinitionKind.index.fileExtension.toList) := by decide +kernel
  have files : Listing.files .index directory =
      [⟨"1.index", some 1, text dogs⟩, ⟨"a.index", none, text cats⟩, ⟨"b.index", none, .binary⟩] :=
    Listing.files_eq (by simp [directory, DefinitionFile.ofNode?, parts, ids]) (by decide)
  have noTransformers : Listing.files .transformer directory = [] := by
    have other : DefinitionKind.index.fileExtension.toList ≠ DefinitionKind.transformer.fileExtension.toList := by decide
    exact Listing.files_eq (by simp [directory, DefinitionFile.ofNode?, parts, other]) List.Pairwise.nil
  have dogsRead : (⟨"1.index", some 1, text dogs⟩ : DefinitionFile).read = .ok dogs :=
    DefinitionFile.read_text rfl (by decide) (by decide)
  have catsRead : (⟨"a.index", none, text cats⟩ : DefinitionFile).read = .ok cats :=
    DefinitionFile.read_text rfl (by decide) (by decide)
  have indexesUntied : Untied IndexDefinition directory := by
    have unreadable : ∀ {file : DefinitionFile} {skip : Skipped}, file ∈ Listing.files .index directory →
        (file.read : Except Skipped IndexDefinition) = .error skip → file = ⟨"b.index", none, .binary⟩ := by
      intro file skip listed unread
      rw [files, List.mem_cons, List.mem_cons, List.mem_singleton] at listed
      obtain rfl | rfl | same := listed
      · cases dogsRead.symm.trans unread
      · cases catsRead.symm.trans unread
      · exact same
    have read : ∀ {file : DefinitionFile} {definition : IndexDefinition}, Listing.Holds directory file definition →
        definition = dogs ∨ definition = cats := by
      intro file definition holds
      obtain ⟨listed, read⟩ := holds
      change file ∈ Listing.files .index directory at listed
      rw [files, List.mem_cons, List.mem_cons, List.mem_singleton] at listed
      obtain rfl | rfl | rfl := listed
      · exact .inl (Except.ok.inj (read.symm.trans dogsRead))
      · exact .inr (Except.ok.inj (read.symm.trans catsRead))
      · cases read
    refine ⟨fun listed otherListed unread otherUnread _ =>
      (unreadable listed unread).trans (unreadable otherListed otherUnread).symm, ?_⟩
    intro one other definition another holds otherHolds _ sameId
    obtain rfl | rfl := read holds
    · obtain rfl | rfl := read otherHolds
      · rfl
      · exact absurd sameId (by decide)
    · obtain rfl | rfl := read otherHolds
      · exact absurd sameId (by decide)
      · rfl
  have transformersUntied : Untied TransformerDefinition directory := by
    refine ⟨fun listed => ?_, fun holds => ?_⟩
    · change _ ∈ Listing.files .transformer directory at listed
      rw [noTransformers] at listed
      cases listed
    · have listed : _ ∈ Listing.files .transformer directory := holds.1
      rw [noTransformers] at listed
      cases listed
  obtain ⟨first, second, opened, openedToo, same, left⟩ := (open_on_reordered .standard .builtins .empty directory).2
    indexesUntied transformersUntied reordered (List.reverse_perm directory.entries).symm
  exact ⟨directory, reordered, rfl, rfl, first, second, opened, openedToo, same, left⟩

theorem open_on_last_live {directory : Directory} {definition : IndexDefinition} (extensions : Extensions)
    (live : definition ∈ (Fates.ofDirectory extensions directory).live) :
    ∃ opened, openOn .standard extensions .empty (.present directory) = .ok opened ∧
      (opened.indexes.get? (.id definition.id)).map IndexDefinition.name = some definition.name := by
  obtain ⟨opened, _, started, ⟨archive, loading, ledger, tells, _, same⟩, _⟩ := open_on_told
    (rfl : RegistrySettings.standard.runInMemory = false) extensions .empty
    (rfl : (Disk.present directory).withDirectory? = some (.present directory))
  obtain ⟨generator, _, found⟩ := (ledger.settles tells).live definition live
  rw [same] at found
  refine ⟨opened, started, ?_⟩
  change (opened.indexes.get? (.id (Definition.id definition))).map IndexDefinition.name = _
  rw [found, Option.map_some]
  exact congrArg some ((LawfulDefinition.name_fill _ _).trans (LawfulDefinition.name_prepare definition))

-- Of two definitions of one id in files without ids, that of the file which is listed later is
-- live.
theorem open_on_reordered_tied :
    let text (definition : IndexDefinition) : Node := .text (Definition.toValue definition).pretty
    let one := { IndexDefinition.ofSingleMap "A" "from d in docs select new \x7b d.X \x7d" with id := 1 }
    let other := { one with name := "B" }
    ∃ directory reordered : Directory,
      directory.entries = [("a.index", text one), ("b.index", text other)] ∧
      reordered.entries = [("b.index", text other), ("a.index", text one)] ∧
      ∃ first second, openOn .standard .builtins .empty (.present directory) = .ok first ∧
        openOn .standard .builtins .empty (.present reordered) = .ok second ∧
        (first.indexes.get? (.id 1)).map IndexDefinition.name = some "B" ∧
        (second.indexes.get? (.id 1)).map IndexDefinition.name = some "A" := by
  intro text one other
  let directory : Directory := ⟨[("a.index", text one), ("b.index", text other)], by decide⟩
  let reordered : Directory := ⟨[("b.index", text other), ("a.index", text one)], by decide⟩
  have ids : parseId? ['a'] = none ∧ parseId? ['b'] = none := by decide +kernel
  have parts : splitExtension "a.index" = some (['a'], DefinitionKind.index.fileExtension.toList) ∧
      splitExtension "b.index" = some (['b'], DefinitionKind.index.fileExtension.toList) := by decide +kernel
  have oneRead : (⟨"a.index", none, text one⟩ : DefinitionFile).read = .ok one :=
    DefinitionFile.read_text rfl (by decide) (by decide)
  have otherRead : (⟨"b.index", none, text other⟩ : DefinitionFile).read = .ok other :=
    DefinitionFile.read_text rfl (by decide) (by decide)
  have files : Listing.files .index directory = [⟨"a.index", none, text one⟩, ⟨"b.index", none, text other⟩] :=
    Listing.files_eq (by simp [directory, DefinitionFile.ofNode?, parts, ids]) (by decide)
  have filesToo : Listing.files .index reordered = [⟨"b.index", none, text other⟩, ⟨"a.index", none, text one⟩] :=
    Listing.files_eq (by simp [reordered, DefinitionFile.ofNode?, parts, ids]) (by decide)
  have listing : Listing.ofDirectory directory = ⟨[one, other], []⟩ := by
    refine Listing.of_directory_eq ?_ (by decide)
    change List.Forall₂ _ (Listing.files .index directory) _
    rw [files]
    exact .cons oneRead (.cons otherRead .nil)
  have listingToo : Listing.ofDirectory reordered = ⟨[other, one], []⟩ := by
    refine Listing.of_directory_eq ?_ (by decide)
    change List.Forall₂ _ (Listing.files .index reordered) _
    rw [filesToo]
    exact .cons otherRead (.cons oneRead .nil)
  have live : other ∈ (Fates.ofDirectory .builtins directory).live := by
    rw [Fates.ofDirectory, listing]
    decide +kernel
  have liveToo : one ∈ (Fates.ofDirectory .builtins reordered).live := by
    rw [Fates.ofDirectory, listingToo]
    decide +kernel
  obtain ⟨first, opened, name⟩ := open_on_last_live .builtins live
  obtain ⟨second, openedToo, nameToo⟩ := open_on_last_live .builtins liveToo
  exact ⟨directory, reordered, rfl, rfl, first, second, opened, openedToo, name, nameToo⟩

end Registry
end DocumentViews
