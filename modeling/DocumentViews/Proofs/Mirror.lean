import DocumentViews.Proofs.Archive
import DocumentViews.Proofs.Run

set_option autoImplicit false

namespace DocumentViews

open LawfulDefinition

section Kind

variable {δ γ : Type} [Definition δ γ]

namespace Shelf

variable {shelf : Shelf δ γ}

theorem relist_writable (writable : shelf.archive.Writable) (catalog : Catalog δ γ) :
    (shelf.relist catalog).archive.Writable := (Archive.write_file_spec writable _ _).2.1

theorem persist_writable (writable : shelf.archive.Writable) (definition : δ) :
    (shelf.persist definition).2.archive.Writable := (Archive.write_file_spec writable _ _).2.1

theorem stored_done (writable : shelf.archive.Writable) (catalog : Catalog δ γ) (definition : δ) :
    ((shelf.relist catalog).persist definition).1 = .ok () :=
  (Archive.write_file_spec (relist_writable writable catalog) _ _).1

theorem create_and_persist_unchanged {extensions : Extensions} {definition : δ} {error : DefinitionError}
    (writable : shelf.archive.Writable) (failed : (shelf.createAndPersist extensions definition).1 = .error error) :
    (shelf.createAndPersist extensions definition).2.catalog = shelf.catalog := by
  obtain ⟨ids, counted⟩ := shelf.identify_counts definition
  simp only [createAndPersist, counted] at failed ⊢
  split at failed
  next => rfl
  next installed catalog _ =>
    have writableThen : ({ shelf with ids } : Shelf δ γ).archive.Writable := writable
    have written := stored_done writableThen catalog installed
    cases written.symm.trans (map_error failed)

variable {kind : DefinitionKind}

theorem relist_agrees (writable : shelf.archive.Writable) (different : Definition.kind δ ≠ kind) (catalog : Catalog δ γ) :
    Archive.AgreesOn kind shelf.archive (shelf.relist catalog).archive :=
  Archive.agrees_on_write_file writable different (.inl rfl) _

theorem persist_agrees (writable : shelf.archive.Writable) (different : Definition.kind δ ≠ kind) (definition : δ) :
    Archive.AgreesOn kind shelf.archive (shelf.persist definition).2.archive :=
  Archive.agrees_on_write_file writable different ((Definition.kind δ).concerns_file _) _

theorem store_agrees (writable : shelf.archive.Writable) (different : Definition.kind δ ≠ kind) (catalog : Catalog δ γ)
    (definition : δ) : Archive.AgreesOn kind shelf.archive ((shelf.relist catalog).persist definition).2.archive :=
  (relist_agrees writable different catalog).trans (persist_agrees (relist_writable writable catalog) different definition)

theorem step_agrees {rules : Rules δ} {extensions : Extensions} {next : Shelf δ γ} (writable : shelf.archive.Writable)
    (different : Definition.kind δ ≠ kind) (step : Step rules extensions shelf next) :
    Archive.AgreesOn kind shelf.archive next.archive := by
  cases step with
  | counted ids => exact fun _ _ => rfl
  | compiled _ _ _ => exact store_agrees writable different _ _
  | replaced _ _ => exact store_agrees writable different _ _
  | @removed id _ =>
      simp only [remove]
      split
      · exact (relist_agrees writable different _).trans
          (Archive.agrees_on_delete (relist_writable writable _) different id)
      · exact fun _ _ => rfl
  | filled key => exact fun _ _ => rfl
  | marked id => exact fun _ _ => rfl
  | added _ _ _ => exact relist_agrees writable different _
  | addedAgain _ _ => exact relist_agrees writable different _

end Shelf

variable [LawfulDefinition δ γ]

structure FilesMatch (entries : SortedMap UInt32 (CatalogEntry δ γ)) (archive : Archive) : Prop where
  written : ∀ {id : UInt32} {entry : CatalogEntry δ γ}, entries.get? id = some entry →
    ∃ stored : δ, archive.disk.get? ((Definition.kind δ).fileName id) = some (.text (Definition.toValue stored).pretty) ∧
      bare stored = bare entry.definition
  only : ∀ {stem : String} {node : Node}, archive.disk.get? (stem ++ "." ++ (Definition.kind δ).fileExtension) = some node →
    ∃ id entry, entries.get? id = some entry ∧
      stem ++ "." ++ (Definition.kind δ).fileExtension = (Definition.kind δ).fileName id

namespace FilesMatch

variable {entries : SortedMap UInt32 (CatalogEntry δ γ)} {archive after : Archive}

theorem of_same_files (files : FilesMatch entries archive)
    (same : ∀ stem, after.disk.get? (stem ++ "." ++ (Definition.kind δ).fileExtension) =
      archive.disk.get? (stem ++ "." ++ (Definition.kind δ).fileExtension)) : FilesMatch entries after where
  written found := by
    rw [DefinitionKind.fileName, same]
    exact files.written found
  only found := by
    rw [same] at found
    exact files.only found

theorem list (files : FilesMatch entries archive) (writable : archive.Writable) (kind : DefinitionKind)
    (pairs : List (UInt32 × String)) : FilesMatch entries (archive.writeListing kind pairs).2 := by
  apply files.of_same_files
  intro stem
  have concerned : (Definition.kind δ).Concerns (stem ++ "." ++ (Definition.kind δ).fileExtension) := .inr ⟨stem, rfl⟩
  rw [Archive.writeListing, (Archive.write_file_spec writable _ _).2.2, if_neg, if_neg]
  · intro same
    rw [same] at concerned
    exact (Definition.kind δ).temporary_unconcerned _ concerned
  · intro same
    by_cases own : Definition.kind δ = kind
    · subst own
      exact (Definition.kind δ).listing_ne_file stem same.symm
    · exact DefinitionKind.concerns_one_kind own concerned (.inl same)

theorem write (files : FilesMatch entries archive) (writable : archive.Writable) {definition : δ}
    {entry : CatalogEntry δ γ} (same : bare entry.definition = bare definition) :
    FilesMatch (entries.insert (Definition.id definition) entry) (archive.write definition).2 := by
  have found := (Archive.write_file_spec writable ((Definition.kind δ).fileName (Definition.id definition))
    (Definition.toValue definition).pretty).2.2
  have kept : ∀ stem, stem ++ "." ++ (Definition.kind δ).fileExtension ≠
      (Definition.kind δ).fileName (Definition.id definition) →
      (archive.write definition).2.disk.get? (stem ++ "." ++ (Definition.kind δ).fileExtension) =
        archive.disk.get? (stem ++ "." ++ (Definition.kind δ).fileExtension) := by
    intro stem other
    rw [Archive.write, found, if_neg other, if_neg]
    intro temporary
    exact (Definition.kind δ).temporary_unconcerned _ (.inr ⟨stem, temporary.symm⟩)
  constructor
  · intro id other present
    rw [SortedMap.get_insert] at present
    by_cases own : id = Definition.id definition
    · rw [if_pos own] at present
      cases present
      subst own
      exact ⟨definition, by rw [Archive.write, found, if_pos rfl], same.symm⟩
    · rw [if_neg own] at present
      rw [DefinitionKind.fileName, kept]
      · exact files.written present
      · exact fun sameFile => own ((Definition.kind δ).file_name_inj sameFile)
  · intro stem node present
    by_cases own : stem ++ "." ++ (Definition.kind δ).fileExtension =
        (Definition.kind δ).fileName (Definition.id definition)
    · exact ⟨Definition.id definition, entry, by simp, own⟩
    · rw [kept stem own] at present
      obtain ⟨id, other, there, named⟩ := files.only present
      have different : id ≠ Definition.id definition := by
        rintro rfl
        exact own named
      exact ⟨id, other, by rw [SortedMap.get_insert, if_neg different]; exact there, named⟩

theorem delete (files : FilesMatch entries archive) (writable : archive.Writable) (id : UInt32) :
    FilesMatch (entries.erase id) (archive.delete (Definition.kind δ) id).2 := by
  have found := (Archive.delete_spec writable (Definition.kind δ) id).2.2
  constructor
  · intro other entry present
    rw [SortedMap.get_erase] at present
    by_cases own : other = id
    · rw [if_pos own] at present
      cases present
    · rw [if_neg own] at present
      rw [found, if_neg fun same => own ((Definition.kind δ).file_name_inj same)]
      exact files.written present
  · intro stem node present
    rw [found] at present
    split at present
    · cases present
    next different =>
      obtain ⟨other, entry, there, named⟩ := files.only present
      have kept : other ≠ id := by
        rintro rfl
        exact different named
      exact ⟨other, entry, by rw [SortedMap.get_erase, if_neg kept]; exact there, named⟩

theorem refill (files : FilesMatch entries archive) {id : UInt32} {entry changed : CatalogEntry δ γ}
    (found : entries.get? id = some entry) (same : bare changed.definition = bare entry.definition) :
    FilesMatch (entries.insert id changed) archive := by
  constructor
  · intro other present found
    rw [SortedMap.get_insert] at found
    split at found
    next own =>
      cases found
      subst own
      rw [same]
      exact files.written (by assumption)
    next => exact files.written found
  · intro stem node present
    obtain ⟨other, there, held, named⟩ := files.only present
    by_cases own : other = id
    · exact ⟨other, changed, by rw [SortedMap.get_insert, if_pos own], named⟩
    · exact ⟨other, there, by rw [SortedMap.get_insert, if_neg own]; exact held, named⟩

end FilesMatch

structure Mirrors (catalog : Catalog δ γ) (archive : Archive) : Prop where
  files : FilesMatch catalog.entries archive
  listed : archive.disk.get? (Definition.kind δ).listingFile = some (.text (Archive.listingText catalog.listing))

namespace Mirrors

variable {catalog : Catalog δ γ} {archive after : Archive}

theorem of_agreement (mirrors : Mirrors catalog archive) (same : Archive.AgreesOn (Definition.kind δ) archive after) :
    Mirrors catalog after where
  files := mirrors.files.of_same_files fun stem => same _ (.inr ⟨stem, rfl⟩)
  listed := (same _ (.inl rfl)).trans mirrors.listed

end Mirrors

namespace Shelf

structure Mirrored (shelf : Shelf δ γ) : Prop where
  writable : shelf.archive.Writable
  mirrors : Mirrors shelf.catalog shelf.archive

variable {shelf next : Shelf δ γ}

theorem stored_mirrored (mirrored : shelf.Mirrored) {catalog : Catalog δ γ} {definition : δ} {entry : CatalogEntry δ γ}
    (entries : catalog.entries = shelf.catalog.entries.insert (Definition.id definition) entry)
    (same : bare entry.definition = bare definition) :
    ((shelf.relist catalog).persist definition).2.Mirrored := by
  have relisted := relist_writable mirrored.writable catalog
  refine ⟨persist_writable relisted definition, ?_, ?_⟩
  · rw [persist_catalog, relist_catalog, entries]
    exact (mirrored.mirrors.files.list mirrored.writable _ _).write relisted same
  · apply (Archive.listed_after_write relisted definition).trans
    exact Archive.listed_after_list mirrored.writable _ _

theorem remove_mirrored (mirrored : shelf.Mirrored) (id : UInt32) : (shelf.remove id).2.Mirrored := by
  simp only [remove]
  split
  · have relisted := relist_writable mirrored.writable (shelf.catalog.remove id)
    refine ⟨(Archive.delete_spec relisted _ id).2.1, ?_, ?_⟩
    · exact (mirrored.mirrors.files.list mirrored.writable _ _).delete relisted id
    · apply (Archive.listed_after_delete relisted _ id).trans
      exact Archive.listed_after_list mirrored.writable _ _
  · exact mirrored

theorem fill_mirrored (mirrored : shelf.Mirrored) (key : DefinitionKey) :
    ({ shelf with catalog := (shelf.catalog.fill key).2 } : Shelf δ γ).Mirrored := by
  refine ⟨mirrored.writable, ?_⟩
  constructor
  · rcases shelf.catalog.fill_cases key with same | ⟨id, entry, found, filled⟩
    · rw [same]
      exact mirrored.mirrors.files
    · rw [filled]
      exact mirrored.mirrors.files.refill found (bare_fill _ _)
  · rw [Catalog.fill_listing]
    exact mirrored.mirrors.listed

theorem step_mirrored {rules : Rules δ} {extensions : Extensions} (keeps : rules.keepsFiles) (mirrored : shelf.Mirrored)
    (step : Step rules extensions shelf next) : next.Mirrored := by
  cases step with
  | counted ids => exact ⟨mirrored.writable, mirrored.mirrors⟩
  | compiled _ _ installed =>
      obtain ⟨_, _, rfl⟩ := Catalog.install_ok installed
      exact stored_mirrored mirrored rfl rfl
  | replaced _ replaced =>
      obtain ⟨entry, _, _, _, rfl⟩ := Catalog.replace_definition_ok replaced
      exact stored_mirrored mirrored rfl rfl
  | removed _ => exact remove_mirrored mirrored _
  | filled key => exact fill_mirrored mirrored key
  | marked id =>
      refine ⟨mirrored.writable, ?_⟩
      simp only [Catalog.markNew]
      split
      · exact ⟨mirrored.mirrors.files, mirrored.mirrors.listed⟩
      · exact mirrored.mirrors
  | added free => exact absurd keeps free
  | addedAgain free => exact absurd keeps free

end Shelf

-- The files of a kind are those of the live definitions, each decodes to its definition up
-- to its fields, and the list of ids and names is that of the live definitions in ascending
-- order of the ids.
structure Catalog.OnDisk (catalog : Catalog δ γ) (disk : Disk) : Prop where
  files : ∀ stem, (∃ node, disk.get? (stem ++ "." ++ (Definition.kind δ).fileExtension) = some node) ↔
    ∃ id, catalog.isLive id = true ∧ stem ++ "." ++ (Definition.kind δ).fileExtension = (Definition.kind δ).fileName id
  decoded : ∀ {id : UInt32} {definition : δ}, catalog.get? (.id id) = some definition →
    ∃ text stored, disk.get? ((Definition.kind δ).fileName id) = some (.text text) ∧
      Json.document Definition.reader text = .ok stored ∧ bare stored = bare definition
  listed : ∃ pairs, disk.get? (Definition.kind δ).listingFile = some (.text (Archive.listingText pairs)) ∧
    (pairs.map Prod.fst).Pairwise (· < ·) ∧
      ∀ id name, (id, name) ∈ pairs ↔ ∃ definition, catalog.get? (.id id) = some definition ∧
        Definition.name definition = name

theorem Mirrors.on_disk {catalog : Catalog δ γ} {archive : Archive} (mirrors : Mirrors catalog archive) :
    catalog.OnDisk archive.disk where
  files stem := by
    constructor
    · rintro ⟨node, present⟩
      obtain ⟨id, entry, found, named⟩ := mirrors.files.only present
      exact ⟨id, (catalog.isLive_iff id).mpr ⟨entry, found⟩, named⟩
    · rintro ⟨id, live, named⟩
      obtain ⟨entry, found⟩ := (catalog.isLive_iff id).mp live
      obtain ⟨stored, present, _⟩ := mirrors.files.written found
      exact ⟨_, named ▸ present⟩
  decoded {id definition} found := by
    obtain ⟨entry, live, rfl⟩ := Catalog.live_of_id found
    obtain ⟨stored, present, same⟩ := mirrors.files.written live
    exact ⟨_, stored, present, Json.document_takes LawfulDefinition.round_trips stored, same⟩
  listed := by
    refine ⟨catalog.listing, mirrors.listed, ?_, ?_⟩
    · rw [Catalog.listing, List.map_map]
      exact catalog.entries.keys_ascending
    · intro id name
      rw [Catalog.listing, List.mem_map, Catalog.get?, Catalog.find_by_id]
      constructor
      · rintro ⟨⟨found, entry⟩, present, same⟩
        cases same
        rw [(SortedMap.mem_entries_iff _ _ _).mp present]
        exact ⟨_, rfl, rfl⟩
      · rintro ⟨definition, found, rfl⟩
        obtain ⟨entry, present, rfl⟩ := Option.map_eq_some_iff.mp found
        exact ⟨(id, entry), (SortedMap.mem_entries_iff _ _ _).mpr present, rfl⟩

end Kind

namespace Registry

structure Mirrored (registry : Registry) : Prop where
  writable : registry.archive.Writable
  indexes : Mirrors registry.indexes registry.archive
  transformers : Mirrors registry.transformers registry.archive

theorem before_promotion {shelf : Shelf IndexDefinition IndexGenerator}
    {entries : SortedMap UInt32 (CatalogEntry IndexDefinition IndexGenerator)}
    (writable : shelf.archive.Writable) (files : FilesMatch entries shelf.archive) (displaced : Option UInt32)
    (definition : IndexDefinition) :
    ∃ archive : Archive, archive.Writable ∧
      FilesMatch (match displaced with | some holder => entries.erase holder | none => entries) archive ∧
      archive.disk.get? (DefinitionKind.listingFile .index) = shelf.archive.disk.get? (DefinitionKind.listingFile .index) ∧
      Archive.AgreesOn .transformer shelf.archive archive ∧
      (persistPromoted displaced definition shelf).2.archive = (archive.write definition).2 := by
  cases displaced with
  | none => exact ⟨shelf.archive, writable, files, rfl, fun _ _ => rfl, rfl⟩
  | some holder =>
      obtain ⟨deleted, stillWritable, _⟩ := Archive.delete_spec writable .index holder
      refine ⟨(shelf.archive.delete .index holder).2, stillWritable, files.delete writable holder,
        Archive.listed_after_delete writable .index holder, Archive.agrees_on_delete writable (by decide) holder, ?_⟩
      simp only [persistPromoted, deleted]
      rfl

theorem promoted_mirrored {registry : Registry} (mirrored : registry.Mirrored) {definition : IndexDefinition}
    {generator : IndexGenerator} {displaced : Option UInt32} {catalog : Catalog IndexDefinition IndexGenerator}
    (installed : registry.indexes.installDisplacing definition generator displaced = .ok catalog) :
    (registry.withIndexShelf (persistPromoted displaced definition (registry.indexShelf.relist catalog)).2).Mirrored := by
  obtain ⟨_, _, _, placed⟩ := Catalog.install_displacing_ok installed
  have writable : registry.indexShelf.archive.Writable := mirrored.writable
  -- The file of the displaced index goes before the new one is written, so the files are first
  -- those of the catalog without it.
  have relisted := Shelf.relist_writable writable catalog
  obtain ⟨archive, writableThere, files, listed, agrees, written⟩ :=
    before_promotion relisted (mirrored.indexes.files.list mirrored.writable .index catalog.listing) displaced definition
  have entries : catalog.entries = SortedMap.insert definition.id
      ⟨definition, generator, (registry.indexes.cleared displaced).installs⟩
      (match displaced with
        | some holder => registry.indexes.entries.erase holder
        | none => registry.indexes.entries) := by
    rw [placed]
    cases displaced <;> rfl
  constructor
  · rw [withIndexShelf, written]
    exact (Archive.write_file_spec writableThere _ _).2.1
  · rw [withIndexShelf, written]
    constructor
    · rw [persist_promoted_catalog, Shelf.relist_catalog, entries]
      exact files.write writableThere rfl
    · rw [persist_promoted_catalog]
      refine (Archive.listed_after_write writableThere definition).trans (listed.trans ?_)
      exact Archive.listed_after_list writable .index catalog.listing
  · apply mirrored.transformers.of_agreement
    rw [withIndexShelf, written]
    exact ((Shelf.relist_agrees writable (by decide) catalog).trans agrees).trans
      (Archive.agrees_on_write_file writableThere (by decide : DefinitionKind.index ≠ .transformer)
        (DefinitionKind.concerns_file .index definition.id) _)

theorem step_mirrored {registry next : Registry} (mirrored : registry.Mirrored) (step : Step .filed registry next) :
    next.Mirrored := by
  cases step with
  | indexes step =>
      have shelf : registry.indexShelf.Mirrored := ⟨mirrored.writable, mirrored.indexes⟩
      have stepped := Shelf.step_mirrored trivial shelf step
      exact ⟨stepped.writable, stepped.mirrors,
        mirrored.transformers.of_agreement (Shelf.step_agrees shelf.writable (by decide) step)⟩
  | transformers step =>
      have shelf : registry.transformerShelf.Mirrored := ⟨mirrored.writable, mirrored.transformers⟩
      have stepped := Shelf.step_mirrored trivial shelf step
      exact ⟨stepped.writable, mirrored.indexes.of_agreement (Shelf.step_agrees shelf.writable (by decide) step),
        stepped.mirrors⟩
  | promoted _ _ _ installed => exact promoted_mirrored mirrored installed
  | around storage traffic => exact ⟨mirrored.writable, mirrored.indexes, mirrored.transformers⟩
  | meddled disk kept => exact absurd trivial kept

theorem comes_from_mirrored {before after : Registry} (mirrored : before.Mirrored) (chain : ComesFrom .filed before after) :
    after.Mirrored := by
  induction chain with
  | refl => exact mirrored
  | tail _ step ih => exact step_mirrored ih step

theorem files_match_empty {δ γ : Type} [Definition δ γ] [LawfulDefinition δ γ] :
    FilesMatch (SortedMap.empty : SortedMap UInt32 (CatalogEntry δ γ)) ⟨true, .present .empty⟩ where
  written found := by cases found
  only found := by cases found

theorem fresh_mirrored (settings : RegistrySettings) (extensions : Extensions) (storage : ResultStorage) :
    (fresh settings extensions storage).Mirrored := by
  have listed := (Archive.write_file_spec Archive.writable_empty (DefinitionKind.listingFile .index)
    (Archive.listingText [])).2.1
  constructor
  · exact (Archive.write_file_spec listed _ _).2.1
  · refine ⟨(files_match_empty.list Archive.writable_empty .index []).list listed .transformer [], ?_⟩
    refine (Archive.agrees_on_write_file listed (by decide : DefinitionKind.transformer ≠ .index) (.inl rfl) _ _
      (.inl rfl)).trans ?_
    exact Archive.listed_after_list Archive.writable_empty .index []
  · refine ⟨(files_match_empty.list Archive.writable_empty .index []).list listed .transformer [], ?_⟩
    exact Archive.listed_after_list listed .transformer []

theorem run_mirrored {registry : Registry} (mirrored : registry.Mirrored) {events : List Event}
    (filed : ∀ event ∈ events, event.keepsFiles = true) : (registry.run events).Mirrored :=
  run_keeps (fun event => event.keepsFiles = true)
    (fun registry _ kept holds => comes_from_mirrored holds (perform_comes_from (registry.allows_filed kept)))
    mirrored filed

/-- After a run on an empty directory in which nobody else touches the files, so that none of them fails to be written or
deleted, the lists for people among them, the files on the disk are those of both catalogs. -/
theorem opened_run_on_disk {settings : RegistrySettings} (durable : settings.runInMemory = false)
    (extensions : Extensions) (storage : ResultStorage) {disk : Disk} (isEmpty : IsEmpty disk) {events : List Event}
    (filed : ∀ event ∈ events, event.keepsFiles = true) :
    ∃ opened, openOn settings extensions storage disk = .ok opened ∧
      (opened.run events).indexes.OnDisk (opened.run events).archive.disk ∧
      (opened.run events).transformers.OnDisk (opened.run events).archive.disk := by
  have mirrored := run_mirrored (fresh_mirrored settings extensions storage) filed
  exact ⟨_, open_on_empty durable extensions storage isEmpty, mirrored.indexes.on_disk, mirrored.transformers.on_disk⟩

theorem opened_run_on_disk_overwritten :
    let dogs := IndexDefinition.ofSingleMap "Dogs" "from d in docs select new \x7b d.Name \x7d"
    let events := [.putIndex "main" dogs, .createIndex { dogs with id := 1, name := "Cats" },
      .createTransformer (.ofQuery "Names" "from r in results select r.Name"), .replaceIndex "main" "Cats" "Dogs",
      .removeIndex 1]
    ∃ opened, openOn .standard .builtins .empty .absent = .ok opened ∧
      (opened.run events).indexes.OnDisk (opened.run events).archive.disk ∧
      (opened.run events).transformers.OnDisk (opened.run events).archive.disk := by
  have durable : RegistrySettings.standard.runInMemory = false := rfl
  have isEmpty : IsEmpty .absent := rfl
  exact opened_run_on_disk durable .builtins .empty isEmpty (by simp [Event.keepsFiles])

end Registry
end DocumentViews
