import DocumentViews.Proofs.Fates

set_option autoImplicit false

namespace DocumentViews

def Skipped.place (skipped : Skipped) : DefinitionKind × String × Option UInt32 := (skipped.kind, skipped.file, skipped.id)

def Replaced.removed (replaced : Replaced) : DefinitionKind × UInt32 := (replaced.kind, replaced.removedId)

namespace Catalog

variable {δ γ : Type} [Definition δ γ] {catalog : Catalog δ γ} {definition : δ}

theorem check_replaceable_of {id : UInt32}
    (replaceable : ∀ {entry : CatalogEntry δ γ}, catalog.entries.get? id = some entry →
      Definition.isCompiled entry.definition = false) : catalog.checkReplaceable id = .ok () := by
  rw [checkReplaceable]
  split
  · rfl
  next entry found => rw [replaceable found, if_neg Bool.false_ne_true]

theorem check_name_free_of {name : String} {id : UInt32}
    (free : ∀ {holder : UInt32}, catalog.names.get? (foldName name) = some holder → holder = id) :
    catalog.checkNameFree name id none = .ok () := by
  rw [checkNameFree]
  split
  · rfl
  next holder held => rw [if_pos (.inl (free held))]

theorem install_replaceable
    (replaceable : ∀ {entry : CatalogEntry δ γ}, catalog.entries.get? (Definition.id definition) = some entry →
      Definition.isCompiled entry.definition = false)
    (free : ∀ {holder : UInt32}, catalog.names.get? (foldName (Definition.name definition)) = some holder →
      holder = Definition.id definition) (generator : γ) :
    catalog.install definition generator = .ok (catalog.place definition generator) := by
  rw [install, bind_of_ok _ (check_replaceable_of replaceable), bind_of_ok _ (check_name_free_of free)]

theorem install_fixed {entry : CatalogEntry δ γ} (found : catalog.entries.get? (Definition.id definition) = some entry)
    (fixed : Definition.isCompiled entry.definition = true) (generator : γ) :
    ∃ error, catalog.install definition generator = .error error := by
  refine ⟨.compiledIsFixed (Definition.kind δ) (Definition.id definition) (Definition.name entry.definition), ?_⟩
  rw [install, checkReplaceable, found]
  dsimp only
  rw [if_pos fixed]
  rfl

end Catalog

namespace Loading

variable {δ γ : Type} [Definition δ γ]

structure AsLoaded (extensions : Extensions) (definition : δ) (entry : CatalogEntry δ γ) : Prop where
  compiled : Definition.compile extensions (Definition.prepare definition) = .ok entry.generator
  filled : entry.definition = Definition.fill (Definition.prepare definition) entry.generator

variable [LawfulDefinition δ γ]

structure Tallies (extensions : Extensions) (unread : List Skipped) (fates : Fates δ) (loading : Loading δ γ) : Prop where
  consistent : loading.shelf.catalog.Consistent
  live : ∀ definition ∈ fates.live, ∃ entry, loading.shelf.catalog.entries.get? (Definition.id definition) = some entry ∧
    AsLoaded extensions definition entry
  stored : ∀ {id : UInt32} {entry : CatalogEntry δ γ}, loading.shelf.catalog.entries.get? id = some entry →
    ∃ definition ∈ fates.live, Definition.id definition = id
  distinct : (fates.live.map Definition.id).Nodup
  loaded : loading.loaded = fates.live.length + fates.overwritten.length
  replaced : loading.replaced.map Replaced.removed =
    fates.removed.map fun definition => (Definition.kind δ, Definition.id definition)
  skipped : ∃ failed : List Skipped, loading.skipped = unread ++ failed ∧
    failed.map Skipped.place = fates.failed.map fun definition =>
      (Definition.kind δ, (Definition.kind δ).fileName (Definition.id definition), some (Definition.id definition))

namespace Tallies

variable {extensions : Extensions} {unread : List Skipped} {fates : Fates δ} {loading : Loading δ γ} {definition : δ}

theorem reserve (tallies : Tallies extensions unread fates loading) (id : UInt32) :
    Tallies extensions unread fates (loading.reserveThrough id) :=
  ⟨tallies.consistent, tallies.live, tallies.stored, tallies.distinct, tallies.loaded, tallies.replaced, tallies.skipped⟩

theorem name_held (tallies : Tallies extensions unread fates loading) {other : δ} (live : other ∈ fates.live) :
    loading.shelf.catalog.names.get? (foldName (Definition.name other)) = some (Definition.id other) := by
  obtain ⟨entry, found, loaded⟩ := tallies.live other live
  refine (tallies.consistent.names_exact _ _).mpr ⟨entry, found, ?_⟩
  rw [loaded.filled, LawfulDefinition.name_fill, LawfulDefinition.name_prepare]

theorem held_by (tallies : Tallies extensions unread fates loading) {folded : String} {holder : UInt32}
    (held : loading.shelf.catalog.names.get? folded = some holder) :
    ∃ other ∈ fates.live, Definition.id other = holder ∧ foldName (Definition.name other) = folded := by
  obtain ⟨entry, found, named⟩ := (tallies.consistent.names_exact _ _).mp held
  obtain ⟨other, live, own⟩ := tallies.stored found
  obtain ⟨entryThere, foundThere, loaded⟩ := tallies.live other live
  rw [own, found] at foundThere
  cases foundThere
  refine ⟨other, live, own, ?_⟩
  rw [← named, loaded.filled, LawfulDefinition.name_fill, LawfulDefinition.name_prepare]

theorem makes_way_iff (tallies : Tallies extensions unread fates loading) {other : δ} (live : other ∈ fates.live) :
    Fates.makesWayFor definition other = true ↔
      loading.shelf.catalog.names.get? (foldName (Definition.name definition)) = some (Definition.id other) ∧
        Definition.id other ≠ Definition.id definition := by
  simp only [Fates.makesWayFor, Bool.and_eq_true, beq_iff_eq, bne_iff_ne]
  refine and_congr_left fun _ => ⟨fun same => same ▸ tallies.name_held live, fun held => ?_⟩
  obtain ⟨another, liveThere, own, named⟩ := tallies.held_by held
  have one := List.inj_on_of_nodup_map tallies.distinct liveThere live own
  rw [← one, named]

theorem discard (tallies : Tallies extensions unread fates loading) (cleanUp : CleanUp) {other : δ}
    (live : other ∈ fates.live) (definition : δ) :
    Tallies extensions unread
      { fates with
        live := fates.live.filter (!Fates.hasId (Definition.id other) ·)
        removed := fates.removed ++ [other] }
      (loading.discard cleanUp (Definition.id other) definition) := by
  obtain ⟨entry, found, _⟩ := tallies.live other live
  have removed : (loading.discard cleanUp (Definition.id other) definition).shelf.catalog =
      loading.shelf.catalog.remove (Definition.id other) := by
    rw [Loading.discard, Shelf.remove_catalog, if_pos ((Catalog.isLive_iff _ _).mpr ⟨entry, found⟩)]
  have alone : fates.live.filter (Fates.hasId (Definition.id other)) = [other] := filter_distinct tallies.distinct live
  constructor
  · exact removed ▸ tallies.consistent.remove _
  · intro one liveThere
    obtain ⟨stays, notOther⟩ := List.mem_filter.mp liveThere
    obtain ⟨entryThere, foundThere, loaded⟩ := tallies.live one stays
    have different : Definition.id one ≠ Definition.id other := by simpa [Fates.hasId] using notOther
    refine ⟨entryThere, ?_, loaded⟩
    rw [removed, Catalog.remove, SortedMap.get_erase, if_neg different, foundThere]
  · intro id entryThere foundThere
    rw [removed, Catalog.remove, SortedMap.get_erase] at foundThere
    split at foundThere
    · cases foundThere
    next different =>
      obtain ⟨one, stays, own⟩ := tallies.stored foundThere
      exact ⟨one, List.mem_filter.mpr ⟨stays, by simpa [Fates.hasId, own] using different⟩, own⟩
  · exact tallies.distinct.sublist (List.filter_sublist.map _)
  · have lengths := List.length_eq_length_filter_add (l := fates.live) (Fates.hasId (Definition.id other))
    rw [alone, List.length_singleton] at lengths
    have loaded := tallies.loaded
    dsimp only [Loading.discard]
    omega
  · simp [Loading.discard, tallies.replaced, Replaced.removed]
  · exact tallies.skipped

theorem make_way (tallies : Tallies extensions unread fates loading) (cleanUp : CleanUp) (definition : δ) :
    Tallies extensions unread (fates.makeWay definition) (loading.makeWay cleanUp (Definition.prepare definition)) := by
  by_cases given : ∃ other ∈ fates.live, Fates.makesWayFor definition other = true
  · obtain ⟨other, live, makesWay⟩ := given
    obtain ⟨held, different⟩ := (tallies.makes_way_iff live).mp makesWay
    have chosen : ∀ one ∈ fates.live, Fates.makesWayFor definition one = Fates.hasId (Definition.id other) one := by
      intro one liveThere
      rw [Bool.eq_iff_iff, tallies.makes_way_iff liveThere, held, Option.some_inj, Fates.hasId, beq_iff_eq]
      exact ⟨fun both => both.1.symm, fun same => ⟨same.symm, same ▸ different⟩⟩
    have way : loading.makeWay cleanUp (Definition.prepare definition) =
        loading.discard cleanUp (Definition.id other) (Definition.prepare definition) := by
      simp only [makeWay, Catalog.resolve, LawfulDefinition.name_prepare, LawfulDefinition.id_prepare, held, if_neg different]
    have alone : fates.live.filter (Fates.hasId (Definition.id other)) = [other] := filter_distinct tallies.distinct live
    rw [way, Fates.makeWay, List.filter_congr chosen, alone, List.filter_congr fun one member => by rw [chosen one member]]
    exact tallies.discard cleanUp live _
  · have way : loading.makeWay cleanUp (Definition.prepare definition) = loading := by
      simp only [makeWay, Catalog.resolve, LawfulDefinition.name_prepare, LawfulDefinition.id_prepare]
      split
      · rfl
      next holder held =>
        obtain ⟨other, live, rfl, _⟩ := tallies.held_by held
        by_cases own : Definition.id other = Definition.id definition
        · rw [if_pos own]
        · exact absurd ⟨other, live, (tallies.makes_way_iff live).mpr ⟨held, own⟩⟩ given
    have nobody : ∀ other ∈ fates.live, ¬ Fates.makesWayFor definition other = true := by simpa using given
    have all : fates.live.filter (!Fates.makesWayFor definition ·) = fates.live :=
      List.filter_eq_self.mpr fun other live => by simpa using nobody other live
    rw [way, Fates.makeWay, List.filter_eq_nil_iff.mpr nobody, all, List.append_nil]
    exact tallies

theorem fail (tallies : Tallies extensions unread fates loading) {failure : Skipped} {definition : δ}
    (own : failure.place = (Definition.kind δ, (Definition.kind δ).fileName (Definition.id definition),
      some (Definition.id definition))) :
    Tallies extensions unread { fates with failed := fates.failed ++ [definition] }
      { loading with skipped := loading.skipped ++ [failure] } where
  consistent := tallies.consistent
  live := tallies.live
  stored := tallies.stored
  distinct := tallies.distinct
  loaded := tallies.loaded
  replaced := tallies.replaced
  skipped := by
    obtain ⟨failed, skipped, places⟩ := tallies.skipped
    exact ⟨failed ++ [failure], by simp [skipped], by simp [places, own]⟩

theorem place (tallies : Tallies extensions unread fates loading) {generator : γ}
    (compiled : Definition.compile extensions (Definition.prepare definition) = .ok generator)
    (free : ∀ {holder : UInt32}, loading.shelf.catalog.names.get? (foldName (Definition.name definition)) = some holder →
      holder = Definition.id definition) :
    Tallies extensions unread
      { fates with
        live := fates.live.filter (!Fates.hasId (Definition.id definition) ·) ++ [definition]
        overwritten := fates.overwritten ++ fates.live.filter (Fates.hasId (Definition.id definition)) }
      { loading with
        shelf := { loading.shelf with
          catalog := loading.shelf.catalog.place (Definition.fill (Definition.prepare definition) generator) generator }
        loaded := loading.loaded + 1 } := by
  have others : ∀ {other : δ}, other ∈ fates.live.filter (!Fates.hasId (Definition.id definition) ·) ↔
      other ∈ fates.live ∧ Definition.id other ≠ Definition.id definition := by
    intro other
    rw [List.mem_filter]
    simp [Fates.hasId]
  constructor
  · refine tallies.consistent.place ?_ fun holder held => ?_
    · rw [LawfulDefinition.compiled_id compiled, LawfulDefinition.id_fill]
    · simp only [LawfulDefinition.name_fill, LawfulDefinition.name_prepare, LawfulDefinition.id_fill,
        LawfulDefinition.id_prepare] at held ⊢
      exact free held
  · intro one live
    rcases List.mem_append.mp live with stays | own
    · obtain ⟨before, different⟩ := others.mp stays
      obtain ⟨entry, found, loaded⟩ := tallies.live one before
      exact ⟨entry, by simp [Catalog.place, different, found], loaded⟩
    · rw [List.mem_singleton.mp own]
      exact ⟨⟨Definition.fill (Definition.prepare definition) generator, generator, loading.shelf.catalog.installs⟩,
        by simp [Catalog.place], compiled, rfl⟩
  · intro id entry found
    simp only [Catalog.place, SortedMap.get_insert, LawfulDefinition.id_fill, LawfulDefinition.id_prepare] at found
    split at found
    next same => exact ⟨definition, by simp, same.symm⟩
    next different =>
      obtain ⟨one, live, own⟩ := tallies.stored found
      exact ⟨one, List.mem_append_left _ (others.mpr ⟨live, own ▸ different⟩), own⟩
  · rw [List.map_append, List.nodup_append]
    refine ⟨tallies.distinct.sublist (List.filter_sublist.map _), by simp, ?_⟩
    intro id stays other own
    obtain ⟨one, member, rfl⟩ := List.mem_map.mp stays
    rw [List.map_singleton, List.mem_singleton] at own
    rw [own]
    exact (others.mp member).2
  · have lengths := List.length_eq_length_filter_add (l := fates.live) (Fates.hasId (Definition.id definition))
    have loaded := tallies.loaded
    simp only [List.length_append, List.length_singleton]
    omega
  · exact tallies.replaced
  · exact tallies.skipped

theorem install [SuppliedDefinition δ] (tallies : Tallies extensions unread fates loading)
    (apart : ∀ other ∈ fates.live, Fates.makesWayFor definition other = false) :
    Tallies extensions unread (fates.install extensions definition)
      (loading.install extensions (Definition.prepare definition)) := by
  have free : ∀ {holder : UInt32}, loading.shelf.catalog.names.get? (foldName (Definition.name definition)) = some holder →
      holder = Definition.id definition := by
    intro holder held
    obtain ⟨other, live, rfl, _⟩ := tallies.held_by held
    by_contra different
    have makesWay := (tallies.makes_way_iff live).mpr ⟨held, different⟩
    rw [apart other live] at makesWay
    cases makesWay
  have supplied : ∀ {other : δ} {entry : CatalogEntry δ γ}, AsLoaded extensions other entry →
      Definition.isCompiled entry.definition = Definition.isCompiled other := by
    intro other entry loaded
    rw [loaded.filled, SuppliedDefinition.isCompiled_fill, SuppliedDefinition.isCompiled_prepare]
  rcases Fates.install_cases extensions definition fates with ⟨⟨generator, compiled⟩, replaceable, installed⟩ |
    ⟨rejected, installed⟩
  · have accepted : loading.shelf.catalog.install (Definition.fill (Definition.prepare definition) generator) generator =
        .ok (loading.shelf.catalog.place (Definition.fill (Definition.prepare definition) generator) generator) := by
      refine Catalog.install_replaceable (fun {entry} found => ?_) (by simpa using @free) generator
      rw [LawfulDefinition.id_fill, LawfulDefinition.id_prepare] at found
      obtain ⟨other, live, own⟩ := tallies.stored found
      obtain ⟨entryThere, foundThere, loaded⟩ := tallies.live other live
      rw [own, found] at foundThere
      cases foundThere
      rw [supplied loaded]
      exact replaceable other (List.mem_filter.mpr ⟨live, beq_iff_eq.mpr own⟩)
    rw [installed, Loading.install, Catalog.compileInto, compiled]
    simp only [bind, Except.bind, accepted]
    exact tallies.place compiled free
  · rw [installed, Loading.install, Catalog.compileInto]
    cases compiled : Definition.compile extensions (Definition.prepare definition) with
    | error error => exact tallies.fail (by simp [Skipped.place])
    | ok generator =>
        obtain ⟨other, rival, fixed⟩ := rejected ⟨generator, compiled⟩
        obtain ⟨live, own⟩ := List.mem_filter.mp rival
        obtain ⟨entry, found, loaded⟩ := tallies.live other live
        rw [← supplied loaded] at fixed
        have held : loading.shelf.catalog.entries.get?
            (Definition.id (Definition.fill (Definition.prepare definition) generator)) = some entry := by
          rw [LawfulDefinition.id_fill, LawfulDefinition.id_prepare, ← eq_of_beq own, found]
        obtain ⟨error, refused⟩ := Catalog.install_fixed held fixed generator
        simp only [bind, Except.bind, refused]
        exact tallies.fail (by simp [Skipped.place])

theorem add [SuppliedDefinition δ] (tallies : Tallies extensions unread fates loading) (cleanUp : CleanUp) (definition : δ) :
    Tallies extensions unread (fates.add extensions definition) (loading.add extensions cleanUp definition) := by
  apply ((tallies.reserve _).make_way cleanUp definition).install
  intro other live
  simpa using (List.mem_filter.mp live).2

theorem add_all [SuppliedDefinition δ] (tallies : Tallies extensions unread fates loading) (cleanUp : CleanUp)
    (definitions : List δ) : Tallies extensions unread (definitions.foldl (Fates.add extensions) fates)
      (definitions.foldl (Loading.add extensions cleanUp) loading) := by
  induction definitions generalizing fates loading with
  | nil => exact tallies
  | cons definition others ih => exact ih (tallies.add cleanUp definition)

theorem ids_perm (tallies : Tallies extensions unread fates loading) :
    loading.shelf.catalog.ids.Perm (fates.live.map Definition.id) := by
  have distinct : loading.shelf.catalog.ids.Nodup := loading.shelf.catalog.entries.keys_ascending.imp UInt32.ne_of_lt
  rw [List.perm_ext_iff_of_nodup distinct tallies.distinct]
  intro id
  rw [Catalog.mem_ids, Catalog.isLive_iff, List.mem_map]
  constructor
  · intro held
    obtain ⟨entry, found⟩ := held
    exact tallies.stored found
  · intro held
    obtain ⟨definition, live, rfl⟩ := held
    obtain ⟨entry, found, _⟩ := tallies.live definition live
    exact ⟨entry, found⟩

theorem size_eq (tallies : Tallies extensions unread fates loading) : loading.shelf.catalog.size = fates.live.length := by
  have lengths := tallies.ids_perm.length_eq
  rwa [Catalog.ids, SortedMap.keys, List.length_map, List.length_map] at lengths

end Tallies

theorem start_tallies (extensions : Extensions) (ids : IdCounter) (archive : Archive) (storage : ResultStorage) :
    Tallies extensions [] Fates.none (start ids archive storage : Loading δ γ) where
  consistent := Catalog.consistent_empty
  live _ member := absurd member List.not_mem_nil
  stored found := by cases found
  distinct := List.nodup_nil
  loaded := rfl
  replaced := rfl
  skipped := ⟨[], rfl, rfl⟩

theorem note_skipped_tallies (extensions : Extensions) (ids : IdCounter) (archive : Archive) (storage : ResultStorage)
    (skipped : List Skipped) :
    Tallies extensions skipped Fates.none ((start ids archive storage : Loading δ γ).noteSkipped skipped) := by
  have reserved : ∀ (reserved : List UInt32) {loading : Loading δ γ}, Tallies extensions [] Fates.none loading →
      Tallies extensions [] Fates.none (reserved.foldl reserveThrough loading) := by
    intro reserved
    induction reserved with
    | nil => exact id
    | cons id others ih => exact fun tallies => ih (tallies.reserve id)
  have tallies := reserved (skipped.filterMap Skipped.id) (start_tallies extensions ids archive storage)
  obtain ⟨failed, nothing, places⟩ := tallies.skipped
  rw [List.map_eq_nil_iff.mp places] at nothing
  exact ⟨tallies.consistent, tallies.live, tallies.stored, tallies.distinct, tallies.loaded, tallies.replaced,
    [], by simp [noteSkipped, nothing], rfl⟩

def ForeignFile (δ : Type) {γ : Type} [Definition δ γ] (name : String) : Prop :=
  DefinitionKind.IsDefinitionName name ∧ ∀ id, name ≠ (Definition.kind δ).fileName id

omit [LawfulDefinition δ γ] in
theorem make_way_keeps (cleanUp : CleanUp) (definition : δ) (loading : Loading δ γ) :
    Archive.Keeps (ForeignFile δ) loading.shelf.archive (loading.makeWay cleanUp definition).shelf.archive := by
  simp only [makeWay]
  split
  · exact Archive.keeps_all _ _
  next earlier _ =>
    split
    · exact Archive.keeps_all _ _
    · exact (loading.shelf.remove_keeps earlier).mono fun _ kept => ⟨kept.1, kept.2 earlier⟩

omit [LawfulDefinition δ γ] in
@[simp] theorem install_archive (extensions : Extensions) (definition : δ) (loading : Loading δ γ) :
    (loading.install extensions definition).shelf.archive = loading.shelf.archive := by
  simp only [install]
  split <;> rfl

omit [LawfulDefinition δ γ] in
theorem add_all_keeps (extensions : Extensions) (cleanUp : CleanUp) (definitions : List δ) (loading : Loading δ γ) :
    Archive.Keeps (ForeignFile δ) loading.shelf.archive
      (definitions.foldl (add extensions cleanUp) loading).shelf.archive := by
  induction definitions generalizing loading with
  | nil => exact Archive.keeps_all _ _
  | cons definition others ih =>
      have first : Archive.Keeps (ForeignFile δ) loading.shelf.archive
          (loading.add extensions cleanUp definition).shelf.archive := by
        rw [add, install_archive]
        exact make_way_keeps cleanUp _ (loading.reserveThrough _)
      exact first.trans (ih _)

structure Ledger (extensions : Extensions) (archive : Archive) (listing : Listing δ) (loading : Loading δ γ) : Prop where
  tallies : Tallies extensions listing.skipped (Fates.ofDefinitions extensions listing.definitions) loading
  archive : Archive.Keeps (ForeignFile δ) archive loading.shelf.archive

theorem of_archive_ledger [SuppliedDefinition δ] (extensions : Extensions) (cleanUp : CleanUp) (ids : IdCounter)
    (storage : ResultStorage) {archive : Archive} {directory : Directory} (durable : archive.isDurable = true)
    (present : archive.disk = .present directory) :
    ∃ loading : Loading δ γ, ofArchive extensions cleanUp ids archive storage = .ok loading ∧
      Ledger extensions archive (Listing.ofDirectory directory : Listing δ) loading := by
  refine ⟨_, bind_of_ok _ (Archive.list_present durable present),
    (note_skipped_tallies extensions ids archive storage _).add_all cleanUp _, ?_⟩
  have kept := add_all_keeps extensions cleanUp (Listing.ofDirectory directory : Listing δ).definitions
    ((start ids archive storage).noteSkipped (Listing.ofDirectory directory : Listing δ).skipped)
  rwa [note_skipped_archive] at kept

end Loading
end DocumentViews
