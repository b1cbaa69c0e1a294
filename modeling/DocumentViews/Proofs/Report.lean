import DocumentViews.Proofs.Salvage
import DocumentViews.Proofs.Tally

set_option autoImplicit false

namespace DocumentViews

open Listing (Holds IdsDistinct)

namespace LoadReport

def skippedOf (kind : DefinitionKind) (report : LoadReport) : List Skipped :=
  report.skipped.filter fun skipped => skipped.kind == kind

def replacedOf (kind : DefinitionKind) (report : LoadReport) : List Replaced :=
  report.replaced.filter fun replaced => replaced.kind == kind

def skipsOf (kind : DefinitionKind) (file : String) (report : LoadReport) : List Skipped :=
  (report.skippedOf kind).filter fun skipped => skipped.file == file

def removalsOf (kind : DefinitionKind) (id : UInt32) (report : LoadReport) : List Replaced :=
  (report.replacedOf kind).filter fun replaced => replaced.removedId == id

end LoadReport

variable {δ γ : Type} [Definition δ γ]

def Catalog.IsLoaded (extensions : Extensions) (catalog : Catalog δ γ) (definition : δ) : Prop :=
  ∃ generator, Definition.compile extensions (Definition.prepare definition) = .ok generator ∧
    catalog.get? (.id (Definition.id definition)) = some (Definition.fill (Definition.prepare definition) generator)

inductive Accounted (live : δ → Prop) (report : LoadReport) (file : DefinitionFile) (definition : δ) : Prop
  | live : live definition → report.removalsOf (Definition.kind δ) (Definition.id definition) = [] →
      report.skipsOf (Definition.kind δ) file.name = [] → Accounted live report file definition
  | removed {replaced : Replaced} : ¬ live definition →
      report.removalsOf (Definition.kind δ) (Definition.id definition) = [replaced] →
        report.skipsOf (Definition.kind δ) file.name = [] → Accounted live report file definition
  | skipped {skipped : Skipped} : ¬ live definition →
      report.removalsOf (Definition.kind δ) (Definition.id definition) = [] →
        report.skipsOf (Definition.kind δ) file.name = [skipped] → skipped.id = some (Definition.id definition) →
          Accounted live report file definition

inductive AccountsFor (live : δ → Prop) (report : LoadReport) (file : DefinitionFile) : Prop
  | read {definition : δ} : file.read = .ok definition → Accounted live report file definition →
      AccountsFor live report file
  | unread {skipped : Skipped} : (file.read : Except Skipped δ) = .error skipped →
      report.skipsOf (Definition.kind δ) file.name = [skipped] → AccountsFor live report file

theorem AccountsFor.accounted {live : δ → Prop} {report : LoadReport} {file : DefinitionFile} {definition : δ}
    (accounts : AccountsFor live report file) (found : file.read = .ok definition) : Accounted live report file definition := by
  cases accounts with
  | read foundThere accounted =>
      rw [found] at foundThere
      cases foundThere
      exact accounted
  | unread unread _ =>
      rw [found] at unread
      cases unread

structure IsExact (extensions : Extensions) (directory : Directory) (loaded : Nat) (report : LoadReport)
    (catalog : Catalog δ γ) : Prop where
  counted : loaded = catalog.size
  accounted : ∀ file ∈ Listing.files (Definition.kind δ) directory, AccountsFor (catalog.IsLoaded extensions) report file

def FailuresNamed (δ : Type) {γ : Type} [Definition δ γ] (extensions : Extensions) (directory : Directory) : Prop :=
  ∀ {file : DefinitionFile} {definition : δ}, Holds directory file definition → ¬ Compiles extensions definition →
    file.name = (Definition.kind δ).fileName (Definition.id definition)

namespace Listing

theorem skipped_of_file {directory : Directory} {file : DefinitionFile}
    (listed : file ∈ files (Definition.kind δ) directory) :
    (ofDirectory directory : Listing δ).skipped.filter (fun skipped => skipped.file == file.name) =
      (file.unread? δ).toList := by
  have alone := filter_distinct (file_names_distinct (Definition.kind δ) directory) listed
  -- A skipped file is reported under its own name.
  have own : ∀ other : DefinitionFile, (other.unread? δ).filter (fun skipped => skipped.file == file.name) =
      if other.name == file.name then other.unread? δ else none := by
    intro other
    rw [DefinitionFile.unread?]
    cases read : (other.read : Except Skipped δ) with
    | ok definition => simp
    | error skipped => simp [Option.filter, (DefinitionFile.read_skipped read).2]
  rw [ofDirectory, of_files_skipped, List.filter_filterMap]
  simp only [own]
  rw [← List.filterMap_filter, alone, List.filterMap_cons, List.filterMap_nil]
  cases file.unread? δ <;> rfl

theorem files_eq {kind : DefinitionKind} {directory : Directory} {found : List DefinitionFile}
    (entries : directory.entries.filterMap (DefinitionFile.ofNode? kind.fileExtension) = found)
    (ranked : found.Pairwise fun one other => one.rank ≤ other.rank) : files kind directory = found := by
  rw [files, entries]
  exact List.mergeSort_of_pairwise (ranked.imp fun less => decide_eq_true less)

theorem of_directory_eq {directory : Directory} {definitions : List δ}
    (read : List.Forall₂ (fun file definition => file.read = .ok definition) (files (Definition.kind δ) directory) definitions)
    (sorted : definitions.Pairwise fun one other => Definition.id one ≤ Definition.id other) :
    (ofDirectory directory : Listing δ) = ⟨definitions, []⟩ := by
  rw [ofDirectory, of_files_read read]
  dsimp only
  rw [List.mergeSort_of_pairwise (sorted.imp fun less => decide_eq_true less)]

theorem skipped_kind (directory : Directory) :
    ∀ skipped ∈ (ofDirectory directory : Listing δ).skipped, skipped.kind = Definition.kind δ := by
  intro skipped member
  rw [ofDirectory, of_files_skipped, List.mem_filterMap] at member
  obtain ⟨file, _, unread⟩ := member
  rw [DefinitionFile.unread?] at unread
  split at unread
  · cases unread
  next found =>
    cases unread
    exact (DefinitionFile.read_skipped found).1

theorem files_perm {kind : DefinitionKind} {directory later : Directory}
    (agree : ∀ stem : String, later.get? (stem ++ "." ++ kind.fileExtension) =
      directory.get? (stem ++ "." ++ kind.fileExtension)) : (files kind later).Perm (files kind directory) :=
  (List.perm_ext_iff_of_nodup (file_names_distinct kind later).of_map (file_names_distinct kind directory).of_map).mpr
    (mem_files_congr agree)

theorem definitions_perm {directory later : Directory}
    (agree : ∀ stem : String, later.get? (stem ++ "." ++ (Definition.kind δ).fileExtension) =
      directory.get? (stem ++ "." ++ (Definition.kind δ).fileExtension)) :
    (ofDirectory later : Listing δ).definitions.Perm (ofDirectory directory : Listing δ).definitions := by
  rw [ofDirectory, ofDirectory, of_files_definitions, of_files_definitions]
  exact (List.mergeSort_perm _ _).trans (((files_perm agree).filterMap _).trans (List.mergeSort_perm _ _).symm)

theorem skipped_perm {directory later : Directory}
    (agree : ∀ stem : String, later.get? (stem ++ "." ++ (Definition.kind δ).fileExtension) =
      directory.get? (stem ++ "." ++ (Definition.kind δ).fileExtension)) :
    (ofDirectory later : Listing δ).skipped.Perm (ofDirectory directory : Listing δ).skipped := by
  rw [ofDirectory, ofDirectory, of_files_skipped, of_files_skipped]
  exact (files_perm agree).filterMap _

end Listing

structure LoadReport.Tells (report : LoadReport) (loading : Loading δ γ) : Prop where
  skipped : report.skippedOf (Definition.kind δ) = loading.skipped
  replaced : report.replacedOf (Definition.kind δ) = loading.replaced

namespace Loading.Tallies

variable [LawfulDefinition δ γ] {extensions : Extensions} {unread : List Skipped} {fates : Fates δ} {loading : Loading δ γ}
  {report : LoadReport}

theorem removals_of (tallies : Tallies extensions unread fates loading) (tells : report.Tells loading) (id : UInt32) :
    (report.removalsOf (Definition.kind δ) id).map Replaced.removed =
      (fates.removed.filter (Fates.hasId id)).map fun definition => (Definition.kind δ, Definition.id definition) := by
  have filtered := congrArg (List.filter fun removed => removed.2 == id) tallies.replaced
  rw [List.filter_map, List.filter_map] at filtered
  rw [LoadReport.removalsOf, tells.replaced]
  exact filtered

theorem skips_of (tallies : Tallies extensions unread fates loading) (tells : report.Tells loading) (file : String) :
    ∃ failed, report.skipsOf (Definition.kind δ) file = (unread.filter fun skipped => skipped.file == file) ++ failed ∧
      failed.map Skipped.place =
        (fates.failed.filter fun definition => (Definition.kind δ).fileName (Definition.id definition) == file).map
          fun definition =>
            (Definition.kind δ, (Definition.kind δ).fileName (Definition.id definition), some (Definition.id definition)) := by
  obtain ⟨failed, skipped, places⟩ := tallies.skipped
  have filtered := congrArg (List.filter fun place => place.2.1 == file) places
  rw [List.filter_map, List.filter_map] at filtered
  refine ⟨failed.filter fun skipped => skipped.file == file, ?_, filtered⟩
  rw [LoadReport.skipsOf, tells.skipped, skipped, List.filter_append]

end Loading.Tallies

abbrev Fates.ofDirectory (extensions : Extensions) (directory : Directory) : Fates δ :=
  ofDefinitions extensions (Listing.ofDirectory directory : Listing δ).definitions

namespace Fates

variable {extensions : Extensions} {directory : Directory} {definition other : δ}

theorem mem_all_iff (extensions : Extensions) (directory : Directory) (definition : δ) :
    definition ∈ (ofDirectory extensions directory).all ↔ Listing.Readable directory definition := by
  rw [(of_definitions_all extensions _).mem_iff, Listing.mem_definitions_iff]

theorem all_distinct (extensions : Extensions) (distinct : IdsDistinct δ directory) :
    ((ofDirectory extensions directory : Fates δ).all.map Definition.id).Nodup := by
  rw [((of_definitions_all extensions _).map _).nodup_iff]
  exact List.pairwise_map.mpr (Listing.definitions_distinct distinct)

theorem one_of_id (distinct : IdsDistinct δ directory) (member : definition ∈ (ofDirectory extensions directory).all)
    (otherMember : other ∈ (ofDirectory extensions directory).all) (same : Definition.id definition = Definition.id other) :
    definition = other :=
  List.inj_on_of_nodup_map (all_distinct extensions distinct) member otherMember same

theorem filter_present (distinct : IdsDistinct δ directory) {part : List δ}
    (among : part.Sublist (ofDirectory extensions directory).all) (present : definition ∈ part) :
    part.filter (hasId (Definition.id definition)) = [definition] :=
  filter_distinct ((all_distinct extensions distinct).sublist (among.map _)) present

theorem filter_absent (distinct : IdsDistinct δ directory) {part : List δ}
    (among : part.Sublist (ofDirectory extensions directory).all) (member : definition ∈ (ofDirectory extensions directory).all)
    (absent : definition ∉ part) : part.filter (hasId (Definition.id definition)) = [] := by
  refine List.filter_eq_nil_iff.mpr fun other there same => absent ?_
  rwa [← one_of_id distinct (among.subset there) member (eq_of_beq same)]

theorem live_sublist (fates : Fates δ) : fates.live.Sublist fates.all := by
  simp [all, List.append_assoc]

theorem removed_sublist (fates : Fates δ) : fates.removed.Sublist fates.all := by
  rw [all, List.append_assoc, List.append_assoc]
  exact (List.sublist_append_left _ _).trans (List.sublist_append_right _ _)

theorem failed_sublist (fates : Fates δ) : fates.failed.Sublist fates.all := by
  rw [all]
  exact (List.sublist_append_right _ _).trans (List.sublist_append_left _ _)

-- What a definition of a directory can have become where no two are of one id.
inductive Fate (extensions : Extensions) (directory : Directory) (definition : δ) : Prop
  | live : Compiles extensions definition → definition ∈ (ofDirectory extensions directory).live →
      definition ∉ (ofDirectory extensions directory).removed → definition ∉ (ofDirectory extensions directory).failed →
        Fate extensions directory definition
  | removed : Compiles extensions definition → definition ∉ (ofDirectory extensions directory).live →
      definition ∈ (ofDirectory extensions directory).removed → definition ∉ (ofDirectory extensions directory).failed →
        Fate extensions directory definition
  | failed : ¬ Compiles extensions definition → definition ∉ (ofDirectory extensions directory).live →
      definition ∉ (ofDirectory extensions directory).removed → definition ∈ (ofDirectory extensions directory).failed →
        Fate extensions directory definition

theorem fate_of_readable (extensions : Extensions) (distinct : IdsDistinct δ directory)
    (readable : Listing.Readable directory definition) : Fate extensions directory definition := by
  have ids : ((Listing.ofDirectory directory : Listing δ).definitions.map Definition.id).Nodup :=
    List.pairwise_map.mpr (Listing.definitions_distinct distinct)
  obtain ⟨spared, failing⟩ := distinct_fates extensions ids
  have compiling := installed_compiles extensions (Listing.ofDirectory directory : Listing δ).definitions
  have once : (ofDirectory extensions directory : Fates δ).all.Nodup := (all_distinct extensions distinct).of_map
  have member := (mem_all_iff extensions directory definition).mpr readable
  rw [all, spared, List.append_nil, List.nodup_append, List.nodup_append] at once
  rw [all, spared, List.append_nil, List.mem_append, List.mem_append] at member
  obtain ⟨⟨_, _, apart⟩, _, failedApart⟩ := once
  rcases member with (live | removed) | failed
  · exact .live (compiling _ (List.mem_append_left _ live)) live (fun there => apart _ live _ there rfl)
      fun there => failedApart _ (List.mem_append_left _ live) _ there rfl
  · exact .removed (compiling _ (List.mem_append_right _ removed)) (fun there => apart _ there _ removed rfl) removed
      fun there => failedApart _ (List.mem_append_right _ removed) _ there rfl
  · exact .failed (failing _ failed) (fun there => failedApart _ (List.mem_append_left _ there) _ failed rfl)
      (fun there => failedApart _ (List.mem_append_right _ there) _ failed rfl) failed

theorem failed_fails (distinct : IdsDistinct δ directory) (failed : definition ∈ (ofDirectory extensions directory).failed) :
    ¬ Compiles extensions definition :=
  (distinct_fates extensions (List.pairwise_map.mpr (Listing.definitions_distinct distinct))).2 definition failed

theorem failed_there {file : DefinitionFile} (named : FailuresNamed δ extensions directory) (distinct : IdsDistinct δ directory)
    (listed : file ∈ Listing.files (Definition.kind δ) directory)
    (failed : definition ∈ (ofDirectory extensions directory).failed)
    (there : (Definition.kind δ).fileName (Definition.id definition) = file.name) : Holds directory file definition := by
  obtain ⟨other, holds⟩ := (mem_all_iff extensions directory definition).mp ((failed_sublist _).subset failed)
  have own := named holds (failed_fails distinct failed)
  rwa [List.inj_on_of_nodup_map (Listing.file_names_distinct _ directory) listed holds.1 (there.symm.trans own.symm)]

end Fates

namespace Loading.Ledger

variable [LawfulDefinition δ γ] {extensions : Extensions} {archive : Archive} {directory : Directory} {loading : Loading δ γ}
  {report : LoadReport} {file : DefinitionFile} {definition : δ}

theorem is_loaded (ledger : Ledger extensions archive (Listing.ofDirectory directory) loading)
    (live : definition ∈ (Fates.ofDirectory extensions directory).live) :
    loading.shelf.catalog.IsLoaded extensions definition := by
  obtain ⟨entry, present, loaded⟩ := ledger.tallies.live definition live
  refine ⟨entry.generator, loaded.compiled, ?_⟩
  rw [Catalog.get?, Catalog.find_by_id, present, Option.map_some, loaded.filled]

theorem is_loaded_iff (ledger : Ledger extensions archive (Listing.ofDirectory directory) loading)
    (distinct : IdsDistinct δ directory) (readable : Listing.Readable directory definition) :
    loading.shelf.catalog.IsLoaded extensions definition ↔ definition ∈ (Fates.ofDirectory extensions directory).live := by
  constructor
  · intro loaded
    obtain ⟨generator, _, found⟩ := loaded
    obtain ⟨entry, present, _⟩ := Catalog.live_of_id found
    obtain ⟨other, live, own⟩ := ledger.tallies.stored present
    have member := (Fates.mem_all_iff extensions directory definition).mpr readable
    rwa [Fates.one_of_id distinct member ((Fates.live_sublist _).subset live) own.symm]
  · exact ledger.is_loaded

theorem removals_absent (ledger : Ledger extensions archive (Listing.ofDirectory directory) loading)
    (tells : report.Tells loading) (distinct : IdsDistinct δ directory) (readable : Listing.Readable directory definition)
    (absent : definition ∉ (Fates.ofDirectory extensions directory).removed) :
    report.removalsOf (Definition.kind δ) (Definition.id definition) = [] := by
  have member := (Fates.mem_all_iff extensions directory definition).mpr readable
  have removals := ledger.tallies.removals_of tells (Definition.id definition)
  rwa [Fates.filter_absent distinct (Fates.removed_sublist _) member absent, List.map_nil, List.map_eq_nil_iff] at removals

theorem removals_present (ledger : Ledger extensions archive (Listing.ofDirectory directory) loading)
    (tells : report.Tells loading) (distinct : IdsDistinct δ directory)
    (present : definition ∈ (Fates.ofDirectory extensions directory).removed) :
    ∃ replaced, report.removalsOf (Definition.kind δ) (Definition.id definition) = [replaced] := by
  have removals := ledger.tallies.removals_of tells (Definition.id definition)
  rw [Fates.filter_present distinct (Fates.removed_sublist _) present, List.map_singleton, List.map_eq_singleton_iff]
    at removals
  obtain ⟨replaced, one, _⟩ := removals
  exact ⟨replaced, one⟩

theorem skips_of_listed (ledger : Ledger extensions archive (Listing.ofDirectory directory) loading)
    (tells : report.Tells loading) (listed : file ∈ Listing.files (Definition.kind δ) directory) :
    ∃ failed, report.skipsOf (Definition.kind δ) file.name = (file.unread? δ).toList ++ failed ∧
      failed.map Skipped.place = ((Fates.ofDirectory extensions directory : Fates δ).failed.filter fun definition =>
        (Definition.kind δ).fileName (Definition.id definition) == file.name).map fun definition =>
          (Definition.kind δ, (Definition.kind δ).fileName (Definition.id definition), some (Definition.id definition)) := by
  have skips := ledger.tallies.skips_of tells file.name
  rwa [Listing.skipped_of_file listed] at skips

theorem skips_spared (ledger : Ledger extensions archive (Listing.ofDirectory directory) loading)
    (tells : report.Tells loading) (named : FailuresNamed δ extensions directory) (distinct : IdsDistinct δ directory)
    (listed : file ∈ Listing.files (Definition.kind δ) directory)
    (spared : ∀ definition : δ, Holds directory file definition →
      definition ∉ (Fates.ofDirectory extensions directory).failed) :
    report.skipsOf (Definition.kind δ) file.name = (file.unread? δ).toList := by
  obtain ⟨failed, skips, places⟩ := ledger.skips_of_listed tells listed
  have none : (Fates.ofDirectory extensions directory : Fates δ).failed.filter (fun definition =>
      (Definition.kind δ).fileName (Definition.id definition) == file.name) = [] := by
    refine List.filter_eq_nil_iff.mpr fun definition member there => ?_
    exact spared definition (Fates.failed_there named distinct listed member (eq_of_beq there)) member
  rw [none, List.map_nil, List.map_eq_nil_iff] at places
  rw [skips, places, List.append_nil]

theorem skips_failed (ledger : Ledger extensions archive (Listing.ofDirectory directory) loading)
    (tells : report.Tells loading) (named : FailuresNamed δ extensions directory) (distinct : IdsDistinct δ directory)
    (holds : Holds directory file definition) (failed : definition ∈ (Fates.ofDirectory extensions directory).failed) :
    ∃ skipped, report.skipsOf (Definition.kind δ) file.name = [skipped] ∧ skipped.id = some (Definition.id definition) := by
  obtain ⟨_, skips, places⟩ := ledger.skips_of_listed tells holds.1
  have own := named holds (Fates.failed_fails distinct failed)
  have alone : (Fates.ofDirectory extensions directory : Fates δ).failed.filter (fun definition =>
      (Definition.kind δ).fileName (Definition.id definition) == file.name) = [definition] := by
    rw [← Fates.filter_present distinct (Fates.failed_sublist _) failed]
    apply List.filter_congr
    intro other _
    rw [Bool.eq_iff_iff, beq_iff_eq, Fates.hasId, beq_iff_eq, own]
    exact ⟨fun same => DefinitionKind.file_name_inj _ same, congrArg _⟩
  rw [alone, List.map_singleton, List.map_eq_singleton_iff] at places
  obtain ⟨skipped, one, place⟩ := places
  refine ⟨skipped, ?_, congrArg (·.2.2) place⟩
  rw [skips, one, DefinitionFile.unread?, holds.2]
  rfl

theorem accounted (ledger : Ledger extensions archive (Listing.ofDirectory directory) loading)
    (tells : report.Tells loading) (named : FailuresNamed δ extensions directory) (distinct : IdsDistinct δ directory)
    (holds : Holds directory file definition) : Accounted (loading.shelf.catalog.IsLoaded extensions) report file definition := by
  have readable : Listing.Readable directory definition := ⟨file, holds⟩
  have unskipped : definition ∉ (Fates.ofDirectory extensions directory).failed →
      report.skipsOf (Definition.kind δ) file.name = [] := by
    intro spared
    rw [ledger.skips_spared tells named distinct holds.1 fun other otherHolds =>
      Except.ok.inj (holds.2.symm.trans otherHolds.2) ▸ spared, DefinitionFile.unread?, holds.2]
    rfl
  cases Fates.fate_of_readable extensions distinct readable with
  | live _ live notRemoved notFailed =>
      exact .live ((ledger.is_loaded_iff distinct readable).mpr live)
        (ledger.removals_absent tells distinct readable notRemoved) (unskipped notFailed)
  | removed _ notLive removed notFailed =>
      obtain ⟨_, removals⟩ := ledger.removals_present tells distinct removed
      exact .removed (mt (ledger.is_loaded_iff distinct readable).mp notLive) removals (unskipped notFailed)
  | failed _ notLive notRemoved failed =>
      obtain ⟨_, skips, own⟩ := ledger.skips_failed tells named distinct holds failed
      exact .skipped (mt (ledger.is_loaded_iff distinct readable).mp notLive)
        (ledger.removals_absent tells distinct readable notRemoved) skips own

theorem counted_iff (ledger : Ledger extensions archive (Listing.ofDirectory directory) loading) :
    loading.loaded = loading.shelf.catalog.size ↔
      Fates.FirstStays extensions (Listing.ofDirectory directory : Listing δ).definitions := by
  rw [← (Fates.of_definitions_first_live (Listing.definitions_sorted directory)).spared_iff, ledger.tallies.loaded,
    ledger.tallies.size_eq, ← List.length_eq_zero_iff]
  omega

theorem named_of_accounted (ledger : Ledger extensions archive (Listing.ofDirectory directory) loading)
    (tells : report.Tells loading) (distinct : IdsDistinct δ directory) (holds : Holds directory file definition)
    (fails : ¬ Compiles extensions definition)
    (accounted : Accounted (loading.shelf.catalog.IsLoaded extensions) report file definition) :
    file.name = (Definition.kind δ).fileName (Definition.id definition) := by
  have readable : Listing.Readable directory definition := ⟨file, holds⟩
  cases accounted with
  | live loaded _ _ =>
      obtain ⟨generator, compiled, _⟩ := loaded
      exact absurd ⟨generator, compiled⟩ fails
  | removed _ removals _ =>
      cases Fates.fate_of_readable extensions distinct readable with
      | live compiles _ _ _ => exact absurd compiles fails
      | removed compiles _ _ _ => exact absurd compiles fails
      | failed _ _ notRemoved _ =>
          rw [ledger.removals_absent tells distinct readable notRemoved] at removals
          cases removals
  | skipped _ _ skips own =>
      obtain ⟨failed, found, places⟩ := ledger.skips_of_listed tells holds.1
      rw [DefinitionFile.unread?, holds.2, skips] at found
      have place := places.symm
      rw [← (show _ = failed from found), List.map_singleton, List.map_eq_singleton_iff] at place
      obtain ⟨other, chosen, same⟩ := place
      have there := (List.mem_filter.mp (chosen ▸ List.mem_singleton_self other : other ∈ _)).2
      have id : some (Definition.id other) = some (Definition.id definition) := (congrArg (·.2.2) same).trans own
      rw [← Option.some.inj id]
      exact (eq_of_beq there).symm

theorem exact_iff (ledger : Ledger extensions archive (Listing.ofDirectory directory) loading)
    (tells : report.Tells loading) (distinct : IdsDistinct δ directory) :
    IsExact extensions directory loading.loaded report loading.shelf.catalog ↔ FailuresNamed δ extensions directory := by
  constructor
  · intro isExact file definition holds fails
    exact ledger.named_of_accounted tells distinct holds fails ((isExact.accounted file holds.1).accounted holds.2)
  · intro named
    refine ⟨?_, fun file listed => ?_⟩
    · have spared := (Fates.distinct_fates extensions
        (List.pairwise_map.mpr (Listing.definitions_distinct distinct))).1
      rw [ledger.tallies.loaded, ledger.tallies.size_eq, spared]
      rfl
    · cases read : (file.read : Except Skipped δ) with
      | ok definition => exact .read read (ledger.accounted tells named distinct ⟨listed, read⟩)
      | error skipped =>
          refine .unread read ?_
          have empty : ∀ definition : δ, ¬ Holds directory file definition := by
            intro definition holds
            rw [holds.2] at read
            cases read
          rw [ledger.skips_spared tells named distinct listed fun definition holds => absurd holds (empty definition),
            DefinitionFile.unread?, read]
          rfl

theorem skipped_kind (ledger : Ledger extensions archive (Listing.ofDirectory directory) loading) :
    ∀ skipped ∈ loading.skipped, skipped.kind = Definition.kind δ := by
  obtain ⟨failed, all, places⟩ := ledger.tallies.skipped
  intro skipped member
  rw [all] at member
  rcases List.mem_append.mp member with unread | there
  · exact Listing.skipped_kind directory skipped unread
  · have place := List.mem_map_of_mem (f := Skipped.place) there
    rw [places] at place
    obtain ⟨_, _, same⟩ := List.mem_map.mp place
    exact (congrArg Prod.fst same).symm

theorem replaced_kind (ledger : Ledger extensions archive (Listing.ofDirectory directory) loading) :
    ∀ replaced ∈ loading.replaced, replaced.kind = Definition.kind δ := by
  intro replaced member
  have removed := List.mem_map_of_mem (f := Replaced.removed) member
  rw [ledger.tallies.replaced] at removed
  obtain ⟨_, _, same⟩ := List.mem_map.mp removed
  exact (congrArg Prod.fst same).symm

end Loading.Ledger

section Kinds

variable {ρ : Type} {kindOf : ρ → DefinitionKind} {kind : DefinitionKind} {entries : List ρ}

theorem filter_own_kind (own : ∀ entry ∈ entries, kindOf entry = kind) :
    entries.filter (fun entry => kindOf entry == kind) = entries :=
  List.filter_eq_self.mpr fun entry member => beq_iff_eq.mpr (own entry member)

theorem filter_other_kind (other : ∀ entry ∈ entries, kindOf entry ≠ kind) :
    entries.filter (fun entry => kindOf entry == kind) = [] :=
  List.filter_eq_nil_iff.mpr fun entry member same => other entry member (eq_of_beq same)

end Kinds

namespace Fates

theorem first_stays_iff {extensions : Extensions} {definitions : List δ}
    (replaceable : ∀ definition : δ, Definition.isCompiled definition = false) :
    FirstStays extensions definitions ↔ ∀ id, (claims extensions definitions id).length ≤ 1 := by
  constructor
  · intro stays id
    cases claimed : claims extensions definitions id with
    | nil => simp
    | cons first others =>
        rcases stays claimed with none | fixed
        · simp [none]
        · rw [replaceable] at fixed
          cases fixed
  · intro single id first others claimed
    have length := single id
    rw [claimed, List.length_cons] at length
    exact .inl (List.eq_nil_of_length_eq_zero (by omega))

theorem first_stays_perm {extensions : Extensions} {definitions others : List δ}
    (replaceable : ∀ definition : δ, Definition.isCompiled definition = false) (perm : definitions.Perm others) :
    FirstStays extensions definitions ↔ FirstStays extensions others := by
  rw [first_stays_iff replaceable, first_stays_iff replaceable]
  exact forall_congr' fun id => by rw [claims, claims, (perm.filter _).length_eq]

end Fates

-- Each definition of a directory is live, or it was removed, or it failed, or it was overwritten. For those that were
-- removed or failed and for the files that could not be read the report has an entry each; those that were overwritten
-- are only counted.
structure Catalog.Settles (extensions : Extensions) (directory : Directory) (loaded : Nat) (report : LoadReport)
    (catalog : Catalog δ γ) (fates : Fates δ) : Prop where
  all : fates.all.Perm (Listing.ofDirectory directory : Listing δ).definitions
  live : ∀ definition ∈ fates.live, catalog.IsLoaded extensions definition
  ids : catalog.ids.Perm (fates.live.map Definition.id)
  removed : (report.replacedOf (Definition.kind δ)).map Replaced.removed =
    fates.removed.map fun definition => (Definition.kind δ, Definition.id definition)
  skipped : ∃ unread failed, report.skippedOf (Definition.kind δ) = unread ++ failed ∧
    unread.Perm (Listing.ofDirectory directory : Listing δ).skipped ∧
    failed.map Skipped.place = fates.failed.map fun definition =>
      (Definition.kind δ, (Definition.kind δ).fileName (Definition.id definition), some (Definition.id definition))
  counted : loaded = fates.live.length + fates.overwritten.length

-- What the report says of a kind, for whatever the directory holds. The count is exact as long as no definition is
-- overwritten by another one of its id; where no two share an id the report is exact if and only if the definitions that
-- fail are in the files that their ids name.
structure Catalog.Reported (extensions : Extensions) (directory : Directory) (loaded : Nat) (report : LoadReport)
    (catalog : Catalog δ γ) : Prop where
  settled : ∃ fates, catalog.Settles extensions directory loaded report fates
  counted_iff : loaded = catalog.size ↔
    Fates.FirstStays extensions (Listing.ofDirectory directory : Listing δ).definitions
  exact_iff : IdsDistinct δ directory →
    (IsExact extensions directory loaded report catalog ↔ FailuresNamed δ extensions directory)

theorem Loading.Ledger.settles [LawfulDefinition δ γ] {extensions : Extensions} {archive : Archive} {directory : Directory}
    {loading : Loading δ γ} {report : LoadReport}
    (ledger : Ledger extensions archive (Listing.ofDirectory directory) loading) (tells : report.Tells loading) :
    loading.shelf.catalog.clearNew.Settles extensions directory loading.loaded report
      (Fates.ofDirectory extensions directory) where
  all := Fates.of_definitions_all extensions _
  live _ live := ledger.is_loaded live
  ids := ledger.tallies.ids_perm
  removed := by rw [tells.replaced, ledger.tallies.replaced]
  skipped := by
    obtain ⟨failed, skipped, places⟩ := ledger.tallies.skipped
    exact ⟨_, failed, by rw [tells.skipped, skipped], .refl _, places⟩
  counted := ledger.tallies.loaded

def Catalog.Told [LawfulDefinition δ γ] (extensions : Extensions) (directory : Directory) (loaded : Nat)
    (report : LoadReport) (catalog : Catalog δ γ) : Prop :=
  ∃ (archive : Archive) (loading : Loading δ γ), loading.Ledger extensions archive (Listing.ofDirectory directory) ∧
    report.Tells loading ∧ loading.loaded = loaded ∧ loading.shelf.catalog.clearNew = catalog

theorem Catalog.Told.reported [LawfulDefinition δ γ] {extensions : Extensions} {directory : Directory} {loaded : Nat}
    {report : LoadReport} {catalog : Catalog δ γ} (told : catalog.Told extensions directory loaded report) :
    catalog.Reported extensions directory loaded report := by
  obtain ⟨archive, loading, ledger, tells, rfl, rfl⟩ := told
  -- Clearing the marks changes neither the number of definitions nor what they are.
  refine ⟨⟨_, ledger.settles tells⟩, ledger.counted_iff, fun distinct => ?_⟩
  rw [← ledger.exact_iff tells distinct]
  exact ⟨fun isExact => ⟨isExact.counted, isExact.accounted⟩, fun isExact => ⟨isExact.counted, isExact.accounted⟩⟩

theorem Catalog.Told.named_of_accounted [LawfulDefinition δ γ] {extensions : Extensions} {directory : Directory}
    {loaded : Nat} {report : LoadReport} {catalog : Catalog δ γ} (told : catalog.Told extensions directory loaded report)
    (distinct : IdsDistinct δ directory) {file : DefinitionFile} {definition : δ} (holds : Holds directory file definition)
    (fails : ¬ Compiles extensions definition) (accounts : AccountsFor (catalog.IsLoaded extensions) report file) :
    file.name = (Definition.kind δ).fileName (Definition.id definition) := by
  obtain ⟨archive, loading, ledger, tells, rfl, rfl⟩ := told
  exact ledger.named_of_accounted tells distinct holds fails (accounts.accounted holds.2)

theorem Catalog.Reported.congr {extensions : Extensions} {directory later : Directory} {loaded : Nat} {report : LoadReport}
    {catalog : Catalog δ γ} (replaceable : ∀ definition : δ, Definition.isCompiled definition = false)
    (agree : ∀ stem : String, later.get? (stem ++ "." ++ (Definition.kind δ).fileExtension) =
      directory.get? (stem ++ "." ++ (Definition.kind δ).fileExtension))
    (reported : catalog.Reported extensions later loaded report) : catalog.Reported extensions directory loaded report where
  settled := by
    obtain ⟨fates, settles⟩ := reported.settled
    obtain ⟨unread, failed, skipped, files, places⟩ := settles.skipped
    exact ⟨fates, settles.all.trans (Listing.definitions_perm agree), settles.live, settles.ids, settles.removed,
      ⟨unread, failed, skipped, files.trans (Listing.skipped_perm agree), places⟩, settles.counted⟩
  counted_iff := reported.counted_iff.trans (Fates.first_stays_perm replaceable (Listing.definitions_perm agree))
  exact_iff distinct := by
    have holds := Listing.holds_congr agree
    have distinctThere : IdsDistinct δ later := fun held otherHeld same =>
      distinct ((holds _ _).mp held) ((holds _ _).mp otherHeld) same
    have files := Listing.mem_files_congr agree
    calc IsExact extensions directory loaded report catalog
        ↔ IsExact extensions later loaded report catalog :=
          ⟨fun isExact => ⟨isExact.counted, fun file listed => isExact.accounted file ((files file).mp listed)⟩,
            fun isExact => ⟨isExact.counted, fun file listed => isExact.accounted file ((files file).mpr listed)⟩⟩
      _ ↔ FailuresNamed δ extensions later := reported.exact_iff distinctThere
      _ ↔ FailuresNamed δ extensions directory :=
          ⟨fun named _ _ held => named ((holds _ _).mpr held), fun named _ _ held => named ((holds _ _).mp held)⟩

namespace Registry

theorem open_on_told {settings : RegistrySettings} (durable : settings.runInMemory = false) (extensions : Extensions)
    (storage : ResultStorage) {disk : Disk} {directory : Directory} (present : disk.withDirectory? = some (.present directory)) :
    ∃ opened later, openOn settings extensions storage disk = .ok opened ∧
      opened.indexes.Told extensions directory opened.report.loadedIndexes opened.report ∧
      (∀ stem : String, later.get? (stem ++ "." ++ DefinitionKind.transformer.fileExtension) =
        directory.get? (stem ++ "." ++ DefinitionKind.transformer.fileExtension)) ∧
      opened.transformers.Told extensions later opened.report.loadedTransformers opened.report := by
  have archived := Archive.open_present durable present
  obtain ⟨indexes, indexesLoaded, indexLedger⟩ := Loading.of_archive_ledger (δ := IndexDefinition) extensions cleanUpIndex
    .initial storage (rfl : (⟨true, .present directory⟩ : Archive).isDurable = true) rfl
  obtain ⟨later, presentThere⟩ := indexLedger.archive.present rfl
  obtain ⟨transformers, transformersLoaded, transformerLedger⟩ := Loading.of_archive_ledger (δ := TransformerDefinition)
    extensions cleanUpTransformer indexes.shelf.ids indexes.storage indexLedger.archive.durable presentThere
  have agree : ∀ stem : String, later.get? (stem ++ "." ++ DefinitionKind.transformer.fileExtension) =
      directory.get? (stem ++ "." ++ DefinitionKind.transformer.fileExtension) := by
    intro stem
    have same := indexLedger.archive.files ⟨⟨.transformer, stem, rfl⟩, fun id =>
      DefinitionKind.file_name_of_other (by decide : DefinitionKind.transformer ≠ .index) stem id⟩
    rwa [presentThere] at same
  have transformerSkips := transformerLedger.skipped_kind
  have transformerRemovals := transformerLedger.replaced_kind
  have indexSkips := indexLedger.skipped_kind
  have indexRemovals := indexLedger.replaced_kind
  rw [openOn, bind_of_ok _ archived, bind_of_ok _ indexesLoaded, bind_of_ok _ transformersLoaded]
  refine ⟨_, later, rfl, ⟨_, indexes, indexLedger, ⟨?_, ?_⟩, rfl, rfl⟩, agree,
    ⟨_, transformers, transformerLedger, ⟨?_, ?_⟩, rfl, rfl⟩⟩
  · rw [LoadReport.skippedOf, List.filter_append, filter_own_kind indexSkips,
      filter_other_kind fun entry member => by rw [transformerSkips entry member]; decide, List.append_nil]
  · rw [LoadReport.replacedOf, List.filter_append, filter_own_kind indexRemovals,
      filter_other_kind fun entry member => by rw [transformerRemovals entry member]; decide, List.append_nil]
  · rw [LoadReport.skippedOf, List.filter_append, filter_own_kind transformerSkips,
      filter_other_kind fun entry member => by rw [indexSkips entry member]; decide, List.nil_append]
  · rw [LoadReport.replacedOf, List.filter_append, filter_own_kind transformerRemovals,
      filter_other_kind fun entry member => by rw [indexRemovals entry member]; decide, List.nil_append]

/-- After a directory was opened, whatever it holds, catalog and report show what became of each of its definitions, unless
it was overwritten. The number that the report gives for a kind is that of the live definitions exactly if none was
overwritten by another one of its id. Where no two files of the kind share an id, number and report are exact if and only if
each definition that does not compile is in the file that its id names. -/
theorem open_on_report_exact_iff {settings : RegistrySettings} (durable : settings.runInMemory = false)
    (extensions : Extensions) (storage : ResultStorage) {disk : Disk} {directory : Directory}
    (present : disk.withDirectory? = some (.present directory)) :
    ∃ opened, openOn settings extensions storage disk = .ok opened ∧
      opened.indexes.Reported extensions directory opened.report.loadedIndexes opened.report ∧
      opened.transformers.Reported extensions directory opened.report.loadedTransformers opened.report := by
  obtain ⟨opened, later, started, indexes, agree, transformers⟩ := open_on_told durable extensions storage present
  exact ⟨opened, started, indexes.reported, transformers.reported.congr (fun _ => rfl) agree⟩

theorem open_on_report_exact_replaced :
    let dogs := { IndexDefinition.ofSingleMap "Dogs" "from d in docs select new { d.Name }" with id := 1 }
    let newer := { dogs with id := 3, name := "DOGS" }
    let broken := { dogs with id := 2, name := "Cats", maps := ["oops"] }
    ∃ directory opened, directory.entries = Listing.written [dogs, broken, newer] ∧
      openOn .standard .builtins .empty (.present directory) = .ok opened ∧
      IsExact .builtins directory opened.report.loadedIndexes opened.report opened.indexes := by
  intro dogs newer broken
  have durable : RegistrySettings.standard.runInMemory = false := rfl
  let directory : Directory := ⟨Listing.written [dogs, broken, newer], by decide⟩
  have named : ∀ definition ∈ [dogs, broken, newer], Blank.isBlankText (Definition.name definition) = false := by decide
  obtain ⟨opened, started, indexes, _⟩ := open_on_report_exact_iff durable .builtins .empty
    (rfl : (Disk.present directory).withDirectory? = some (.present directory))
  have written : directory.entries = Listing.written [dogs, broken, newer] := rfl
  refine ⟨directory, opened, rfl, started, (indexes.exact_iff (Listing.orderly_written written named).distinct).mpr ?_⟩
  intro file definition holds _
  rw [((Listing.holds_written_iff written named file definition).mp holds).2]

-- Two files of one id: both are counted. A definition that fails under another file name: it is
-- reported for a file that is not there.
theorem open_on_report_misses :
    let index (name map : String) : IndexDefinition := { IndexDefinition.ofSingleMap name map with id := 2 }
    let text (definition : IndexDefinition) : Node := .text (Definition.toValue definition).pretty
    (∃ directory opened, directory.entries =
        [("1.index", text (index "A" "from d in docs select new \x7b d.X \x7d")),
          ("2.index", text (index "B" "from d in docs select new \x7b d.X \x7d"))] ∧
      openOn .standard .builtins .empty (.present directory) = .ok opened ∧
      opened.report.loadedIndexes ≠ opened.indexes.size) ∧
    ∃ directory opened file, directory.entries = [("a.index", text (index "A" "oops"))] ∧
      openOn .standard .builtins .empty (.present directory) = .ok opened ∧ file ∈ Listing.files .index directory ∧
      ¬ AccountsFor (opened.indexes.IsLoaded .builtins) opened.report file := by
  intro index text
  have durable : RegistrySettings.standard.runInMemory = false := rfl
  constructor
  · let one := index "A" "from d in docs select new \x7b d.X \x7d"
    let other := index "B" "from d in docs select new \x7b d.X \x7d"
    let directory : Directory := ⟨[("1.index", text one), ("2.index", text other)], by decide⟩
    obtain ⟨opened, _, started, indexes, _⟩ := open_on_told durable .builtins .empty
      (rfl : (Disk.present directory).withDirectory? = some (.present directory))
    have files : Listing.files .index directory = [⟨"1.index", some 1, text one⟩, ⟨"2.index", some 2, text other⟩] := by
      have ids : parseId? ['1'] = some 1 ∧ parseId? ['2'] = some 2 := by decide +kernel
      have parts : splitExtension "1.index" = some (['1'], DefinitionKind.index.fileExtension.toList) ∧
          splitExtension "2.index" = some (['2'], DefinitionKind.index.fileExtension.toList) := by decide +kernel
      exact Listing.files_eq (by simp [directory, DefinitionFile.ofNode?, parts, ids]) (by decide)
    have listing : Listing.ofDirectory directory = ⟨[one, other], []⟩ := by
      refine Listing.of_directory_eq ?_ (by decide)
      change List.Forall₂ _ (Listing.files .index directory) _
      rw [files]
      exact .cons (DefinitionFile.read_text rfl (by decide) (by decide))
        (.cons (DefinitionFile.read_text rfl (by decide) (by decide)) .nil)
    have claimed : Fates.claims .builtins (Listing.ofDirectory directory).definitions 2 = [one, other] := by
      rw [listing]
      decide +kernel
    refine ⟨directory, opened, rfl, started, fun counted => ?_⟩
    rcases indexes.reported.counted_iff.mp counted claimed with single | fixed
    · cases single
    · cases fixed
  · let broken := index "A" "oops"
    let directory : Directory := ⟨[("a.index", text broken)], by decide⟩
    obtain ⟨opened, _, started, indexes, _⟩ := open_on_told durable .builtins .empty
      (rfl : (Disk.present directory).withDirectory? = some (.present directory))
    have files : Listing.files .index directory = [⟨"a.index", none, text broken⟩] := by
      have id : parseId? ['a'] = none := by decide +kernel
      have parts : splitExtension "a.index" = some (['a'], DefinitionKind.index.fileExtension.toList) := by decide +kernel
      exact Listing.files_eq (by simp [directory, DefinitionFile.ofNode?, parts, id]) (List.pairwise_singleton _ _)
    have holds : Holds directory ⟨"a.index", none, text broken⟩ broken := by
      refine ⟨?_, DefinitionFile.read_text rfl (by decide) (by decide)⟩
      change _ ∈ Listing.files .index directory
      rw [files]
      exact List.mem_singleton_self _
    have distinct : IdsDistinct IndexDefinition directory := by
      intro file other definition another held otherHeld _
      have one : file ∈ Listing.files .index directory := held.1
      have two : other ∈ Listing.files .index directory := otherHeld.1
      rw [files] at one two
      rw [List.mem_singleton.mp one, List.mem_singleton.mp two]
    have failing : (Definition.compile .builtins (Definition.prepare broken)).isOk = false := by decide +kernel
    have fails : ¬ Compiles .builtins broken := by
      intro compiles
      rw [(Fates.is_ok_iff_compiles _ _).mpr compiles] at failing
      cases failing
    refine ⟨directory, opened, _, rfl, started, holds.1, fun accounted => ?_⟩
    exact absurd (indexes.named_of_accounted distinct holds fails accounted) (by decide +kernel)

end Registry
end DocumentViews
