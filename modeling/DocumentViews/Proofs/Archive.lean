import DocumentViews.Archive
import DocumentViews.Proofs.Directory

set_option autoImplicit false

namespace DocumentViews

namespace DefinitionKind

-- The files that tell of the definitions of a kind: the list of them, and all with the
-- extension of the kind.
def Concerns (kind : DefinitionKind) (name : String) : Prop :=
  name = kind.listingFile ∨ ∃ stem, name = stem ++ "." ++ kind.fileExtension

theorem concerns_file (kind : DefinitionKind) (id : UInt32) : kind.Concerns (kind.fileName id) := .inr ⟨_, rfl⟩

theorem file_name_inj (kind : DefinitionKind) {one other : UInt32} (same : kind.fileName one = kind.fileName other) :
    one = other := by
  have stems := String.toList_inj.mpr same
  simp only [fileName, String.toList_append, List.append_cancel_right_eq, Nat.toString_eq_repr, Nat.toList_repr] at stems
  have numbers := congrArg (Nat.ofDigitChars 10 · 0) stems
  simp only [Nat.ofDigitChars_ten_toDigits] at numbers
  exact UInt32.toNat_inj.mp numbers

def ending : DefinitionKind → Char
  | index => 'x'
  | transformer => 'm'

theorem last_of_extension (kind : DefinitionKind) (stem : String) :
    (stem ++ "." ++ kind.fileExtension).toList.getLast? = some kind.ending := by
  cases kind <;> simp [fileExtension, ending, List.getLast?_append]

theorem last_of_listing (kind : DefinitionKind) : kind.listingFile.toList.getLast? = some 't' := by
  cases kind <;> rfl

theorem last_of_temporary (name : String) : (Archive.temporaryName name).toList.getLast? = some 'p' := by
  simp [Archive.temporaryName, List.getLast?_append]

theorem ending_ne_listing (kind : DefinitionKind) : kind.ending ≠ 't' := by cases kind <;> decide

theorem listing_ne_file (kind : DefinitionKind) (stem : String) : kind.listingFile ≠ stem ++ "." ++ kind.fileExtension := by
  intro same
  have last := last_of_extension kind stem
  rw [← same, last_of_listing] at last
  exact kind.ending_ne_listing (Option.some.inj last).symm

theorem listing_ne_file_name (kind : DefinitionKind) (id : UInt32) : kind.listingFile ≠ kind.fileName id :=
  kind.listing_ne_file (toString id.toNat)

theorem concerns_one_kind {kind other : DefinitionKind} (different : kind ≠ other) {name : String}
    (concerned : kind.Concerns name) : ¬ other.Concerns name := by
  have endings : kind.ending ≠ other.ending := by
    cases kind <;> cases other <;> first | exact absurd rfl different | decide
  have listings : kind.listingFile ≠ other.listingFile := by
    cases kind <;> cases other <;> first | exact absurd rfl different | decide
  rcases concerned with rfl | ⟨stem, rfl⟩
  · rintro (same | ⟨later, same⟩)
    · exact listings same
    · have last := last_of_extension other later
      rw [← same, last_of_listing] at last
      exact other.ending_ne_listing (Option.some.inj last).symm
  · have last := last_of_extension kind stem
    rintro (same | ⟨later, same⟩)
    · rw [same, last_of_listing] at last
      exact kind.ending_ne_listing (Option.some.inj last).symm
    · rw [same, last_of_extension] at last
      exact endings (Option.some.inj last).symm

theorem file_name_of_other {kind other : DefinitionKind} (different : kind ≠ other) (stem : String) (id : UInt32) :
    stem ++ "." ++ kind.fileExtension ≠ other.fileName id := by
  intro same
  have concerned : kind.Concerns (stem ++ "." ++ kind.fileExtension) := .inr ⟨stem, rfl⟩
  rw [same] at concerned
  exact concerns_one_kind different concerned (other.concerns_file id)

theorem temporary_unconcerned (kind : DefinitionKind) (name : String) : ¬ kind.Concerns (Archive.temporaryName name) := by
  rintro (same | ⟨stem, same⟩)
  · have last := last_of_listing kind
    rw [← same, last_of_temporary] at last
    exact absurd last (by decide)
  · have last := last_of_extension kind stem
    rw [← same, last_of_temporary] at last
    cases kind <;> exact absurd last (by decide)

def IsDefinitionName (name : String) : Prop := ∃ (kind : DefinitionKind) (stem : String), name = stem ++ "." ++ kind.fileExtension

theorem definition_name_ne_listing {name : String} (holds : IsDefinitionName name) (kind : DefinitionKind) :
    name ≠ kind.listingFile ∧ name ≠ Archive.temporaryName kind.listingFile := by
  obtain ⟨other, stem, rfl⟩ := holds
  have last := last_of_extension other stem
  constructor
  · intro same
    rw [same, last_of_listing] at last
    exact other.ending_ne_listing (Option.some.inj last).symm
  · intro same
    exact other.temporary_unconcerned kind.listingFile (same ▸ .inr ⟨stem, rfl⟩)

end DefinitionKind

namespace Archive

theorem temporary_ne (name : String) : temporaryName name ≠ name := by
  intro same
  have lengths := congrArg String.length same
  rw [temporaryName, String.length_append] at lengths
  have : ".tmp".length = 4 := rfl
  omega

structure Writable (archive : Archive) : Prop where
  durable : archive.isDurable = true
  present : ∃ directory, archive.disk = .present directory
  no_folder : ∀ name, archive.disk.get? name ≠ some .folder

theorem writable_empty : Writable ⟨true, .present .empty⟩ :=
  ⟨rfl, ⟨_, rfl⟩, fun name => by simp [Disk.get?, Disk.directory?, Directory.get?, Directory.empty]⟩

theorem write_file_spec {archive : Archive} (writable : archive.Writable) (name content : String) :
    (archive.writeFile name content).1 = .ok () ∧ (archive.writeFile name content).2.Writable ∧
      ∀ other, (archive.writeFile name content).2.disk.get? other =
        if other = name then some (.text content)
        else if other = temporaryName name then none
        else archive.disk.get? other := by
  obtain ⟨isDurable, disk⟩ := archive
  obtain ⟨durable, ⟨directory, present⟩, noFolder⟩ := writable
  dsimp only at durable present noFolder
  subst durable
  subst present
  have noFolderThere : ∀ other, directory.get? other ≠ some .folder := noFolder
  -- The text goes to the temporary file, which then takes the place of the named one.
  have written : (Disk.present directory).writeText? (temporaryName name) content =
      some (.present (directory.put (temporaryName name) (.text content))) := by
    rw [Disk.writeText?, if_neg (noFolderThere _)]
  have placed : (Disk.present (directory.put (temporaryName name) (.text content))).rename? (temporaryName name) name =
      some (.present (((directory.put (temporaryName name) (.text content)).erase (temporaryName name)).put name
        (.text content))) := by
    simp [Disk.rename?, (temporary_ne name).symm, noFolderThere]
  have result : (⟨true, .present directory⟩ : Archive).writeFile name content = (.ok (), ⟨true, .present
      (((directory.put (temporaryName name) (.text content)).erase (temporaryName name)).put name (.text content))⟩) := by
    simp [writeFile, written, placed]
  have found : ∀ other, ((⟨true, .present directory⟩ : Archive).writeFile name content).2.disk.get? other =
      if other = name then some (.text content)
      else if other = temporaryName name then none
      else directory.get? other := by
    intro other
    rw [result]
    change Directory.get? _ other = _
    rw [Directory.get_put, Directory.get_erase, Directory.get_put]
    split
    · rfl
    · split <;> rfl
  refine ⟨by rw [result], ⟨by rw [result], ⟨_, by rw [result]⟩, fun other => ?_⟩, found⟩
  rw [found]
  split
  · simp
  · split
    · simp
    · exact noFolderThere other

theorem delete_spec {archive : Archive} (writable : archive.Writable) (kind : DefinitionKind) (id : UInt32) :
    (archive.delete kind id).1 = .ok () ∧ (archive.delete kind id).2.Writable ∧
      ∀ other, (archive.delete kind id).2.disk.get? other =
        if other = kind.fileName id then none else archive.disk.get? other := by
  obtain ⟨isDurable, disk⟩ := archive
  obtain ⟨durable, ⟨directory, present⟩, noFolder⟩ := writable
  dsimp only at durable present noFolder
  subst durable
  subst present
  have noFolderThere : ∀ other, directory.get? other ≠ some .folder := noFolder
  have result : (⟨true, .present directory⟩ : Archive).delete kind id =
      (.ok (), ⟨true, .present (directory.erase (kind.fileName id))⟩) := by
    simp [delete, Disk.removeFile?, noFolderThere]
  have found : ∀ other, ((⟨true, .present directory⟩ : Archive).delete kind id).2.disk.get? other =
      if other = kind.fileName id then none else directory.get? other := by
    intro other
    rw [result]
    exact Directory.get_erase directory _ other
  refine ⟨by rw [result], ⟨by rw [result], ⟨_, by rw [result]⟩, fun other => ?_⟩, found⟩
  rw [found]
  split
  · simp
  · exact noFolderThere other

theorem listed_after_list {archive : Archive} (writable : archive.Writable) (kind : DefinitionKind)
    (pairs : List (UInt32 × String)) :
    (archive.writeListing kind pairs).2.disk.get? kind.listingFile = some (.text (listingText pairs)) := by
  rw [writeListing, (write_file_spec writable _ _).2.2, if_pos rfl]

theorem listed_after_write {δ γ : Type} [Definition δ γ] {archive : Archive} (writable : archive.Writable) (definition : δ) :
    (archive.write definition).2.disk.get? (Definition.kind δ).listingFile =
      archive.disk.get? (Definition.kind δ).listingFile := by
  rw [write, (write_file_spec writable _ _).2.2, if_neg ((Definition.kind δ).listing_ne_file_name _), if_neg]
  intro temporary
  exact (Definition.kind δ).temporary_unconcerned _ (.inl temporary.symm)

theorem listed_after_delete {archive : Archive} (writable : archive.Writable) (kind : DefinitionKind) (id : UInt32) :
    (archive.delete kind id).2.disk.get? kind.listingFile = archive.disk.get? kind.listingFile := by
  rw [(delete_spec writable _ _).2.2, if_neg (kind.listing_ne_file_name id)]

def AgreesOn (kind : DefinitionKind) (before after : Archive) : Prop :=
  ∀ name, kind.Concerns name → after.disk.get? name = before.disk.get? name

theorem agrees_on_write_file {archive : Archive} (writable : archive.Writable) {kind other : DefinitionKind}
    (different : kind ≠ other) {name : String} (concerned : kind.Concerns name) (content : String) :
    AgreesOn other archive (archive.writeFile name content).2 := by
  intro file concernsOther
  rw [(write_file_spec writable name content).2.2, if_neg, if_neg]
  · rintro rfl
    exact other.temporary_unconcerned name concernsOther
  · rintro rfl
    exact DefinitionKind.concerns_one_kind different concerned concernsOther

theorem agrees_on_delete {archive : Archive} (writable : archive.Writable) {kind other : DefinitionKind}
    (different : kind ≠ other) (id : UInt32) : AgreesOn other archive (archive.delete kind id).2 := by
  intro file concernsOther
  rw [(delete_spec writable kind id).2.2, if_neg]
  rintro rfl
  exact DefinitionKind.concerns_one_kind different (kind.concerns_file id) concernsOther

theorem AgreesOn.trans {kind : DefinitionKind} {one other last : Archive} (first : AgreesOn kind one other)
    (second : AgreesOn kind other last) : AgreesOn kind one last :=
  fun name concerned => (second name concerned).trans (first name concerned)

-- What stays of the files, also where a folder stands in the way of some change.
structure Keeps (kept : String → Prop) (before after : Archive) : Prop where
  durable : after.isDurable = before.isDurable
  present : ∀ {directory : Directory}, before.disk = .present directory → ∃ later, after.disk = .present later
  files : ∀ {name : String}, kept name → after.disk.get? name = before.disk.get? name

section Keeping

variable {kept fewer : String → Prop} {one other last : Archive}

theorem keeps_all (kept : String → Prop) (archive : Archive) : Keeps kept archive archive :=
  ⟨rfl, fun present => ⟨_, present⟩, fun _ => rfl⟩

theorem Keeps.mono (keeps : Keeps kept one other) (fewerKept : ∀ name, fewer name → kept name) :
    Keeps fewer one other :=
  ⟨keeps.durable, keeps.present, fun {name} keptThere => keeps.files (fewerKept name keptThere)⟩

theorem Keeps.trans (first : Keeps kept one other) (second : Keeps kept other last) : Keeps kept one last where
  durable := second.durable.trans first.durable
  present present := by
    obtain ⟨between, presentThere⟩ := first.present present
    exact second.present presentThere
  files keptThere := (second.files keptThere).trans (first.files keptThere)

theorem keeps_disk {disk : Disk} (archive : Archive)
    (present : ∀ {directory : Directory}, archive.disk = .present directory → ∃ later, disk = .present later)
    (files : ∀ {name : String}, kept name → disk.get? name = archive.disk.get? name) :
    Keeps kept archive { archive with disk } :=
  ⟨rfl, present, files⟩

theorem write_text_spec {disk written : Disk} {name content : String} (done : disk.writeText? name content = some written) :
    (∃ directory, written = .present directory) ∧ ∀ other, other ≠ name → written.get? other = disk.get? other := by
  cases disk with
  | absent => cases done
  | blocked => cases done
  | present directory =>
      simp only [Disk.writeText?] at done
      split at done
      · cases done
      · cases done
        refine ⟨⟨_, rfl⟩, fun other different => ?_⟩
        exact (Directory.get_put directory name other _).trans (if_neg different)

theorem rename_spec {disk placed : Disk} {source target : String} (done : disk.rename? source target = some placed) :
    (∃ directory, placed = .present directory) ∧
      ∀ other, other ≠ source → other ≠ target → placed.get? other = disk.get? other := by
  cases disk with
  | absent => cases done
  | blocked => cases done
  | present directory =>
      simp only [Disk.rename?] at done
      split at done
      · cases done
      · split at done
        · cases done
        · cases done
          refine ⟨⟨_, rfl⟩, fun other notSource notTarget => ?_⟩
          change Directory.get? _ other = directory.get? other
          rw [Directory.get_put, if_neg notTarget, Directory.get_erase, if_neg notSource]

theorem write_file_keeps (archive : Archive) (name content : String) :
    Keeps (fun other => other ≠ name ∧ other ≠ temporaryName name) archive (archive.writeFile name content).2 := by
  simp only [writeFile]
  split
  · exact keeps_all _ _
  · split
    · exact keeps_all _ _
    next written wrote =>
      obtain ⟨present, files⟩ := write_text_spec wrote
      split
      · exact keeps_disk archive (fun _ => present) fun kept => files _ kept.2
      next placed renamed =>
        obtain ⟨presentThere, filesThere⟩ := rename_spec renamed
        exact keeps_disk archive (fun _ => presentThere) fun kept =>
          (filesThere _ kept.2 kept.1).trans (files _ kept.2)

theorem delete_keeps (archive : Archive) (kind : DefinitionKind) (id : UInt32) :
    Keeps (fun other => other ≠ kind.fileName id) archive (archive.delete kind id).2 := by
  simp only [delete]
  split
  · exact keeps_all _ _
  · split
    · exact keeps_all _ _
    next disk removed =>
      cases here : archive.disk with
      | absent =>
          rw [here] at removed
          cases removed
          exact keeps_disk archive (fun present => ⟨_, here ▸ present⟩) fun _ => by rw [here]
      | blocked =>
          rw [here] at removed
          cases removed
      | present directory =>
          rw [here, Disk.removeFile?] at removed
          split at removed
          · cases removed
          · cases removed
            refine keeps_disk archive (fun _ => ⟨_, rfl⟩) fun {name} kept => ?_
            rw [here]
            exact (Directory.get_erase directory _ name).trans (if_neg kept)

end Keeping

theorem write_text_content {disk written : Disk} {name content : String} (done : disk.writeText? name content = some written) :
    written.get? name = some (.text content) := by
  cases disk with
  | absent => cases done
  | blocked => cases done
  | present directory =>
      simp only [Disk.writeText?] at done
      split at done
      · cases done
      · cases done
        exact (Directory.get_put directory name name _).trans (if_pos rfl)

theorem rename_content {disk placed : Disk} {source target : String} (done : disk.rename? source target = some placed) :
    placed.get? target = disk.get? source := by
  cases disk with
  | absent => cases done
  | blocked => cases done
  | present directory =>
      simp only [Disk.rename?] at done
      split at done
      · cases done
      next node found =>
        split at done
        · cases done
        · cases done
          change Directory.get? _ target = directory.get? source
          rw [Directory.get_put, if_pos rfl, found]

theorem write_file_content (archive : Archive) (name content : String) :
    (archive.writeFile name content).2.disk.get? name = archive.disk.get? name ∨
      (archive.writeFile name content).2.disk.get? name = some (.text content) := by
  simp only [writeFile]
  split
  · exact .inl rfl
  · split
    · exact .inl rfl
    next written wrote =>
      split
      · exact .inl ((write_text_spec wrote).2 name (temporary_ne name).symm)
      next placed renamed => exact .inr ((rename_content renamed).trans (write_text_content wrote))

theorem remove_file_content {disk removed : Disk} {name : String} (done : disk.removeFile? name = some removed) :
    removed.get? name = none := by
  cases disk with
  | absent =>
      cases done
      rfl
  | blocked => cases done
  | present directory =>
      simp only [Disk.removeFile?] at done
      split at done
      · cases done
      · cases done
        exact (Directory.get_erase directory name name).trans (if_pos rfl)

theorem delete_content (archive : Archive) (kind : DefinitionKind) (id : UInt32) :
    (archive.delete kind id).2.disk.get? (kind.fileName id) = archive.disk.get? (kind.fileName id) ∨
      (archive.delete kind id).2.disk.get? (kind.fileName id) = none := by
  simp only [delete]
  split
  · exact .inl rfl
  · split
    · exact .inl rfl
    next removed done => exact .inr (remove_file_content done)

theorem delete_done {archive : Archive} {kind : DefinitionKind} {id : UInt32} (durable : archive.isDurable = true)
    (done : (archive.delete kind id).1 = .ok ()) : (archive.delete kind id).2.disk.get? (kind.fileName id) = none := by
  simp only [delete, durable, Bool.not_true, Bool.false_eq_true, if_false] at done ⊢
  split at done
  · cases done
  next removed gone => exact remove_file_content gone

theorem write_file_done {archive : Archive} {name content : String} (durable : archive.isDurable = true)
    (done : (archive.writeFile name content).1 = .ok ()) :
    (archive.writeFile name content).2.disk.get? name = some (.text content) := by
  simp only [writeFile, durable, Bool.not_true, Bool.false_eq_true, if_false] at done ⊢
  split at done
  next => cases done
  next written wrote =>
    split at done
    next => cases done
    next placed renamed => exact (rename_content renamed).trans (write_text_content wrote)

theorem definition_name_ne_temporary {name : String} (named : DefinitionKind.IsDefinitionName name) (other : String) :
    name ≠ temporaryName other := by
  obtain ⟨kind, stem, rfl⟩ := named
  intro same
  exact kind.temporary_unconcerned other (same ▸ .inr ⟨stem, rfl⟩)

section Reading

variable {δ γ : Type} [Definition δ γ] {archive : Archive} {settings : RegistrySettings} {disk : Disk}
  {directory : Directory}

theorem list_present (durable : archive.isDurable = true) (present : archive.disk = .present directory) :
    (archive.list : Except DefinitionError (Listing δ)) = .ok (.ofDirectory directory) := by
  rw [list, durable, present]
  rfl

theorem list_in_memory (inMemory : archive.isDurable = false) :
    (archive.list : Except DefinitionError (Listing δ)) = .ok .empty := by
  rw [list, inMemory]
  rfl

omit [Definition δ γ] in
theorem open_present (durable : settings.runInMemory = false) (present : disk.withDirectory? = some (.present directory)) :
    openOn settings disk = .ok ⟨true, .present directory⟩ := by
  rw [openOn, durable, present]
  rfl

end Reading

end Archive
end DocumentViews
