import DocumentViews.Proofs.Archive.Listing

set_option autoImplicit false

namespace DocumentViews

open DefinitionKind (IsDefinitionName)

-- The names with the extension of a kind. A name that begins with its only dot has none.
def DefinitionKind.HasExtension (kind : DefinitionKind) (name : String) : Prop :=
  ∃ stem, stem ≠ "" ∧ name = stem ++ "." ++ kind.fileExtension

theorem DefinitionFile.of_node_iff {kind : DefinitionKind} {name : String} {node : Node} :
    (∃ file, ofNode? kind.fileExtension (name, node) = some file) ↔ kind.HasExtension name := by
  constructor
  · rintro ⟨file, found⟩
    simp only [ofNode?] at found
    split at found
    next => cases found
    next stem extension split =>
      split at found
      next same =>
        have parts := split_extension_parts split
        refine ⟨String.ofList stem, fun none => split_extension_stem split ?_, String.toList_inj.mp ?_⟩
        · simpa using congrArg String.toList none
        · rw [parts, same]
          simp
      next => cases found
  · rintro ⟨stem, some, rfl⟩
    have present : stem.toList ≠ [] := fun none => some (String.toList_inj.mp none)
    have whole : stem ++ "." ++ kind.fileExtension = String.ofList (stem.toList ++ '.' :: kind.fileExtension.toList) := by
      apply String.toList_inj.mp
      simp
    have split := split_extension_append present kind.extension_no_dot
    simp only [ofNode?, whole, split, if_true]
    exact ⟨_, rfl⟩

section Kind

variable {δ γ : Type} [Definition δ γ]

namespace Listing

theorem files_iff {kind : DefinitionKind} {directory : Directory} {name : String} {node : Node} :
    (∃ id, ⟨name, id, node⟩ ∈ files kind directory) ↔ directory.get? name = some node ∧ kind.HasExtension name := by
  constructor
  · rintro ⟨id, listed⟩
    obtain ⟨held, found⟩ := mem_files_iff.mp listed
    exact ⟨held, DefinitionFile.of_node_iff.mp ⟨_, found⟩⟩
  · rintro ⟨held, extension⟩
    obtain ⟨file, found⟩ : ∃ file, DefinitionFile.ofNode? kind.fileExtension (name, node) = some file :=
      DefinitionFile.of_node_iff.mpr extension
    obtain ⟨rfl, rfl⟩ := Prod.mk.inj (DefinitionFile.of_node_entry found)
    exact ⟨file.id, mem_files_iff.mpr ⟨held, found⟩⟩

theorem of_files_perm (files : List DefinitionFile) :
    ((ofFiles files : Listing δ).definitions.map Except.ok ++ (ofFiles files : Listing δ).skipped.map Except.error).Perm
      (files.map DefinitionFile.read) := by
  induction files with
  | nil => exact .nil
  | cons file rest ih =>
      rw [ofFiles, List.map_cons]
      cases (file.read : Except Skipped δ) with
      | ok definition => exact ih.cons _
      | error skipped => exact List.perm_middle.trans (ih.cons _)

-- Every entry with the extension of the kind is accounted for once: its definition is among
-- those that were read, or it is skipped under its name.
structure Reports (directory : Directory) (listing : Listing δ) : Prop where
  ascending : listing.definitions.Pairwise fun one other => Definition.id one ≤ Definition.id other
  entries : ∀ name node, (∃ id, ⟨name, id, node⟩ ∈ files (Definition.kind δ) directory) ↔
    directory.get? name = some node ∧ (Definition.kind δ).HasExtension name
  distinct : ((files (Definition.kind δ) directory).map DefinitionFile.name).Nodup
  accounted : (listing.definitions.map Except.ok ++ listing.skipped.map Except.error).Perm
    ((files (Definition.kind δ) directory).map DefinitionFile.read)
  own_name : ∀ file ∈ files (Definition.kind δ) directory, ∀ skipped, (file.read : Except Skipped δ) = .error skipped →
    skipped.file = file.name

theorem of_directory_reports (directory : Directory) : (ofDirectory directory : Listing δ).Reports directory where
  ascending := definitions_sorted directory
  entries _ _ := files_iff
  distinct := file_names_distinct _ directory
  accounted := (((List.mergeSort_perm _ _).map _).append_right _).trans (of_files_perm _)
  own_name _ _ _ unread := (DefinitionFile.read_skipped unread).2

end Listing

namespace Archive

def KeepsOthers (kind : DefinitionKind) (id : UInt32) (before after : Archive) : Prop :=
  Keeps (fun name => IsDefinitionName name ∧ name ≠ kind.fileName id) before after

-- How the files and what is done to them correspond to a map from ids to definitions.
structure MapsFiles (δ : Type) {γ : Type} [Definition δ γ] (archive : Archive) : Prop where
  listed : ∀ {directory}, archive.disk = .present directory →
    ∃ listing : Listing δ, archive.list = .ok listing ∧ listing.Reports directory
  nothing : archive.disk = .absent → archive.list = .ok (.empty : Listing δ)
  blocked : archive.disk = .blocked →
    (archive.list : Except DefinitionError (Listing δ)) = .error (.persistence RegistrySettings.definitionsName)
  written : ∀ definition : δ, (archive.write definition).1 = .ok () →
    (Blank.isBlankText (Definition.name definition) = false → ∃ later file,
      (archive.write definition).2.disk = .present later ∧
        file.name = (Definition.kind δ).fileName (Definition.id definition) ∧ Listing.Holds later file definition) ∧
    KeepsOthers (Definition.kind δ) (Definition.id definition) archive (archive.write definition).2
  write_failed : ∀ (definition : δ) (error : DefinitionError), (archive.write definition).1 = .error error →
    Keeps IsDefinitionName archive (archive.write definition).2
  deleted : ∀ id, (archive.delete (Definition.kind δ) id).1 = .ok () →
    (archive.delete (Definition.kind δ) id).2.disk.get? ((Definition.kind δ).fileName id) = none ∧
      KeepsOthers (Definition.kind δ) id archive (archive.delete (Definition.kind δ) id).2
  delete_failed : ∀ (id : UInt32) (error : DefinitionError), (archive.delete (Definition.kind δ) id).1 = .error error →
    Keeps IsDefinitionName archive (archive.delete (Definition.kind δ) id).2

structure KeepsNothing (δ : Type) {γ : Type} [Definition δ γ] (archive : Archive) : Prop where
  listed : archive.list = .ok (.empty : Listing δ)
  written : ∀ definition : δ, archive.write definition = (.ok (), archive)
  deleted : ∀ id, archive.delete (Definition.kind δ) id = (.ok (), archive)

theorem write_file_error {archive : Archive} {name content : String} {error : DefinitionError}
    (failed : (archive.writeFile name content).1 = .error error) :
    Keeps IsDefinitionName archive (archive.writeFile name content).2 := by
  simp only [writeFile] at failed ⊢
  split
  next => exact keeps_all _ _
  next durable =>
    rw [if_neg durable] at failed
    split
    next => exact keeps_all _ _
    next written wrote =>
      obtain ⟨present, files⟩ := write_text_spec wrote
      split
      next => exact keeps_disk archive (fun _ => present) fun named => files _ (definition_name_ne_temporary named name)
      next placed renamed =>
        rw [wrote] at failed
        dsimp only at failed
        rw [renamed] at failed
        cases failed

theorem delete_error {archive : Archive} {kind : DefinitionKind} {id : UInt32} {error : DefinitionError}
    (failed : (archive.delete kind id).1 = .error error) : (archive.delete kind id).2 = archive := by
  simp only [delete] at failed ⊢
  split
  next => rfl
  next durable =>
    rw [if_neg durable] at failed
    split
    next => rfl
    next removed gone =>
      rw [gone] at failed
      cases failed

variable [LawfulDefinition δ γ]

theorem write_holds {archive : Archive} (durable : archive.isDurable = true) {definition : δ}
    (named : Blank.isBlankText (Definition.name definition) = false) (done : (archive.write definition).1 = .ok ()) :
    ∃ later file, (archive.write definition).2.disk = .present later ∧
      file.name = (Definition.kind δ).fileName (Definition.id definition) ∧ Listing.Holds later file definition := by
  have content : (archive.write definition).2.disk.get? ((Definition.kind δ).fileName (Definition.id definition)) =
      some (.text (Definition.toValue definition).pretty) := write_file_done durable done
  cases disk : (archive.write definition).2.disk with
  | absent =>
      rw [disk] at content
      cases content
  | blocked =>
      rw [disk] at content
      cases content
  | present later =>
      rw [disk] at content
      refine ⟨later, ⟨_, some (Definition.id definition), .text (Definition.toValue definition).pretty⟩, rfl, rfl, ?_, ?_⟩
      · exact Listing.mem_files_iff.mpr ⟨content, DefinitionFile.of_node_written _ _ _⟩
      · exact DefinitionFile.read_written rfl named

theorem maps_files (disk : Disk) : MapsFiles δ ⟨true, disk⟩ where
  listed {directory} present := ⟨.ofDirectory directory, list_present rfl present, Listing.of_directory_reports directory⟩
  nothing absent := by
    subst absent
    rfl
  blocked blocked := by
    subst blocked
    rfl
  written definition done := by
    refine ⟨fun named => write_holds rfl named done, ?_⟩
    exact (write_file_keeps _ _ _).mono fun name kept => ⟨kept.2, definition_name_ne_temporary kept.1 _⟩
  write_failed definition error failed := write_file_error failed
  deleted id done := ⟨delete_done rfl done, (delete_keeps _ _ id).mono fun name kept => kept.2⟩
  delete_failed id error failed := by
    rw [delete_error failed]
    exact keeps_all _ _

omit [LawfulDefinition δ γ] in
theorem keeps_nothing (disk : Disk) : KeepsNothing δ ⟨false, disk⟩ where
  listed := rfl
  written _ := rfl
  deleted _ := rfl

/-- Whatever a directory looks like, and also where writing or deleting fails, an archive behaves as a map from its files to the
definitions of either kind. One that is kept in memory leaves the files alone. -/
theorem archive_maps_files (disk : Disk) :
    MapsFiles IndexDefinition ⟨true, disk⟩ ∧ MapsFiles TransformerDefinition ⟨true, disk⟩ ∧
      KeepsNothing IndexDefinition ⟨false, disk⟩ ∧ KeepsNothing TransformerDefinition ⟨false, disk⟩ :=
  ⟨maps_files disk, maps_files disk, keeps_nothing disk, keeps_nothing disk⟩

end Archive
end Kind
end DocumentViews
