import DocumentViews.Archive.Listing
import DocumentViews.Proofs.Archive
import DocumentViews.Proofs.Definition
import DocumentViews.Proofs.Sorting

set_option autoImplicit false

namespace DocumentViews

theorem split_extension_parts {name : String} {stem extension : List Char}
    (split : splitExtension name = some (stem, extension)) : name.toList = stem ++ '.' :: extension := by
  unfold splitExtension at split
  dsimp only at split
  split at split
  next dot char rest found =>
    cases split
    have isDot : dot = '.' := by
      have stopped := List.head?_dropWhile_not (fun char => decide (char ≠ '.')) name.toList.reverse
      rw [found] at stopped
      simpa using stopped
    have whole : name.toList.reverse.takeWhile (· ≠ '.') ++ name.toList.reverse.dropWhile (· ≠ '.') =
        name.toList.reverse := List.takeWhile_append_dropWhile
    rw [found, isDot] at whole
    have reversed := congrArg List.reverse whole
    simpa using reversed.symm
  next => cases split

theorem split_extension_stem {name : String} {stem extension : List Char}
    (split : splitExtension name = some (stem, extension)) : stem ≠ [] := by
  unfold splitExtension at split
  dsimp only at split
  split at split
  next =>
    cases split
    simp
  next => cases split

theorem split_extension_append {stem extension : List Char} (present : stem ≠ []) (noDot : '.' ∉ extension) :
    splitExtension (String.ofList (stem ++ '.' :: extension)) = some (stem, extension) := by
  have reversed : (String.ofList (stem ++ '.' :: extension)).toList.reverse = extension.reverse ++ '.' :: stem.reverse := by
    simp
  have allOther : ∀ char ∈ extension.reverse, decide (char ≠ '.') = true := by
    intro char member
    have other : char ≠ '.' := by
      rintro rfl
      exact noDot (List.mem_reverse.mp member)
    simpa using other
  obtain ⟨first, others, rest⟩ := List.exists_cons_of_ne_nil (List.reverse_ne_nil_iff.mpr present)
  simp only [splitExtension]
  simp only [reversed]
  rw [List.dropWhile_append_of_pos allOther, List.takeWhile_append_of_pos allOther, List.dropWhile_cons_of_neg (by simp),
    List.takeWhile_cons_of_neg (by simp), rest]
  simp [← rest]

theorem DefinitionKind.extension_no_dot (kind : DefinitionKind) : '.' ∉ kind.fileExtension.toList := by
  cases kind <;> decide

theorem written_id (id : UInt32) : (toString id.toNat).toList = Nat.toDigits 10 id.toNat := by
  rw [Nat.toString_eq_repr, Nat.toList_repr]

theorem parse_id_written (id : UInt32) : parseId? (toString id.toNat).toList = some id := by
  have allDigits : ∀ char ∈ Nat.toDigits 10 id.toNat, char.isDigit = true := fun char member =>
    Nat.isDigit_of_mem_toDigits (by decide) (by decide) member
  have number : Nat.ofDigitChars 10 (Nat.toDigits 10 id.toNat) 0 = id.toNat := Nat.ofDigitChars_ten_toDigits
  rw [written_id]
  obtain ⟨digit, others, split⟩ := List.exists_cons_of_ne_nil (Nat.toDigits_ne_nil (b := 10) (n := id.toNat))
  rw [split] at allDigits number ⊢
  have unsigned : digit ≠ '+' := by
    rintro rfl
    exact absurd (allDigits '+' (.head _)) (by decide)
  have digits : ((digit :: others).isEmpty || !(digit :: others).all Char.isDigit) = false := by
    simpa using allDigits
  have bound : id.toNat < UInt32.size := id.toNat_lt
  have body : ∀ text, text = digit :: others → (if text.isEmpty || !text.all Char.isDigit then none
      else if Nat.ofDigitChars 10 text 0 < UInt32.size then some (Nat.ofDigitChars 10 text 0).toUInt32 else none) =
        some id := by
    rintro text rfl
    rw [digits, if_neg Bool.false_ne_true, number, if_pos bound]
    simp
  simp only [parseId?]
  apply body _
  split
  next same => exact absurd (List.cons.inj same).1 unsigned
  next => rfl

namespace DefinitionFile

theorem of_node_extension {kind : DefinitionKind} {entry : String × Node} {file : DefinitionFile}
    (found : ofNode? kind.fileExtension entry = some file) :
    ∃ stem, entry.1 = stem ++ "." ++ kind.fileExtension := by
  simp only [ofNode?] at found
  split at found
  · cases found
  next stem extension split =>
    split at found
    next same =>
      have parts := split_extension_parts split
      refine ⟨String.ofList stem, String.toList_inj.mp ?_⟩
      rw [parts, same]
      simp
    · cases found

theorem of_node_entry {extension : String} {entry : String × Node} {file : DefinitionFile}
    (found : ofNode? extension entry = some file) : entry = (file.name, file.node) := by
  simp only [ofNode?] at found
  split at found
  · cases found
  · split at found
    · cases found
      rfl
    · cases found

theorem of_node_name {extension : String} {entry : String × Node} {file : DefinitionFile}
    (found : ofNode? extension entry = some file) : file.name = entry.1 :=
  (congrArg Prod.fst (of_node_entry found)).symm

theorem of_node_written (kind : DefinitionKind) (id : UInt32) (node : Node) :
    ofNode? kind.fileExtension (kind.fileName id, node) = some ⟨kind.fileName id, some id, node⟩ := by
  have name : kind.fileName id =
      String.ofList ((toString id.toNat).toList ++ '.' :: kind.fileExtension.toList) := by
    apply String.toList_inj.mp
    simp [DefinitionKind.fileName]
  have present : (toString id.toNat).toList ≠ [] := by
    rw [written_id]
    exact Nat.toDigits_ne_nil
  have split := split_extension_append present kind.extension_no_dot
  rw [← name] at split
  simp only [ofNode?, split, if_pos, parse_id_written]

variable {δ γ : Type} [Definition δ γ]

def unread? (δ : Type) {γ : Type} [Definition δ γ] (file : DefinitionFile) : Option Skipped :=
  match (file.read : Except Skipped δ) with
  | .ok _ => none
  | .error skipped => some skipped

theorem read_skipped {file : DefinitionFile} {skipped : Skipped} (unread : (file.read : Except Skipped δ) = .error skipped) :
    skipped.kind = Definition.kind δ ∧ skipped.file = file.name := by
  simp only [read] at unread
  split at unread
  · cases unread
    exact ⟨rfl, rfl⟩
  · split at unread
    · cases unread
      exact ⟨rfl, rfl⟩
    · split at unread
      · cases unread
        exact ⟨rfl, rfl⟩
      · cases unread

variable [LawfulDefinition δ γ]

theorem read_text {file : DefinitionFile} {stored : δ} (content : file.node = .text (Definition.toValue stored).pretty)
    (own : Definition.id stored ≠ 0) (named : Blank.isBlankText (Definition.name stored) = false) :
    file.read = .ok stored := by
  have decoded : Json.document Definition.reader (Definition.toValue stored).pretty = .ok stored :=
    Json.document_takes LawfulDefinition.round_trips stored
  simp only [read, content, Node.content?, decoded, named, identify, if_neg own]
  rfl

theorem read_written {id : UInt32} {stored : δ} (own : Definition.id stored = id)
    (named : Blank.isBlankText (Definition.name stored) = false) :
    (⟨(Definition.kind δ).fileName id, some id, .text (Definition.toValue stored).pretty⟩ : DefinitionFile).read =
      .ok stored := by
  have decoded : Json.document Definition.reader (Definition.toValue stored).pretty = .ok stored :=
    Json.document_takes LawfulDefinition.round_trips stored
  have identified : identify ⟨(Definition.kind δ).fileName id, some id, .text (Definition.toValue stored).pretty⟩ stored =
      stored := by
    simp only [identify]
    split
    · rw [← own]
      exact LawfulDefinition.withId_id stored
    · rfl
  simp only [read, Node.content?, decoded, named]
  rw [identified]
  rfl

theorem read_written_iff {stored definition : δ} :
    (⟨(Definition.kind δ).fileName (Definition.id stored), some (Definition.id stored),
      .text (Definition.toValue stored).pretty⟩ : DefinitionFile).read = .ok definition ↔
        Blank.isBlankText (Definition.name stored) = false ∧ stored = definition := by
  cases named : Blank.isBlankText (Definition.name stored) with
  | false =>
      rw [read_written rfl named]
      simp
  | true =>
      have decoded : Json.document Definition.reader (Definition.toValue stored).pretty = .ok stored :=
        Json.document_takes LawfulDefinition.round_trips stored
      simp [read, Node.content?, decoded, named]

end DefinitionFile

namespace Archive

variable {δ γ : Type} [Definition δ γ] [LawfulDefinition δ γ]

theorem write_decodes (definition : δ) : ∃ text,
    (∀ archive : Archive, archive.write definition =
      archive.writeFile ((Definition.kind δ).fileName (Definition.id definition)) text) ∧
    (∀ archive : Archive, archive.Writable → (archive.write definition).1 = .ok () ∧
      (archive.write definition).2.disk.get? ((Definition.kind δ).fileName (Definition.id definition)) = some (.text text)) ∧
    Json.document Definition.reader text = .ok definition := by
  refine ⟨(Definition.toValue definition).pretty, fun _ => rfl, fun archive writable => ?_,
    Json.document_takes LawfulDefinition.round_trips definition⟩
  obtain ⟨done, _, content⟩ := write_file_spec writable ((Definition.kind δ).fileName (Definition.id definition))
    (Definition.toValue definition).pretty
  exact ⟨done, (content _).trans (if_pos rfl)⟩

/-- A definition of either kind, whatever its fields hold, is written as one text, and its reader reads
that text as just this definition. It is the text that stands in the file of the definition after it was
written to a directory where no folder is in the way. -/
theorem written_definition_decodes :
    (∀ definition : IndexDefinition, ∃ text,
      (∀ archive : Archive, archive.write definition =
        archive.writeFile (DefinitionKind.index.fileName definition.id) text) ∧
      (∀ archive : Archive, archive.Writable → (archive.write definition).1 = .ok () ∧
        (archive.write definition).2.disk.get? (DefinitionKind.index.fileName definition.id) = some (.text text)) ∧
      Json.document IndexDefinition.reader text = .ok definition) ∧
    (∀ definition : TransformerDefinition, ∃ text,
      (∀ archive : Archive, archive.write definition =
        archive.writeFile (DefinitionKind.transformer.fileName definition.id) text) ∧
      (∀ archive : Archive, archive.Writable → (archive.write definition).1 = .ok () ∧
        (archive.write definition).2.disk.get? (DefinitionKind.transformer.fileName definition.id) = some (.text text)) ∧
      Json.document TransformerDefinition.reader text = .ok definition) :=
  ⟨fun definition => write_decodes definition, fun definition => write_decodes definition⟩

end Archive

namespace Listing

variable {δ γ : Type} [Definition δ γ]

theorem of_files_read {files : List DefinitionFile} {definitions : List δ}
    (read : List.Forall₂ (fun file definition => file.read = .ok definition) files definitions) :
    ofFiles files = ⟨definitions, []⟩ := by
  induction read with
  | nil => rfl
  | cons first _ ih =>
      simp only [ofFiles, first, ih]

theorem file_names_distinct (kind : DefinitionKind) (directory : Directory) :
    ((files kind directory).map DefinitionFile.name).Nodup := by
  have unsorted : (((directory.entries.filterMap (DefinitionFile.ofNode? kind.fileExtension)).map
      DefinitionFile.name)).Nodup := by
    refine List.pairwise_map.mpr (List.pairwise_filterMap.mpr ?_)
    apply (List.pairwise_map.mp directory.distinct).imp
    intro entry other different file found otherFile otherFound
    rw [DefinitionFile.of_node_name found, DefinitionFile.of_node_name otherFound]
    exact different
  exact ((List.mergeSort_perm _ _).map DefinitionFile.name).nodup_iff.mpr unsorted

theorem mem_files_iff {kind : DefinitionKind} {directory : Directory} {file : DefinitionFile} :
    file ∈ files kind directory ↔ directory.get? file.name = some file.node ∧
      DefinitionFile.ofNode? kind.fileExtension (file.name, file.node) = some file := by
  rw [files, List.mem_mergeSort, List.mem_filterMap]
  constructor
  · intro listed
    obtain ⟨entry, member, found⟩ := listed
    have parts := DefinitionFile.of_node_entry found
    subst parts
    exact ⟨(Directory.mem_entries_iff _ _ _).mp member, found⟩
  · intro listed
    exact ⟨_, (Directory.mem_entries_iff _ _ _).mpr listed.1, listed.2⟩

theorem file_of_name {kind : DefinitionKind} {directory : Directory} {file other : DefinitionFile}
    (listed : file ∈ files kind directory) (otherListed : other ∈ files kind directory) (same : file.name = other.name) :
    file = other := by
  obtain ⟨held, found⟩ := mem_files_iff.mp listed
  obtain ⟨otherHeld, otherFound⟩ := mem_files_iff.mp otherListed
  rw [same, otherHeld] at held
  rw [same, ← Option.some.inj held, otherFound] at found
  exact (Option.some.inj found).symm

theorem file_extension {kind : DefinitionKind} {directory : Directory} {file : DefinitionFile}
    (listed : file ∈ files kind directory) : ∃ stem, file.name = stem ++ "." ++ kind.fileExtension :=
  DefinitionFile.of_node_extension (mem_files_iff.mp listed).2

def Holds (directory : Directory) (file : DefinitionFile) (definition : δ) : Prop :=
  file ∈ files (Definition.kind δ) directory ∧ file.read = .ok definition

def Readable (directory : Directory) (definition : δ) : Prop := ∃ file, Holds directory file definition

theorem mem_files_congr {kind : DefinitionKind} {directory later : Directory}
    (agree : ∀ stem : String, later.get? (stem ++ "." ++ kind.fileExtension) =
      directory.get? (stem ++ "." ++ kind.fileExtension)) (file : DefinitionFile) :
    file ∈ files kind later ↔ file ∈ files kind directory := by
  rw [mem_files_iff, mem_files_iff]
  apply and_congr_left
  intro found
  obtain ⟨stem, name⟩ := DefinitionFile.of_node_extension found
  dsimp only at name
  rw [name, agree]

theorem holds_congr {directory later : Directory}
    (agree : ∀ stem : String, later.get? (stem ++ "." ++ (Definition.kind δ).fileExtension) =
      directory.get? (stem ++ "." ++ (Definition.kind δ).fileExtension)) (file : DefinitionFile) (definition : δ) :
    Holds later file definition ↔ Holds directory file definition := by
  rw [Holds, Holds, mem_files_congr agree]

theorem of_files_definitions (files : List DefinitionFile) : (ofFiles files : Listing δ).definitions =
    files.filterMap fun file => (file.read : Except Skipped δ).toOption := by
  induction files with
  | nil => rfl
  | cons file rest ih =>
      rw [ofFiles]
      cases read : (file.read : Except Skipped δ) with
      | error skipped => simp [read, Except.toOption, ih]
      | ok definition => simp [read, Except.toOption, ih]

theorem of_files_skipped (files : List DefinitionFile) : (ofFiles files : Listing δ).skipped =
    files.filterMap (DefinitionFile.unread? δ) := by
  induction files with
  | nil => rfl
  | cons file rest ih =>
      rw [ofFiles]
      cases read : (file.read : Except Skipped δ) with
      | error skipped => simp [DefinitionFile.unread?, read, ih]
      | ok definition => simp [DefinitionFile.unread?, read, ih]

theorem read_iff {file : DefinitionFile} {definition : δ} :
    (file.read : Except Skipped δ).toOption = some definition ↔ file.read = .ok definition := by
  cases (file.read : Except Skipped δ) <;> simp [Except.toOption]

theorem mem_definitions_iff {directory : Directory} {definition : δ} :
    definition ∈ (ofDirectory directory : Listing δ).definitions ↔ Readable directory definition := by
  rw [ofDirectory, List.mem_mergeSort, of_files_definitions, List.mem_filterMap]
  simp only [read_iff, Readable, Holds]

structure Orderly (δ : Type) {γ : Type} [Definition δ γ] (directory : Directory) : Prop where
  named : ∀ {file : DefinitionFile} {definition : δ}, Holds directory file definition →
    file.id = some (Definition.id definition)
  distinct : ∀ {file other : DefinitionFile} {definition another : δ}, Holds directory file definition →
    Holds directory other another → Definition.id definition = Definition.id another → file = other

theorem Orderly.congr {directory later : Directory} (orderly : Orderly δ directory)
    (holds : ∀ (file : DefinitionFile) (definition : δ), Holds later file definition ↔ Holds directory file definition) :
    Orderly δ later where
  named held := orderly.named ((holds _ _).mp held)
  distinct held otherHeld := orderly.distinct ((holds _ _).mp held) ((holds _ _).mp otherHeld)

def written (definitions : List δ) : List (String × Node) :=
  definitions.map fun definition =>
    ((Definition.kind δ).fileName (Definition.id definition), .text (Definition.toValue definition).pretty)

section Written

variable {directory : Directory} {definitions : List δ}

theorem orderly_other_kind {ε ζ : Type} [Definition ε ζ] (different : Definition.kind ε ≠ Definition.kind δ)
    (entries : directory.entries = written definitions) : Orderly ε directory := by
  have none : ∀ {file : DefinitionFile} {definition : ε}, ¬ Holds directory file definition := by
    intro file definition held
    obtain ⟨stem, name⟩ := file_extension held.1
    have there := (mem_files_iff.mp held.1).1
    rw [← Directory.mem_entries_iff, entries, written, List.mem_map] at there
    obtain ⟨stored, _, same⟩ := there
    have sameName := congrArg Prod.fst same
    dsimp only at sameName
    rw [name] at sameName
    exact DefinitionKind.file_name_of_other different stem _ sameName.symm
  exact ⟨fun held => absurd held none, fun held => absurd held none⟩

variable [LawfulDefinition δ γ]

theorem holds_written_iff (entries : directory.entries = written definitions)
    (named : ∀ definition ∈ definitions, Blank.isBlankText (Definition.name definition) = false) (file : DefinitionFile)
    (definition : δ) : Holds directory file definition ↔ definition ∈ definitions ∧
      file = ⟨(Definition.kind δ).fileName (Definition.id definition), some (Definition.id definition),
        .text (Definition.toValue definition).pretty⟩ := by
  rw [Holds, mem_files_iff, ← Directory.mem_entries_iff, entries, written, List.mem_map]
  constructor
  · intro held
    obtain ⟨⟨⟨stored, member, same⟩, found⟩, read⟩ := held
    rw [← same, DefinitionFile.of_node_written] at found
    have own := Option.some.inj found
    rw [← own, DefinitionFile.read_written rfl (named stored member)] at read
    cases read
    exact ⟨member, own.symm⟩
  · intro held
    obtain ⟨member, own⟩ := held
    rw [own]
    exact ⟨⟨⟨definition, member, rfl⟩, DefinitionFile.of_node_written _ _ _⟩,
      DefinitionFile.read_written rfl (named definition member)⟩

theorem readable_written_iff (entries : directory.entries = written definitions)
    (named : ∀ definition ∈ definitions, Blank.isBlankText (Definition.name definition) = false) (definition : δ) :
    Readable directory definition ↔ definition ∈ definitions := by
  simp only [Readable, holds_written_iff entries named]
  exact ⟨fun found => found.choose_spec.1, fun member => ⟨_, member, rfl⟩⟩

theorem orderly_written (entries : directory.entries = written definitions)
    (named : ∀ definition ∈ definitions, Blank.isBlankText (Definition.name definition) = false) :
    Orderly δ directory where
  named held := by
    rw [((holds_written_iff entries named _ _).mp held).2]
  distinct {file other definition another} held otherHeld same := by
    obtain ⟨_, own⟩ := (holds_written_iff entries named _ _).mp held
    obtain ⟨_, otherOwn⟩ := (holds_written_iff entries named _ _).mp otherHeld
    -- Of one name there is one file.
    have there := (mem_files_iff.mp held.1).1
    have otherThere := (mem_files_iff.mp otherHeld.1).1
    rw [own] at there
    rw [otherOwn, ← same, there] at otherThere
    have content : Node.text (Definition.toValue definition).pretty = Node.text (Definition.toValue another).pretty :=
      Option.some.inj otherThere
    rw [own, otherOwn, ← same, content]

end Written

def IdsDistinct (δ : Type) {γ : Type} [Definition δ γ] (directory : Directory) : Prop :=
  ∀ {file other : DefinitionFile} {definition another : δ}, Holds directory file definition →
    Holds directory other another → Definition.id definition = Definition.id another → file = other

theorem definitions_sorted (directory : Directory) : (ofDirectory directory : Listing δ).definitions.Pairwise
    fun one other => Definition.id one ≤ Definition.id other := sort_sorted Definition.id _

theorem definitions_distinct {directory : Directory} (distinct : IdsDistinct δ directory) :
    (ofDirectory directory : Listing δ).definitions.Pairwise
      fun one other => Definition.id one ≠ Definition.id other := by
  have unsorted : (ofFiles (files (Definition.kind δ) directory) : Listing δ).definitions.Pairwise
      fun one other => Definition.id one ≠ Definition.id other := by
    rw [of_files_definitions, List.pairwise_filterMap]
    apply (List.pairwise_map.mp (file_names_distinct (Definition.kind δ) directory)).imp_of_mem
    intro file other member otherMember different definition read another otherRead same
    have one := distinct ⟨member, read_iff.mp read⟩ ⟨otherMember, read_iff.mp otherRead⟩ same
    rw [one] at different
    exact different rfl
  exact ((List.mergeSort_perm _ _).pairwise_iff fun different => Ne.symm different).mpr unsorted

theorem definitions_ascending {directory : Directory} (orderly : Orderly δ directory) :
    (ofDirectory directory : Listing δ).definitions.Pairwise fun one other => Definition.id one < Definition.id other :=
  ((definitions_sorted directory).and (definitions_distinct orderly.distinct)).imp fun both =>
    UInt32.lt_of_le_of_ne both.1 both.2

end Listing
end DocumentViews
