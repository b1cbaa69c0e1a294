import DocumentViews.Proofs.Report
import DocumentViews.Proofs.Sorting

set_option autoImplicit false

namespace DocumentViews

variable {δ γ : Type} [Definition δ γ]

theorem DefinitionFile.unread_iff {file : DefinitionFile} {skipped : Skipped} :
    file.unread? δ = some skipped ↔ (file.read : Except Skipped δ) = .error skipped := by
  rw [unread?]
  cases (file.read : Except Skipped δ) <;> simp

namespace Listing

variable {directory later : Directory}

theorem files_sorted (kind : DefinitionKind) (directory : Directory) : Sorted DefinitionFile.rank (files kind directory) :=
  sort_sorted DefinitionFile.rank _

-- Of two files that are sorted alike both are skipped only if they are one, and both have
-- definitions of one id only if these are equal.
structure Untied (δ : Type) {γ : Type} [Definition δ γ] (directory : Directory) : Prop where
  skipped : ∀ {one other : DefinitionFile} {skip otherSkip : Skipped}, one ∈ files (Definition.kind δ) directory →
    other ∈ files (Definition.kind δ) directory → (one.read : Except Skipped δ) = .error skip →
    (other.read : Except Skipped δ) = .error otherSkip → one.rank = other.rank → one = other
  definitions : ∀ {one other : DefinitionFile} {definition another : δ}, Holds directory one definition →
    Holds directory other another → one.rank = other.rank → Definition.id definition = Definition.id another →
    definition = another

def unreadable (δ : Type) {γ : Type} [Definition δ γ] (directory : Directory) : List DefinitionFile :=
  (files (Definition.kind δ) directory).filter fun file => (file.unread? δ).isSome

theorem mem_unreadable {file : DefinitionFile} (member : file ∈ unreadable δ directory) :
    file ∈ files (Definition.kind δ) directory ∧ ∃ skip, (file.read : Except Skipped δ) = .error skip := by
  obtain ⟨listed, unread⟩ := List.mem_filter.mp member
  obtain ⟨skip, found⟩ := Option.isSome_iff_exists.mp unread
  exact ⟨listed, skip, DefinitionFile.unread_iff.mp found⟩

theorem unreadable_skipped (directory : Directory) :
    (ofDirectory directory : Listing δ).skipped = (unreadable δ directory).filterMap (DefinitionFile.unread? δ) := by
  rw [ofDirectory, of_files_skipped, unreadable, List.filterMap_filter]
  congr 1
  funext file
  cases file.unread? δ <;> rfl

def ranked (δ : Type) {γ : Type} [Definition δ γ] (directory : Directory) : List (UInt32 × δ) :=
  (files (Definition.kind δ) directory).filterMap fun file =>
    (file.read : Except Skipped δ).toOption.map fun definition => (file.rank, definition)

theorem mem_ranked {rank : UInt32} {definition : δ} (member : (rank, definition) ∈ ranked δ directory) :
    ∃ file, Holds directory file definition ∧ file.rank = rank := by
  obtain ⟨file, listed, found⟩ := List.mem_filterMap.mp member
  obtain ⟨held, read, same⟩ := Option.map_eq_some_iff.mp found
  cases same
  exact ⟨file, ⟨listed, read_iff.mp read⟩, rfl⟩

theorem ranked_definitions (directory : Directory) : (ranked δ directory).map Prod.snd =
    (ofFiles (files (Definition.kind δ) directory) : Listing δ).definitions := by
  rw [of_files_definitions, ranked, List.map_filterMap]
  congr 1
  funext file
  cases (file.read : Except Skipped δ).toOption <;> rfl

theorem ranked_sorted (directory : Directory) : Sorted Prod.fst (ranked δ directory) := by
  refine List.Pairwise.filterMap _ ?_ (files_sorted (Definition.kind δ) directory)
  intro file next less entry found nextEntry nextFound
  obtain ⟨_, _, rfl⟩ := Option.map_eq_some_iff.mp found
  obtain ⟨_, _, rfl⟩ := Option.map_eq_some_iff.mp nextFound
  exact less

theorem definitions_of_id (directory : Directory) (id : UInt32) :
    ofRank Definition.id id (ofDirectory directory : Listing δ).definitions =
      ofRank Definition.id id (ofFiles (files (Definition.kind δ) directory) : Listing δ).definitions :=
  sort_stable Definition.id _ id

section Agreeing

variable (agree : ∀ stem : String, later.get? (stem ++ "." ++ (Definition.kind δ).fileExtension) =
  directory.get? (stem ++ "." ++ (Definition.kind δ).fileExtension))

include agree

theorem skipped_untied (untied : Untied δ directory) :
    (ofDirectory later : Listing δ).skipped = (ofDirectory directory : Listing δ).skipped := by
  have perm : (unreadable δ later).Perm (unreadable δ directory) := (files_perm agree).filter _
  have same : unreadable δ later = unreadable δ directory := by
    refine perm.eq_of_pairwise ?_ ((files_sorted _ later).filter _) ((files_sorted _ directory).filter _)
    intro one other member otherMember less greater
    obtain ⟨listed, skip, unread⟩ := mem_unreadable (perm.mem_iff.mp member)
    obtain ⟨otherListed, otherSkip, otherUnread⟩ := mem_unreadable otherMember
    exact untied.skipped listed otherListed unread otherUnread (UInt32.le_antisymm less greater)
  rw [unreadable_skipped, unreadable_skipped, same]

theorem definitions_untied (untied : Untied δ directory) :
    (ofDirectory later : Listing δ).definitions = (ofDirectory directory : Listing δ).definitions := by
  have perm : (ranked δ later).Perm (ranked δ directory) := (files_perm agree).filterMap _
  have same : ∀ id, (ranked δ later).filter (fun entry => Definition.id entry.2 = id) =
      (ranked δ directory).filter fun entry => Definition.id entry.2 = id := by
    intro id
    refine (perm.filter _).eq_of_pairwise ?_ ((ranked_sorted later).filter _) ((ranked_sorted directory).filter _)
    intro one other member otherMember less greater
    obtain ⟨inLater, isId⟩ := List.mem_filter.mp member
    obtain ⟨inDirectory, isIdToo⟩ := List.mem_filter.mp otherMember
    obtain ⟨file, holds, rank⟩ := mem_ranked (perm.mem_iff.mp inLater)
    obtain ⟨otherFile, otherHolds, otherRank⟩ := mem_ranked inDirectory
    have sameRank : one.1 = other.1 := UInt32.le_antisymm less greater
    refine Prod.ext sameRank (untied.definitions holds otherHolds ?_ ?_)
    · rw [rank, otherRank, sameRank]
    · exact (of_decide_eq_true isId).trans (of_decide_eq_true isIdToo).symm
  refine Sorted.eq (definitions_sorted later) (definitions_sorted directory) fun id => ?_
  rw [definitions_of_id, definitions_of_id, ← ranked_definitions, ← ranked_definitions, ofRank, ofRank, List.filter_map,
    List.filter_map]
  exact congrArg (List.map Prod.snd) (same id)

theorem of_directory_untied (untied : Untied δ directory) : (ofDirectory later : Listing δ) = ofDirectory directory := by
  have skipped := skipped_untied agree untied
  have definitions := definitions_untied agree untied
  cases left : (ofDirectory later : Listing δ)
  cases right : (ofDirectory directory : Listing δ)
  rw [left, right] at skipped definitions
  exact congrArg₂ Listing.mk definitions skipped

end Agreeing

-- Two files that are sorted alike stand side by side in two orders, if they come first in the
-- directory.
theorem tied_files {kind : DefinitionKind} {one other : DefinitionFile} (listed : one ∈ files kind directory)
    (otherListed : other ∈ files kind directory) (different : one ≠ other) (tied : one.rank = other.rank) :
    ∃ front back : Directory, directory.entries.Perm front.entries ∧ directory.entries.Perm back.entries ∧
      ∃ before after, files kind front = before ++ one :: other :: after ∧
        files kind back = before ++ other :: one :: after := by
  obtain ⟨held, found⟩ := mem_files_iff.mp listed
  obtain ⟨otherHeld, otherFound⟩ := mem_files_iff.mp otherListed
  have apart : (other.name, other.node) ≠ (one.name, one.node) := fun same =>
    different (file_of_name listed otherListed (congrArg Prod.fst same).symm)
  have first := List.perm_cons_erase ((directory.mem_entries_iff _ _).mpr held)
  have second := List.perm_cons_erase
    ((List.mem_erase_of_ne apart).mpr ((directory.mem_entries_iff _ _).mpr otherHeld))
  have forth := first.trans (second.cons _)
  have back := forth.trans (List.Perm.swap _ _ _)
  obtain ⟨before, after, inFront, inBack⟩ := sort_tied tied
    (((directory.entries.erase (one.name, one.node)).erase (other.name, other.node)).filterMap
      (DefinitionFile.ofNode? kind.fileExtension))
  refine ⟨⟨_, (forth.map Prod.fst).nodup_iff.mp directory.distinct⟩,
    ⟨_, (back.map Prod.fst).nodup_iff.mp directory.distinct⟩, forth, back, before, after, ?_, ?_⟩
  · rw [files, List.filterMap_cons_some found, List.filterMap_cons_some otherFound, inFront]
  · rw [files, List.filterMap_cons_some otherFound, List.filterMap_cons_some found, inBack]

theorem skipped_of_tied (same : ∀ later : Directory, directory.entries.Perm later.entries →
      (ofDirectory later : Listing δ) = ofDirectory directory)
    {one other : DefinitionFile} {skip otherSkip : Skipped} (listed : one ∈ files (Definition.kind δ) directory)
    (otherListed : other ∈ files (Definition.kind δ) directory) (unread : (one.read : Except Skipped δ) = .error skip)
    (otherUnread : (other.read : Except Skipped δ) = .error otherSkip) (tied : one.rank = other.rank) : one = other := by
  by_contra different
  obtain ⟨front, back, toFront, toBack, before, after, inFront, inBack⟩ := tied_files listed otherListed different tied
  have skips := congrArg Listing.skipped ((same front toFront).trans (same back toBack).symm)
  rw [ofDirectory, ofDirectory, of_files_skipped, of_files_skipped, inFront, inBack, List.filterMap_append,
    List.filterMap_append, List.filterMap_cons_some (DefinitionFile.unread_iff.mpr unread),
    List.filterMap_cons_some (DefinitionFile.unread_iff.mpr otherUnread),
    List.filterMap_cons_some (DefinitionFile.unread_iff.mpr otherUnread),
    List.filterMap_cons_some (DefinitionFile.unread_iff.mpr unread)] at skips
  have sameSkip : skip = otherSkip := (List.cons.inj (List.append_cancel_left skips)).1
  refine different (file_of_name listed otherListed ?_)
  rw [← (DefinitionFile.read_skipped unread).2, ← (DefinitionFile.read_skipped otherUnread).2, sameSkip]

theorem of_files_read_first {file : DefinitionFile} {definition : δ} (read : file.read = .ok definition)
    (files : List DefinitionFile) :
    (ofFiles (file :: files) : Listing δ).definitions = definition :: (ofFiles files : Listing δ).definitions := by
  rw [ofFiles, read]

theorem of_files_append (before after : List DefinitionFile) : (ofFiles (before ++ after) : Listing δ).definitions =
    (ofFiles before : Listing δ).definitions ++ (ofFiles after : Listing δ).definitions := by
  simp only [of_files_definitions, List.filterMap_append]

theorem definitions_of_tied (same : ∀ later : Directory, directory.entries.Perm later.entries →
      (ofDirectory later : Listing δ) = ofDirectory directory)
    {one other : DefinitionFile} {definition another : δ} (holds : Holds directory one definition)
    (otherHolds : Holds directory other another) (tied : one.rank = other.rank)
    (sameId : Definition.id definition = Definition.id another) : definition = another := by
  by_cases different : one = other
  · subst different
    exact Except.ok.inj (holds.2.symm.trans otherHolds.2)
  · obtain ⟨front, back, toFront, toBack, before, after, inFront, inBack⟩ :=
      tied_files holds.1 otherHolds.1 different tied
    have ofId := congrArg (fun listing : Listing δ => ofRank Definition.id (Definition.id another) listing.definitions)
      ((same front toFront).trans (same back toBack).symm)
    simp only [definitions_of_id] at ofId
    rw [inFront, inBack, of_files_append, of_files_append, of_files_read_first holds.2, of_files_read_first otherHolds.2,
      of_files_read_first otherHolds.2, of_files_read_first holds.2, of_rank_append, of_rank_append, of_rank_cons sameId,
      of_rank_cons rfl, of_rank_cons rfl] at ofId
    exact (List.cons.inj (List.append_cancel_left ofId)).1

theorem agree_of_perm (reordered : directory.entries.Perm later.entries) (name : String) :
    later.get? name = directory.get? name := by
  refine Option.ext fun node => ?_
  rw [← Directory.mem_entries_iff, ← Directory.mem_entries_iff, reordered.mem_iff]

theorem reordered_iff (directory : Directory) : (∀ later : Directory, directory.entries.Perm later.entries →
    (ofDirectory later : Listing δ) = ofDirectory directory) ↔ Untied δ directory :=
  ⟨fun same => ⟨skipped_of_tied same, definitions_of_tied same⟩, fun untied _ reordered =>
    of_directory_untied (fun _ => agree_of_perm reordered _) untied⟩

end Listing
end DocumentViews
