import DocumentViews.Proofs.Run
import DocumentViews.Proofs.Tally

set_option autoImplicit false

namespace DocumentViews

open DefinitionKind (IsDefinitionName)

inductive WrittenFor : String → Node → Prop
  | index (definition : IndexDefinition) :
      WrittenFor (DefinitionKind.index.fileName definition.id) (.text definition.toValue.pretty)
  | transformer (definition : TransformerDefinition) :
      WrittenFor (DefinitionKind.transformer.fileName definition.id) (.text definition.toValue.pretty)

namespace Archive

structure Derives (before after : Archive) : Prop where
  durable : after.isDurable = before.isDurable
  present : ∀ {directory : Directory}, before.disk = .present directory → ∃ later, after.disk = .present later
  files : ∀ {name : String} {node : Node}, IsDefinitionName name → after.disk.get? name = some node →
    before.disk.get? name = some node ∨ WrittenFor name node

namespace Derives

variable {one other last : Archive}

theorem refl (archive : Archive) : Derives archive archive := ⟨rfl, fun present => ⟨_, present⟩, fun _ found => .inl found⟩

theorem trans (first : Derives one other) (second : Derives other last) : Derives one last where
  durable := second.durable.trans first.durable
  present present := by
    obtain ⟨between, presentThere⟩ := first.present present
    exact second.present presentThere
  files named found := by
    rcases second.files named found with before | written
    · exact first.files named before
    · exact .inr written

end Derives

theorem write_file_derives (archive : Archive) {name content : String}
    (own : IsDefinitionName name → WrittenFor name (.text content)) : Derives archive (archive.writeFile name content).2 where
  durable := (archive.write_file_keeps name content).durable
  present := (archive.write_file_keeps name content).present
  files {other node} named found := by
    by_cases same : other = name
    · subst other
      rcases archive.write_file_content name content with kept | replaced
      · exact .inl (kept.symm.trans found)
      · rw [replaced] at found
        exact .inr (Option.some.inj found ▸ own named)
    · have kept := (archive.write_file_keeps name content).files ⟨same, definition_name_ne_temporary named name⟩
      exact .inl (kept.symm.trans found)

theorem delete_derives (archive : Archive) (kind : DefinitionKind) (id : UInt32) :
    Derives archive (archive.delete kind id).2 where
  durable := (archive.delete_keeps kind id).durable
  present := (archive.delete_keeps kind id).present
  files {other node} _ found := by
    by_cases same : other = kind.fileName id
    · subst other
      rcases archive.delete_content kind id with kept | gone
      · exact .inl (kept.symm.trans found)
      · rw [gone] at found
        cases found
    · exact .inl (((archive.delete_keeps kind id).files same).symm.trans found)

end Archive

class Provenance (δ : Type) {γ : outParam Type} [Definition δ γ] : Prop where
  written_for : ∀ definition : δ, WrittenFor ((Definition.kind δ).fileName (Definition.id definition))
    (.text (Definition.toValue definition).pretty)
  of_written : ∀ {stem : String} {node : Node}, WrittenFor (stem ++ "." ++ (Definition.kind δ).fileExtension) node →
    ∃ definition : δ, stem ++ "." ++ (Definition.kind δ).fileExtension =
      (Definition.kind δ).fileName (Definition.id definition) ∧ node = .text (Definition.toValue definition).pretty

instance : Provenance IndexDefinition where
  written_for := .index
  of_written {stem node} written := by
    generalize named : stem ++ "." ++ (Definition.kind IndexDefinition).fileExtension = name at written
    cases written with
    | index definition => exact ⟨definition, rfl, rfl⟩
    | transformer definition =>
        exact absurd named (DefinitionKind.file_name_of_other (by decide) stem definition.id)

instance : Provenance TransformerDefinition where
  written_for := .transformer
  of_written {stem node} written := by
    generalize named : stem ++ "." ++ (Definition.kind TransformerDefinition).fileExtension = name at written
    cases written with
    | index definition => exact absurd named (DefinitionKind.file_name_of_other (by decide) stem definition.id)
    | transformer definition => exact ⟨definition, rfl, rfl⟩

namespace Shelf

variable {δ γ : Type} [Definition δ γ]

theorem refresh_derives (shelf : Shelf δ γ) : Archive.Derives shelf.archive shelf.refreshListing.archive :=
  shelf.archive.write_file_derives fun named => absurd rfl (DefinitionKind.definition_name_ne_listing named _).1

theorem relist_derives (shelf : Shelf δ γ) (catalog : Catalog δ γ) : Archive.Derives shelf.archive (shelf.relist catalog).archive :=
  refresh_derives ({ shelf with catalog } : Shelf δ γ)

theorem persist_derives [Provenance δ] (shelf : Shelf δ γ) (definition : δ) :
    Archive.Derives shelf.archive (shelf.persist definition).2.archive :=
  shelf.archive.write_file_derives fun _ => Provenance.written_for definition

theorem remove_derives (shelf : Shelf δ γ) (id : UInt32) : Archive.Derives shelf.archive (shelf.remove id).2.archive := by
  simp only [remove]
  split
  · exact (relist_derives shelf _).trans (Archive.delete_derives _ _ id)
  · exact .refl _

theorem step_derives [Provenance δ] {rules : Rules δ} {extensions : Extensions} {shelf next : Shelf δ γ}
    (step : Step rules extensions shelf next) : Archive.Derives shelf.archive next.archive := by
  cases step with
  | counted ids => exact .refl _
  | compiled _ _ _ => exact (relist_derives shelf _).trans (persist_derives _ _)
  | replaced _ _ => exact (relist_derives shelf _).trans (persist_derives _ _)
  | removed _ => exact shelf.remove_derives _
  | filled key => exact .refl _
  | marked id => exact .refl _
  | added _ _ _ => exact relist_derives shelf _
  | addedAgain _ _ => exact relist_derives shelf _

end Shelf

namespace Loading

variable {δ γ : Type} [Definition δ γ]

theorem make_way_derives (cleanUp : CleanUp) (definition : δ) (loading : Loading δ γ) :
    Archive.Derives loading.shelf.archive (loading.makeWay cleanUp definition).shelf.archive := by
  simp only [makeWay]
  split
  · exact .refl _
  next earlier _ =>
    split
    · exact .refl _
    · exact loading.shelf.remove_derives earlier

theorem of_archive_derives {extensions : Extensions} {cleanUp : CleanUp} {ids : IdCounter} {archive : Archive}
    {storage : ResultStorage} {loading : Loading δ γ}
    (loaded : ofArchive extensions cleanUp ids archive storage = .ok loading) :
    Archive.Derives archive loading.shelf.archive := by
  obtain ⟨listing, _, rest⟩ := bind_ok loaded
  cases rest
  have folded : ∀ (definitions : List δ) (loading : Loading δ γ), Archive.Derives loading.shelf.archive
      (definitions.foldl (add extensions cleanUp) loading).shelf.archive := by
    intro definitions
    induction definitions with
    | nil => exact fun _ => .refl _
    | cons definition others ih =>
        intro loading
        have first : Archive.Derives loading.shelf.archive (loading.add extensions cleanUp definition).shelf.archive := by
          rw [add, install_archive]
          exact make_way_derives cleanUp _ (loading.reserveThrough _)
        exact first.trans (ih _)
  have started := folded listing.definitions ((start ids archive storage).noteSkipped listing.skipped)
  rwa [note_skipped_archive] at started

end Loading

def Event.meddles : Event → Bool
  | .meddle _ => true
  | _ => false

namespace Registry

def undisturbed : RunRules := ⟨.lenient _, .lenient _, True⟩

theorem persist_promoted_derives (displaced : Option UInt32) (definition : IndexDefinition)
    (shelf : Shelf IndexDefinition IndexGenerator) :
    Archive.Derives shelf.archive (persistPromoted displaced definition shelf).2.archive := by
  unfold persistPromoted
  cases displaced with
  | none => exact shelf.persist_derives definition
  | some holder =>
      have deleted := Archive.delete_derives shelf.archive .index holder
      dsimp only
      split
      · exact deleted
      · exact deleted.trans (Shelf.persist_derives { shelf with archive := (shelf.archive.delete .index holder).2 } definition)

theorem step_derives {registry next : Registry} (step : Step undisturbed registry next) :
    Archive.Derives registry.archive next.archive := by
  cases step with
  | indexes step => exact Shelf.step_derives step
  | transformers step => exact Shelf.step_derives step
  | promoted _ _ _ _ => exact (registry.indexShelf.relist_derives _).trans (persist_promoted_derives _ _ _)
  | around storage traffic => exact .refl _
  | meddled disk free => exact absurd trivial free

theorem comes_from_derives {before after : Registry} (chain : ComesFrom undisturbed before after) :
    Archive.Derives before.archive after.archive := by
  induction chain with
  | refl => exact .refl _
  | tail _ step ih => exact ih.trans (step_derives step)

theorem allows_undisturbed (registry : Registry) {event : Event} (own : event.meddles = false) :
    registry.Allows undisturbed event := by
  cases event <;> simp_all [Allows, undisturbed, Rules.lenient, Event.meddles]

theorem run_derives (registry : Registry) {events : List Event} (own : ∀ event ∈ events, event.meddles = false) :
    Archive.Derives registry.archive (registry.run events).archive :=
  @run_keeps (fun after => Archive.Derives registry.archive after.archive) (fun event => event.meddles = false)
    (fun between _ own derives =>
      derives.trans (comes_from_derives (perform_comes_from (between.allows_undisturbed own)))) registry (.refl _) events own

theorem open_on_derives {settings : RegistrySettings} {extensions : Extensions} {storage : ResultStorage} {disk : Disk}
    {opened : Registry} (started : openOn settings extensions storage disk = .ok opened) :
    ∃ archive, Archive.openOn settings disk = .ok archive ∧ Archive.Derives archive opened.archive := by
  obtain ⟨archive, archived, started⟩ := bind_ok started
  obtain ⟨indexes, indexesLoaded, started⟩ := bind_ok started
  obtain ⟨transformers, transformersLoaded, started⟩ := bind_ok started
  cases started
  refine ⟨archive, archived, ?_⟩
  have listed := ({ indexes.shelf with archive := transformers.shelf.archive } :
    Shelf IndexDefinition IndexGenerator).refresh_derives
  have listedAgain := ({ transformers.shelf with archive := ({ indexes.shelf with archive := transformers.shelf.archive } :
    Shelf IndexDefinition IndexGenerator).refreshListing.archive } :
      Shelf TransformerDefinition TransformerGenerator).refresh_derives
  exact (Loading.of_archive_derives indexesLoaded).trans
    ((Loading.of_archive_derives transformersLoaded).trans (listed.trans listedAgain))

end Registry
end DocumentViews
