import DocumentViews.Proofs.Supplied

set_option autoImplicit false

namespace DocumentViews

open DefinitionKind (IsDefinitionName)
open LawfulDefinition

section Kind

variable {δ γ : Type} [Definition δ γ]

namespace Catalog

structure Displaces (definition : δ) (generator : γ) (displaced : Option UInt32) (before after : Catalog δ γ) : Prop where
  stored : ∃ stamp, after.entries.get? (Definition.id definition) = some ⟨definition, generator, stamp⟩
  gone : ∀ holder, displaced = some holder → after.entries.get? holder = none ∧ after.isNew holder = false
  others : ∀ other, other ≠ Definition.id definition → displaced ≠ some other →
    after.entries.get? other = before.entries.get? other
  marks : ∀ other, displaced ≠ some other → after.isNew other = before.isNew other

variable {catalog next : Catalog δ γ} {definition : δ} {generator : γ} {displaced : Option UInt32}

theorem displaces_of_installed (apart : displaced ≠ some (Definition.id definition))
    (installed : catalog.installDisplacing definition generator displaced = .ok next) :
    Displaces definition generator displaced catalog next := by
  obtain ⟨_, _, _, rfl⟩ := install_displacing_ok installed
  have stored : ((catalog.cleared displaced).place definition generator).entries.get? (Definition.id definition) =
      some ⟨definition, generator, (catalog.cleared displaced).installs⟩ := by
    rw [place, SortedMap.get_insert, if_pos rfl]
  have kept : ∀ other, other ≠ Definition.id definition →
      ((catalog.cleared displaced).place definition generator).entries.get? other =
        (catalog.cleared displaced).entries.get? other := by
    intro other different
    rw [place, SortedMap.get_insert, if_neg different]
  cases displaced with
  | none =>
      refine ⟨⟨_, stored⟩, ?_, fun other different _ => kept other different, fun _ _ => rfl⟩
      rintro _ ⟨⟩
  | some holder =>
      refine ⟨⟨_, stored⟩, ?_, fun other different free => ?_, fun other free => ?_⟩
      · rintro _ ⟨⟩
        have other : holder ≠ Definition.id definition := fun same => apart (congrArg some same)
        refine ⟨?_, ?_⟩
        · rw [kept holder other, cleared, Catalog.remove, SortedMap.get_erase, if_pos rfl]
        · simp [place, cleared, Catalog.remove, isNew, SortedMap.contains]
      · have apart : other ≠ holder := fun same => free (congrArg some same.symm)
        rw [kept other different, cleared, Catalog.remove, SortedMap.get_erase, if_neg apart]
      · have apart : other ≠ holder := fun same => free (congrArg some same.symm)
        simp [place, cleared, Catalog.remove, isNew, SortedMap.contains, apart]

variable [LawfulDefinition δ γ]

theorem Consistent.unnamed (consistent : catalog.Consistent) {id : UInt32} (absent : catalog.entries.get? id = none)
    (name : String) : catalog.resolve (.name name) ≠ some id := by
  intro resolved
  obtain ⟨entry, found, _⟩ := (consistent.names_exact _ _).mp resolved
  rw [absent] at found
  cases found

namespace Displaces

variable (displaces : Displaces definition generator displaced catalog next) (consistent : catalog.Consistent)
  (nextConsistent : next.Consistent)

include displaces consistent nextConsistent

theorem names {other : UInt32} (different : other ≠ Definition.id definition) (free : displaced ≠ some other)
    (name : String) : next.resolve (.name name) = some other ↔ catalog.resolve (.name name) = some other := by
  rw [resolve, nextConsistent.names_exact, displaces.others other different free]
  exact (consistent.names_exact _ _).symm

-- Of its names an id keeps the one that it was installed under.
theorem released {name : String} (held : catalog.resolve (.name name) = some (Definition.id definition))
    (renamed : foldName name ≠ foldName (Definition.name definition)) : next.resolve (.name name) = none := by
  refine Option.eq_none_iff_forall_ne_some.mpr fun holder resolved => ?_
  by_cases own : holder = Definition.id definition
  · subst own
    obtain ⟨stamp, stored⟩ := displaces.stored
    obtain ⟨entry, found, named⟩ := (nextConsistent.names_exact _ _).mp resolved
    rw [stored] at found
    cases found
    exact renamed named.symm
  · by_cases given : displaced = some holder
    · exact nextConsistent.unnamed (displaces.gone holder given).1 name resolved
    · have before := (displaces.names consistent nextConsistent own given name).mp resolved
      exact own (Option.some.inj (before.symm.trans held))

end Displaces

end Catalog
end Kind

namespace Registry

variable {registry after : Registry} {caller : Thread} {oldName newName : String}

structure Lacks (registry : Registry) (id : UInt32) : Prop where
  found : registry.indexes.find? (.id id) = none
  named : ∀ name, registry.indexes.resolve (.name name) ≠ some id
  marked : registry.indexes.isNew id = false
  file : registry.archive.isDurable = true → registry.archive.disk.get? (DefinitionKind.index.fileName id) = none

def renamed (newName : String) (fields : List String) (previous : IndexDefinition) : IndexDefinition :=
  { previous with name := newName, isSideBySide := false, fields }

structure HoldsPromoted (registry : Registry) (newName : String) (id : UInt32) (previous : IndexDefinition)
    (generator : IndexGenerator) : Prop where
  resolved : registry.indexes.resolve (.name newName) = some id
  stored : registry.indexes.get? (.id id) = some (renamed newName generator.fields previous)
  generated : registry.indexes.generator? (.id id) = some generator
  compiled : (renamed newName generator.fields previous).compile registry.extensions = .ok generator
  named : generator.name = newName
  file : registry.archive.isDurable = true → registry.archive.disk.get? (DefinitionKind.index.fileName id) =
    some (.text (renamed newName generator.fields previous).toValue.pretty)

structure KeepsIndex (id : UInt32) (before after : Registry) : Prop where
  entry : after.indexes.find? (.id id) = before.indexes.find? (.id id)
  names : ∀ name, after.indexes.resolve (.name name) = some id ↔ before.indexes.resolve (.name name) = some id
  marked : after.indexes.isNew id = before.indexes.isNew id

structure TakesOver (oldName newName : String) (id : UInt32) (previous : IndexDefinition) (before after : Registry) :
    Prop where
  promoted : ∃ generator, after.HoldsPromoted newName id previous generator
  released : foldName oldName ≠ foldName newName → after.indexes.resolve (.name oldName) = none
  displaced : ∀ holder, before.indexes.resolve (.name newName) = some holder → holder ≠ id → after.Lacks holder
  marked : after.indexes.isNew id = before.indexes.isNew id
  others : ∀ other, other ≠ id → before.indexes.resolve (.name newName) ≠ some other → KeepsIndex other before after
  files : ∀ file, IsDefinitionName file → file ≠ DefinitionKind.index.fileName id →
    (∀ holder, before.indexes.resolve (.name newName) = some holder → file ≠ DefinitionKind.index.fileName holder) →
      after.archive.disk.get? file = before.archive.disk.get? file
  transformers : after.transformers = before.transformers

def displacedBy (registry : Registry) (newName : String) (id : UInt32) : Option UInt32 :=
  (registry.indexes.resolve (.name newName)).filter (· ≠ id)

theorem displaced_by_iff {id holder : UInt32} :
    registry.displacedBy newName id = some holder ↔
      registry.indexes.resolve (.name newName) = some holder ∧ holder ≠ id := by
  simp [displacedBy, Option.filter_eq_some_iff]

theorem replace_index_accepted (replaced : registry.replaceIndex caller oldName newName = (.ok true, after)) :
    ∃ previous generator catalog, registry.indexes.get? (.name oldName) = some previous ∧
      (promoted newName previous).compile registry.extensions = .ok generator ∧
      registry.indexes.installDisplacing ((promoted newName previous).fillFields generator) generator
        (registry.displacedBy newName previous.id) = .ok catalog ∧
      (persistPromoted (registry.displacedBy newName previous.id) ((promoted newName previous).fillFields generator)
        (registry.indexShelf.relist catalog)).1 = .ok true ∧
      after = registry.withIndexShelf (persistPromoted (registry.displacedBy newName previous.id)
        ((promoted newName previous).fillFields generator) (registry.indexShelf.relist catalog)).2 := by
  unfold replaceIndex administering at replaced
  split at replaced
  next => cases replaced
  next =>
    split at replaced
    next =>
      dsimp only at replaced
      split at replaced
      next => cases replaced
      next previous found =>
        split at replaced
        next => cases replaced
        next generator compiled =>
          split at replaced
          next => cases replaced
          next catalog installed =>
            obtain ⟨answered, changed⟩ := Prod.mk.inj replaced
            exact ⟨previous, generator, catalog, found, compiled, installed, answered, changed.symm⟩
    next => cases replaced

theorem promoted_filled (newName : String) (previous : IndexDefinition) (generator : IndexGenerator) :
    (promoted newName previous).fillFields generator = renamed newName generator.fields previous := rfl

theorem persist_promoted_ok {displaced : Option UInt32} {definition : IndexDefinition}
    {shelf : Shelf IndexDefinition IndexGenerator} (durable : shelf.archive.isDurable = true)
    (apart : displaced ≠ some definition.id) (done : (persistPromoted displaced definition shelf).1 = .ok true) :
    (persistPromoted displaced definition shelf).2.archive.disk.get? (DefinitionKind.index.fileName definition.id) =
        some (.text definition.toValue.pretty) ∧
      ∀ holder, displaced = some holder →
        (persistPromoted displaced definition shelf).2.archive.disk.get? (DefinitionKind.index.fileName holder) = none := by
  cases displaced with
  | none =>
      obtain ⟨_, written, _⟩ := map_ok done
      refine ⟨Archive.write_file_done durable written, ?_⟩
      rintro _ ⟨⟩
  | some holder =>
      unfold persistPromoted at done ⊢
      dsimp only at done ⊢
      cases deleted : (shelf.archive.delete .index holder).1 with
      | error error =>
          rw [deleted] at done
          cases done
      | ok _ =>
          rw [deleted] at done
          dsimp only at done ⊢
          obtain ⟨_, written, _⟩ := map_ok done
          have stillDurable : (shelf.archive.delete .index holder).2.isDurable = true :=
            (Archive.delete_keeps _ _ _).durable.trans durable
          refine ⟨Archive.write_file_done stillDurable written, ?_⟩
          rintro _ ⟨⟩
          -- Writing the new file does not bring back the one that was deleted.
          have other : DefinitionKind.index.fileName holder ≠ DefinitionKind.index.fileName definition.id := fun same =>
            apart (congrArg some (DefinitionKind.file_name_inj _ same))
          have kept := (Archive.write_file_keeps (shelf.archive.delete .index holder).2
            (DefinitionKind.index.fileName definition.id) definition.toValue.pretty).files
              ⟨other, Archive.definition_name_ne_temporary ⟨.index, _, rfl⟩ _⟩
          exact kept.trans (Archive.delete_done durable deleted)

section Exchanged

variable {previous : IndexDefinition} {generator : IndexGenerator}
  (displaces : Catalog.Displaces (renamed newName generator.fields previous) generator
    (registry.displacedBy newName previous.id) registry.indexes after.indexes)
  (nextConsistent : after.indexes.Consistent)

include displaces nextConsistent

theorem holds_promoted
    (compiled : (renamed newName generator.fields previous).compile after.extensions = .ok generator)
    (file : after.archive.isDurable = true → after.archive.disk.get? (DefinitionKind.index.fileName previous.id) =
      some (.text (renamed newName generator.fields previous).toValue.pretty)) :
    after.HoldsPromoted newName previous.id previous generator := by
  obtain ⟨stamp, stored⟩ := displaces.stored
  have found : after.indexes.find? (.id previous.id) = some ⟨renamed newName generator.fields previous, generator, stamp⟩ :=
    (Catalog.find_by_id _ _).trans stored
  refine ⟨?_, ?_, ?_, compiled, (IndexDefinition.compile_ok_iff.mp compiled).2.2.2.2.2.1, file⟩
  · exact (nextConsistent.names_exact _ _).mpr ⟨_, stored, rfl⟩
  · rw [Catalog.get?, found]
    rfl
  · rw [Catalog.generator?, found]
    rfl

theorem lacks_displaced {holder : UInt32} (given : registry.displacedBy newName previous.id = some holder)
    (file : after.archive.isDurable = true →
      after.archive.disk.get? (DefinitionKind.index.fileName holder) = none) : after.Lacks holder := by
  obtain ⟨gone, unmarked⟩ := displaces.gone holder given
  exact ⟨(Catalog.find_by_id _ _).trans gone, nextConsistent.unnamed gone, unmarked, file⟩

theorem keeps_index (consistent : registry.Consistent) {other : UInt32} (different : other ≠ previous.id)
    (free : registry.displacedBy newName previous.id ≠ some other) : KeepsIndex other registry after where
  entry := by
    rw [Catalog.find_by_id, Catalog.find_by_id]
    exact displaces.others other different free
  names := displaces.names consistent.1 nextConsistent different free
  marked := displaces.marks other free

end Exchanged

theorem replace_index_takes_over (consistent : registry.Consistent)
    (replaced : registry.replaceIndex caller oldName newName = (.ok true, after)) :
    ∃ id previous, registry.indexes.resolve (.name oldName) = some id ∧
      registry.indexes.get? (.id id) = some previous ∧ TakesOver oldName newName id previous registry after := by
  obtain ⟨previous, generator, catalog, found, compiled, installed, persisted, changed⟩ := replace_index_accepted replaced
  obtain ⟨id, entry, resolved, live, rfl⟩ := Catalog.live_of_name found
  obtain rfl : entry.definition.id = id := consistent.1.definition_id live
  have apart : registry.displacedBy newName entry.definition.id ≠
      some (renamed newName generator.fields entry.definition).id := fun given => (displaced_by_iff.mp given).2 rfl
  rw [promoted_filled] at installed persisted changed
  -- Compiling does not read the fields, which are filled in only now.
  have compiled : (renamed newName generator.fields entry.definition).compile registry.extensions = .ok generator := compiled
  obtain ⟨_, _, _, _, sameId, _, _⟩ := IndexDefinition.compile_ok_iff.mp compiled
  have nextConsistent : catalog.Consistent := consistent.1.install_displacing sameId installed
  have displaces := Catalog.displaces_of_installed apart installed
  have listed := registry.indexShelf.relist_keeps catalog
  have persists := persist_promoted_keeps (registry.displacedBy newName entry.definition.id)
    (renamed newName generator.fields entry.definition) (registry.indexShelf.relist catalog)
  have files := fun durable => persist_promoted_ok durable apart persisted
  obtain rfl : catalog = after.indexes := by
    rw [changed, withIndexShelf, persist_promoted_catalog, Shelf.relist_catalog]
  have archive : (persistPromoted (registry.displacedBy newName entry.definition.id)
      (renamed newName generator.fields entry.definition) (registry.indexShelf.relist after.indexes)).2.archive =
      after.archive := by
    conv_rhs => rw [changed]
    rfl
  rw [archive] at persists files
  have stillDurable : after.archive.isDurable = true →
      (registry.indexShelf.relist after.indexes).archive.isDurable = true := fun durable =>
    persists.durable.symm.trans durable
  have given : ∀ {holder}, registry.indexes.resolve (.name newName) = some holder → holder ≠ entry.definition.id →
      registry.displacedBy newName entry.definition.id = some holder := fun held other =>
    displaced_by_iff.mpr ⟨held, other⟩
  refine ⟨entry.definition.id, entry.definition, resolved, ?_, ?_⟩
  · rw [Catalog.get?, Catalog.find_by_id, live]
    rfl
  · constructor
    · refine ⟨generator, holds_promoted displaces nextConsistent ?_ fun durable => (files (stillDurable durable)).1⟩
      rw [changed]
      exact compiled
    · exact displaces.released consistent.1 nextConsistent resolved
    · intro holder held other
      exact lacks_displaced displaces nextConsistent (given held other) fun durable =>
        (files (stillDurable durable)).2 holder (given held other)
    · exact displaces.marks _ apart
    · intro other different free
      exact keeps_index displaces nextConsistent consistent different fun taken => free (displaced_by_iff.mp taken).1
    · intro file named own others
      exact (persists.files ⟨named, own, fun holder taken => others holder (displaced_by_iff.mp taken).1⟩).trans
        (listed.files named)
    · rw [changed]
      rfl

/-- An index that was promoted has taken over the name: it is the one of before, compiled anew under the name, nothing is
left of the one that held the name, and everything else stays as it is. -/
theorem opened_run_promotes {settings : RegistrySettings} {extensions : Extensions} {storage : ResultStorage} {disk : Disk}
    {opened : Registry} (started : openOn settings extensions storage disk = .ok opened) (events : List Event)
    {caller : Thread} {oldName newName : String} {after : Registry}
    (replaced : (opened.run events).replaceIndex caller oldName newName = (.ok true, after)) :
    ∃ id previous, (opened.run events).indexes.resolve (.name oldName) = some id ∧
      (opened.run events).indexes.get? (.id id) = some previous ∧
      TakesOver oldName newName id previous (opened.run events) after :=
  replace_index_takes_over (run_consistent (open_on_consistent started) events) replaced

theorem opened_run_promotes_displacing :
    let dogs : IndexDefinition := .ofSingleMap "Dogs" "from d in docs select new \x7b d.Name \x7d"
    let side : IndexDefinition :=
      { IndexDefinition.ofSingleMap "Dogs/Side" "from d in docs.Dogs select new \x7b d.Age \x7d" with isSideBySide := true }
    let events : List Event := [.putIndex "main" dogs, .putIndex "main" side]
    ∃ opened after previous, openOn .standard .builtins .empty .absent = .ok opened ∧
      (opened.run events).replaceIndex "main" "dogs/SIDE" "DOGS" = (.ok true, after) ∧
      (opened.run events).indexes.resolve (.name "DOGS") = some 1 ∧
      TakesOver "dogs/SIDE" "DOGS" 2 previous (opened.run events) after := by
  intro dogs side events
  have started : openOn .standard .builtins .empty .absent = .ok (fresh .standard .builtins .empty) :=
    open_on_empty rfl _ _ rfl
  let before := (fresh .standard .builtins .empty).run events
  have answered : (before.replaceIndex "main" "dogs/SIDE" "DOGS").1 = .ok true := ok_of_to_option (by decide +kernel)
  have named : before.indexes.resolve (.name "dogs/SIDE") = some 2 := by decide +kernel
  have held : before.indexes.resolve (.name "DOGS") = some 1 := by decide +kernel
  obtain ⟨id, previous, resolved, _, takesOver⟩ := opened_run_promotes started events (Prod.ext answered rfl)
  obtain rfl : 2 = id := Option.some.inj (named.symm.trans resolved)
  exact ⟨_, _, previous, started, Prod.ext answered rfl, held, takesOver⟩

end Registry
end DocumentViews
