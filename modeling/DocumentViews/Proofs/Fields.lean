import DocumentViews.Proofs.Entries
import DocumentViews.Proofs.Promotion
import DocumentViews.Proofs.ReadBack

set_option autoImplicit false

namespace DocumentViews

open LawfulDefinition

def IndexGenerator.tells (generator : IndexGenerator) (brought : List String) : List String :=
  if brought.isEmpty then generator.fields else brought

theorem IndexDefinition.fillFields_fields (definition : IndexDefinition) (generator : IndexGenerator) :
    (definition.fillFields generator).fields = generator.tells definition.fields := by
  rw [fillFields, IndexGenerator.tells]
  split <;> rfl

section Kind

variable {δ γ : Type} [Definition δ γ]

theorem Catalog.fill_found {catalog : Catalog δ γ} {id : UInt32} {entry : CatalogEntry δ γ}
    (found : catalog.entries.get? id = some entry) :
    (catalog.fill (.id id)).1 = some (Definition.fill entry.definition entry.generator) := by
  have live : catalog.isLive id = true := (catalog.isLive_iff id).mpr ⟨entry, found⟩
  simp only [fill, resolve, if_pos live, found]

namespace Shelf

variable {extensions : Extensions} {shelf : Shelf δ γ} {definition : δ}

def created? (extensions : Extensions) (definition : δ) (shelf : Shelf δ γ) : Option (Catalog δ γ) :=
  (shelf.catalog.compileInto extensions (Definition.prepare (shelf.identify definition).1)).toOption.map Prod.snd

-- The catalog with what a change stores in it. Files are written later, so it is stored also
-- where they fail.
def changed? (extensions : Extensions) (change : Change) (definition : δ) (shelf : Shelf δ γ) : Option (Catalog δ γ) :=
  match change with
  | .noop => none
  | .updateWithoutRecompile => (shelf.catalog.replaceDefinition definition).toOption
  | .update => shelf.created? extensions definition
  | .create =>
      { shelf with ids := shelf.ids.allocate.2 }.created? extensions (Definition.withId shelf.ids.allocate.1 definition)

theorem create_and_persist_catalog (extensions : Extensions) (definition : δ) (shelf : Shelf δ γ) :
    (shelf.createAndPersist extensions definition).2.catalog =
      (shelf.created? extensions definition).getD shelf.catalog := by
  have kept := identify_catalog definition shelf
  simp only [createAndPersist, created?, kept]
  cases shelf.catalog.compileInto extensions (Definition.prepare (shelf.identify definition).1) with
  | error => exact kept
  | ok => rfl

theorem carry_out_entries (extensions : Extensions) (marksNew : Bool) (change : Change) (definition : δ)
    (shelf : Shelf δ γ) :
    (shelf.carryOut extensions marksNew change definition).2.catalog.entries =
      ((shelf.changed? extensions change definition).getD shelf.catalog).entries := by
  cases change with
  | noop => rfl
  | updateWithoutRecompile =>
      simp only [carryOut, updateWithoutRecompile, changed?]
      cases shelf.catalog.replaceDefinition definition <;> rfl
  | update => exact congrArg Catalog.entries (create_and_persist_catalog extensions definition shelf)
  | create =>
      have created := congrArg Catalog.entries (create_and_persist_catalog extensions
        (Definition.withId shelf.ids.allocate.1 definition) { shelf with ids := shelf.ids.allocate.2 })
      simp only [carryOut, create]
      split
      · exact (Catalog.mark_new_entries _ _).trans created
      · exact created

end Shelf

end Kind

def Tells (brought : List String) (entry : CatalogEntry IndexDefinition IndexGenerator) : Prop :=
  (entry.definition.fillFields entry.generator).fields = entry.generator.tells brought

def Catalog.StoresUnder (name : String) (brought : List String) (before after : Catalog IndexDefinition IndexGenerator) :
    Prop :=
  ∃ id entry, after.entries.get? id = some entry ∧ entry.definition.name = name ∧ Tells brought entry ∧
    ∀ other found, other ≠ id → after.entries.get? other = some found → before.entries.get? other = some found

theorem Catalog.StoresUnder.tells {name : String} {fields : List String} {before after : Catalog IndexDefinition IndexGenerator}
    (stores : before.StoresUnder name fields after) (consistent : after.Consistent) {earlier : UInt32 → List String}
    (all : before.All fun id => Tells (earlier id)) :
    after.All fun id => Tells (if after.resolve (.name name) = some id then fields else earlier id) := by
  obtain ⟨id, entry, stored, named, tells, others⟩ := stores
  have resolved : after.resolve (.name name) = some id :=
    (consistent.names_exact (foldName name) id).mpr ⟨entry, stored, congrArg foldName named⟩
  intro other found present
  rw [resolved]
  by_cases own : other = id
  · subst own
    cases stored.symm.trans present
    rwa [if_pos rfl]
  · rw [if_neg fun same => own (Option.some.inj same).symm]
    exact all other found (others other found own present)

namespace Shelf

variable {extensions : Extensions} {shelf : Shelf IndexDefinition IndexGenerator} {definition : IndexDefinition}
  {catalog : Catalog IndexDefinition IndexGenerator}

theorem created_stores (created : shelf.created? extensions definition = some catalog) :
    Catalog.StoresUnder definition.name definition.fields shelf.catalog catalog := by
  obtain ⟨⟨installed, _⟩, compiled, rfl⟩ := Option.map_eq_some_iff.mp created
  obtain ⟨generator, _, rfl, accepted⟩ := Catalog.compile_into_ok (ok_of_to_option compiled)
  obtain ⟨_, _, rfl⟩ := Catalog.install_ok accepted
  obtain ⟨id, identified⟩ := identified definition shelf
  rw [identified]
  let filled := (Definition.withId id definition).resolveAnalyzers.fillFields generator
  refine ⟨filled.id, ⟨filled, generator, shelf.catalog.installs⟩, ?_, ?_, ?_, fun other found different present => ?_⟩
  · exact (SortedMap.get_insert _ _ _ _).trans (if_pos rfl)
  · exact IndexDefinition.fillFields_name _ _
  · rw [Tells, IndexDefinition.fillFields_twice]
    exact IndexDefinition.fillFields_fields _ _
  · exact (Catalog.spares_place _ _ _ other different).1.symm.trans present

theorem changed_stores {change : Change} (stored : shelf.changed? extensions change definition = some catalog) :
    Catalog.StoresUnder definition.name definition.fields shelf.catalog catalog := by
  cases change with
  | noop => cases stored
  | updateWithoutRecompile =>
      obtain ⟨entry, _, _, _, rfl⟩ := Catalog.replace_definition_ok (ok_of_to_option stored)
      refine ⟨definition.id, { entry with definition }, ?_, rfl, definition.fillFields_fields entry.generator,
        fun other found different present => ?_⟩
      · exact (SortedMap.get_insert _ _ _ _).trans (if_pos rfl)
      · exact ((SortedMap.get_insert _ _ _ _).trans (if_neg different)).symm.trans present
  | update => exact created_stores stored
  | create =>
      have created : ({ shelf with ids := shelf.ids.allocate.2 } : Shelf IndexDefinition IndexGenerator).created? extensions
          (Definition.withId shelf.ids.allocate.1 definition) = some catalog := stored
      have stores := created_stores created
      exact stores

end Shelf

-- Whether a definition of an index that comes in with the event is classified first.
def Event.classifiesIndexes : Event → Bool
  | createIndex _ => false
  | addIndex _ => false
  | updateIndex _ => false
  | _ => true

-- The name and the fields that an index is to be stored with. A promotion clears the fields.
def Event.carries? : Event → Option (String × List String)
  | putIndex _ definition => some (definition.name, definition.fields)
  | replaceIndex _ _ newName => some (newName, [])
  | _ => none

def RunRules.quiet : RunRules := ⟨⟨fun _ => False, fun _ _ => False, True, fun _ => True⟩, .lenient _, False⟩

theorem tells_quietly (extensions : Extensions) (brought : UInt32 → List String) :
    EntryInvariant RunRules.quiet.indexes extensions fun id => Tells (brought id) where
  compiled impossible := impossible.elim
  replaced impossible := impossible.elim
  filled {id entry} tells := by
    rw [Tells] at tells ⊢
    exact (congrArg IndexDefinition.fields (IndexDefinition.fillFields_twice _ _)).trans tells

namespace Registry

variable {registry : Registry}

def promotion? (caller : Thread) (oldName newName : String) (registry : Registry) :
    Option (Catalog IndexDefinition IndexGenerator) :=
  if (checkName newName).isOk && registry.traffic.gate.admits caller .administration then do
    let previous ← registry.indexes.get? (.name oldName)
    let generator ← ((promoted newName previous).compile registry.extensions).toOption
    (registry.indexes.installDisplacing ((promoted newName previous).fillFields generator) generator
      (registry.displacedBy newName previous.id)).toOption
  else none

def changed? (registry : Registry) : Event → Option (Catalog IndexDefinition IndexGenerator)
  | .putIndex caller definition =>
      match registry.putRefusal? caller definition with
      | some _ => none
      | none => registry.indexShelf.changed? registry.extensions (registry.classifyIndex definition).1
          (registry.classifyIndex definition).2
  | .replaceIndex caller oldName newName => registry.promotion? caller oldName newName
  | _ => none

-- The name and the fields of the definition that an event stores, whatever it answers.
def brings? (registry : Registry) (event : Event) : Option (String × List String) :=
  (registry.changed? event).bind fun _ => event.carries?

-- The fields that came with the definition that was stored last under each id, given those
-- that came with the definitions before the event.
def noted (registry : Registry) (event : Event) (earlier : UInt32 → List String) (id : UInt32) : List String :=
  match registry.brings? event with
  | some (name, fields) =>
      if (registry.perform event).2.indexes.resolve (.name name) = some id then fields else earlier id
  | none => earlier id

def brought (registry : Registry) (earlier : UInt32 → List String) : List Event → UInt32 → List String
  | [] => earlier
  | event :: events => (registry.perform event).2.brought (registry.noted event earlier) events

theorem put_index_entries (caller : Thread) (definition : IndexDefinition) (registry : Registry) :
    (registry.putIndex caller definition).2.indexes.entries =
      ((registry.changed? (.putIndex caller definition)).getD registry.indexes).entries := by
  rw [put_index_eq, changed?]
  cases registry.putRefusal? caller definition with
  | some error => rfl
  | none => exact Shelf.carry_out_entries registry.extensions true _ _ registry.indexShelf

theorem replace_index_catalog (caller : Thread) (oldName newName : String) (registry : Registry) :
    (registry.replaceIndex caller oldName newName).2.indexes =
      (registry.promotion? caller oldName newName).getD registry.indexes := by
  unfold replaceIndex administering promotion?
  cases checkName newName with
  | error => rfl
  | ok =>
      cases registry.traffic.gate.admits caller .administration with
      | false => rfl
      | true =>
          simp only [Except.isOk, Except.toBool, Bool.and_self, if_true]
          cases registry.indexes.get? (.name oldName) with
          | none => rfl
          | some previous =>
              simp only [Option.bind_eq_bind, Option.bind_some, displacedBy]
              cases (promoted newName previous).compile registry.extensions with
              | error => rfl
              | ok generator =>
                  simp only [Except.toOption, Option.bind_some]
                  cases registry.indexes.installDisplacing ((promoted newName previous).fillFields generator) generator
                      ((registry.indexes.resolve (.name newName)).filter (· ≠ previous.id)) with
                  | error => rfl
                  | ok catalog => exact persist_promoted_catalog _ _ _

theorem promotion_stores {caller : Thread} {oldName newName : String} {catalog : Catalog IndexDefinition IndexGenerator}
    (promotes : registry.promotion? caller oldName newName = some catalog) :
    registry.indexes.StoresUnder newName [] catalog := by
  rw [promotion?] at promotes
  split at promotes
  next =>
    obtain ⟨previous, _, promotes⟩ := Option.bind_eq_some_iff.mp promotes
    obtain ⟨generator, _, promotes⟩ := Option.bind_eq_some_iff.mp promotes
    have installed := ok_of_to_option promotes
    rw [promoted_filled] at installed
    have apart : registry.displacedBy newName previous.id ≠ some (renamed newName generator.fields previous).id :=
      fun given => (displaced_by_iff.mp given).2 rfl
    have displaces := Catalog.displaces_of_installed apart installed
    obtain ⟨stamp, held⟩ := displaces.stored
    refine ⟨_, _, held, rfl, ?_, fun other found different present => ?_⟩
    · exact congrArg IndexDefinition.fields ((promoted newName previous).fillFields_twice generator)
    · by_cases given : registry.displacedBy newName previous.id = some other
      · rw [(displaces.gone other given).1] at present
        cases present
      · rwa [displaces.others other different given] at present
  next => cases promotes

theorem changed_stores {event : Event} {catalog : Catalog IndexDefinition IndexGenerator}
    (stored : registry.changed? event = some catalog) :
    ∃ name fields, event.carries? = some (name, fields) ∧ registry.indexes.StoresUnder name fields catalog := by
  cases event with
  | putIndex caller definition =>
      refine ⟨definition.name, definition.fields, rfl, ?_⟩
      rw [changed?] at stored
      split at stored
      next => cases stored
      next =>
        have stores := Shelf.changed_stores stored
        -- The candidate differs from the definition in its id and its analyzers only.
        obtain ⟨id, classified⟩ := registry.indexShelf.classified_withId definition
        have candidate : (registry.classifyIndex definition).2 = { definition.resolveAnalyzers with id } := classified
        rw [candidate] at stores
        exact stores
  | replaceIndex caller oldName newName => exact ⟨newName, [], rfl, promotion_stores stored⟩
  | _ => cases stored

structure Accounts (registry : Registry) (brought : UInt32 → List String) : Prop where
  consistent : registry.Consistent
  tells : registry.indexes.All fun id => Tells (brought id)

theorem allows_quiet {event : Event} (classified : event.classifiesIndexes = true)
    (puts : ∀ caller definition, event ≠ .putIndex caller definition)
    (replaces : ∀ caller oldName newName, event ≠ .replaceIndex caller oldName newName) :
    registry.Allows .quiet event := by
  cases event with
  | putIndex caller definition => exact absurd rfl (puts caller definition)
  | replaceIndex caller oldName newName => exact absurd rfl (replaces caller oldName newName)
  | createIndex | addIndex | updateIndex => cases classified
  | _ => simp [Allows, RunRules.quiet, Rules.lenient]

theorem perform_entries {event : Event}
    (stores : (∃ caller definition, event = .putIndex caller definition) ∨
      ∃ caller oldName newName, event = .replaceIndex caller oldName newName) :
    (registry.perform event).2.indexes.entries = ((registry.changed? event).getD registry.indexes).entries := by
  rcases stores with ⟨caller, definition, rfl⟩ | ⟨caller, oldName, newName, rfl⟩
  · exact registry.put_index_entries caller definition
  · exact congrArg Catalog.entries (registry.replace_index_catalog caller oldName newName)

theorem perform_tells {earlier : UInt32 → List String} (accounts : registry.Accounts earlier) {event : Event}
    (classified : event.classifiesIndexes = true) (afterConsistent : (registry.perform event).2.indexes.Consistent) :
    (registry.perform event).2.indexes.All fun id => Tells (registry.noted event earlier id) := by
  by_cases storing : (∃ caller definition, event = .putIndex caller definition) ∨
      ∃ caller oldName newName, event = .replaceIndex caller oldName newName
  · have entries := registry.perform_entries storing
    unfold noted brings?
    cases stored : registry.changed? event with
    | some catalog =>
        obtain ⟨name, fields, carried, stores⟩ := changed_stores stored
        rw [stored, Option.getD_some] at entries
        have stores : registry.indexes.StoresUnder name fields (registry.perform event).2.indexes := by
          rwa [Catalog.StoresUnder, entries]
        simp only [Option.bind_some, carried]
        exact stores.tells afterConsistent accounts.tells
    | none =>
        rw [stored, Option.getD_none] at entries
        intro id entry found
        rw [entries] at found
        exact accounts.tells id entry found
  · rw [not_or] at storing
    have unnoted : registry.brings? event = none := by
      cases event with
      | putIndex caller definition => exact absurd ⟨caller, definition, rfl⟩ storing.1
      | replaceIndex caller oldName newName => exact absurd ⟨caller, oldName, newName, rfl⟩ storing.2
      | _ => rfl
    have quiet := perform_comes_from (registry.allows_quiet classified
      (fun caller definition same => storing.1 ⟨caller, definition, same⟩)
      fun caller oldName newName same => storing.2 ⟨caller, oldName, newName, same⟩)
    unfold noted
    rw [unnoted]
    exact comes_from_all_indexes trivial (tells_quietly _ _) accounts.tells quiet

theorem perform_accounts {earlier : UInt32 → List String} (accounts : registry.Accounts earlier) {event : Event}
    (classified : event.classifiesIndexes = true) :
    (registry.perform event).2.Accounts (registry.noted event earlier) := by
  have consistent := comes_from_consistent accounts.consistent (perform_comes_from (registry.allows_lenient event))
  exact ⟨consistent, perform_tells accounts classified consistent.1⟩

theorem run_accounts {earlier : UInt32 → List String} (accounts : registry.Accounts earlier) {events : List Event}
    (classified : ∀ event ∈ events, event.classifiesIndexes = true) :
    (registry.run events).Accounts (registry.brought earlier events) := by
  induction events generalizing registry earlier with
  | nil => exact accounts
  | cons event rest ih =>
      rw [List.forall_mem_cons] at classified
      exact ih (perform_accounts accounts classified.1) classified.2

theorem fresh_accounts (settings : RegistrySettings) (extensions : Extensions) (storage : ResultStorage) :
    (fresh settings extensions storage).Accounts fun _ => [] where
  consistent := fresh_consistent settings extensions storage
  tells id entry found := by cases found

end Registry
end DocumentViews
