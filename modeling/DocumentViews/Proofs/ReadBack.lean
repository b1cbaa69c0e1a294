import DocumentViews.Proofs.Comparison
import DocumentViews.Proofs.Failure
import DocumentViews.Proofs.Numbering

set_option autoImplicit false

namespace DocumentViews

open LawfulDefinition

class ComparableDefinition (δ : Type) {γ : outParam Type} [Definition δ γ] : Prop where
  equivalent_self : ∀ definition : δ, Definition.equivalent .exact definition definition = true
  equivalent_fill : ∀ (comparison : Comparison) (definition other : δ) (generator : γ),
    Definition.equivalent comparison (Definition.fill definition generator) other =
      Definition.equivalent comparison definition other
  isTest_prepare : ∀ definition : δ, Definition.isTest (Definition.prepare definition) = Definition.isTest definition
  isTest_withId : ∀ (id : UInt32) (definition : δ),
    Definition.isTest (Definition.withId id definition) = Definition.isTest definition
  isTest_fill : ∀ (definition : δ) (generator : γ),
    Definition.isTest (Definition.fill definition generator) = Definition.isTest definition

open ComparableDefinition

instance : ComparableDefinition IndexDefinition where
  equivalent_self definition :=
    IndexDefinition.equivalent_iff.mpr ((IndexDefinition.equivalent_equivalence .exact).refl definition)
  equivalent_fill _ _ _ _ := by
    simp only [Definition.fill, IndexDefinition.fillFields]
    split <;> rfl
  isTest_prepare _ := rfl
  isTest_withId _ _ := rfl
  isTest_fill _ _ := by
    simp only [Definition.fill, IndexDefinition.fillFields]
    split <;> rfl

instance : ComparableDefinition TransformerDefinition where
  equivalent_self definition :=
    TransformerDefinition.equivalent_iff.mpr ((TransformerDefinition.equivalent_equivalence .exact).refl definition)
  equivalent_fill _ _ _ _ := rfl
  isTest_prepare _ := rfl
  isTest_withId _ _ := rfl
  isTest_fill _ _ := rfl

section Kind

variable {δ γ : Type} [Definition δ γ]

namespace Change

variable {current candidate : δ}

theorem between_noop (noop : between current candidate = .noop) :
    Definition.isTest current = false ∧ Definition.equivalent .exact current candidate = true := by
  unfold between at noop
  split at noop
  next => cases noop
  next noTest =>
    rw [Bool.or_eq_true, not_or, Bool.not_eq_true] at noTest
    split at noop
    next same => exact ⟨noTest.1, same⟩
    next =>
      split at noop
      next => cases noop
      next => cases noop

theorem between_not_create : between current candidate ≠ .create := by
  unfold between
  intro created
  split at created
  next => cases created
  next =>
    split at created
    next => cases created
    next => split at created <;> cases created

end Change

namespace Catalog

structure Stores (definition : δ) (id : UInt32) (catalog : Catalog δ γ) (entry : CatalogEntry δ γ) : Prop where
  live : catalog.entries.get? id = some entry
  named : foldName (Definition.name entry.definition) = foldName (Definition.name definition)
  noTest : Definition.isTest entry.definition = false
  equivalent : Definition.equivalent .exact entry.definition (Definition.withId id (Definition.prepare definition)) = true

-- Every other id is as before, with its definition, generator, names and mark.
structure Spares (id : UInt32) (before after : Catalog δ γ) : Prop where
  entries : ∀ other, other ≠ id → after.entries.get? other = before.entries.get? other
  marks : ∀ other, other ≠ id → after.isNew other = before.isNew other
  names : ∀ (folded : String) (other : UInt32), other ≠ id →
    (after.names.get? folded = some other ↔ before.names.get? folded = some other)

structure ReadsBack (definition : δ) (id : UInt32) (before after : Catalog δ γ) : Prop where
  stored : ∃ stored, after.get? (.name (Definition.name definition)) = some stored ∧ Definition.id stored = id ∧
    Definition.equivalent .exact stored (Definition.withId id (Definition.prepare definition)) = true
  generator : ∃ generator, after.generator? (.name (Definition.name definition)) = some generator
  spares : before.Spares id after

variable {before after catalog : Catalog δ γ} {definition : δ} {id : UInt32} {entry : CatalogEntry δ γ}

omit [Definition δ γ] in
theorem mark_spares (catalog : Catalog δ γ) {marked other : UInt32} (different : other ≠ marked) :
    (catalog.markNew marked).2.isNew other = catalog.isNew other := by
  simp only [markNew]
  split
  next => simp only [isNew, SortedMap.contains, SortedMap.get_insert, if_neg different]
  next => rfl

theorem spares_place (catalog : Catalog δ γ) (definition : δ) (generator : γ) (other : UInt32)
    (different : other ≠ Definition.id definition) :
    (catalog.place definition generator).entries.get? other = catalog.entries.get? other ∧
      (catalog.place definition generator).isNew other = catalog.isNew other := by
  refine ⟨?_, rfl⟩
  rw [place, SortedMap.get_insert, if_neg different]

def Gains (definition : δ) (id : UInt32) (before after : Catalog δ γ) : Prop :=
  (∃ entry, after.Stores definition id entry) ∧ ∀ other, other ≠ id →
    after.entries.get? other = before.entries.get? other ∧ after.isNew other = before.isNew other

theorem Stores.mark (stores : catalog.Stores definition id entry) (marked : UInt32) :
    (catalog.markNew marked).2.Stores definition id entry := by
  refine ⟨?_, stores.named, stores.noTest, stores.equivalent⟩
  rw [catalog.mark_new_entries]
  exact stores.live

theorem Gains.mark (gains : Gains definition id before after) : Gains definition id before (after.markNew id).2 := by
  obtain ⟨⟨entry, stores⟩, others⟩ := gains
  refine ⟨⟨entry, stores.mark id⟩, fun other different => ?_⟩
  rw [after.mark_new_entries, after.mark_spares different]
  exact others other different

variable [LawfulDefinition δ γ]

theorem spares_of_entries (consistent : before.Consistent) (afterConsistent : after.Consistent)
    (entries : ∀ other, other ≠ id → after.entries.get? other = before.entries.get? other)
    (marks : ∀ other, other ≠ id → after.isNew other = before.isNew other) : before.Spares id after where
  entries := entries
  marks := marks
  names folded other different := by
    rw [consistent.names_exact, afterConsistent.names_exact, entries other different]

theorem Stores.found (stores : catalog.Stores definition id entry) (consistent : catalog.Consistent) :
    catalog.find? (.name (Definition.name definition)) = some entry := by
  have held := (consistent.names_exact (foldName (Definition.name definition)) id).mpr ⟨entry, stores.live, stores.named⟩
  rw [find_by_name, held, Option.bind_some, stores.live]

theorem Stores.reads_back (stores : after.Stores definition id entry) (consistent : after.Consistent)
    (spares : before.Spares id after) : ReadsBack definition id before after where
  stored := by
    refine ⟨entry.definition, ?_, consistent.definition_id stores.live, stores.equivalent⟩
    rw [get?, stores.found consistent]
    rfl
  generator := ⟨entry.generator, by rw [generator?, stores.found consistent]; rfl⟩
  spares := spares

theorem Gains.reads_back (gains : Gains definition id before after) (consistent : before.Consistent)
    (afterConsistent : after.Consistent) : ReadsBack definition id before after := by
  obtain ⟨⟨entry, stores⟩, others⟩ := gains
  refine stores.reads_back afterConsistent ?_
  exact spares_of_entries consistent afterConsistent (fun other different => (others other different).1)
    fun other different => (others other different).2

variable [ComparableDefinition δ]

theorem Stores.classified (stores : catalog.Stores definition id entry) (consistent : catalog.Consistent)
    (noTest : Definition.isTest definition = false) {shelf : Shelf δ γ} (own : shelf.catalog = catalog) :
    shelf.classify definition = (.noop, Definition.withId id (Definition.prepare definition)) := by
  have current : shelf.catalog.get? (.name (Definition.name (Definition.prepare definition))) = some entry.definition := by
    rw [name_prepare, own, get?, stores.found consistent]
    rfl
  have sameId : Definition.id entry.definition = id := consistent.definition_id stores.live
  rw [Shelf.classify, current, Change.classify]
  simp only [Change.between, sameId, stores.noTest, isTest_withId, isTest_prepare, noTest, stores.equivalent, Bool.or_self,
    Bool.false_eq_true, if_false, if_true]

theorem place_stores (catalog : Catalog δ γ) (definition : δ) (id : UInt32) (generator : γ)
    (noTest : Definition.isTest definition = false) :
    ∃ entry, (catalog.place (Definition.fill (Definition.withId id (Definition.prepare definition)) generator) generator).Stores
      definition id entry := by
  refine ⟨⟨Definition.fill (Definition.withId id (Definition.prepare definition)) generator, generator, catalog.installs⟩,
    ?_, ?_, ?_, ?_⟩
  · rw [place, SortedMap.get_insert, if_pos (by rw [id_fill, id_withId])]
  · rw [name_fill, name_withId, name_prepare]
  · rw [isTest_fill, isTest_withId, isTest_prepare, noTest]
  · rw [equivalent_fill, equivalent_self]

theorem gains_place (catalog : Catalog δ γ) (definition : δ) (id : UInt32) (generator : γ)
    (noTest : Definition.isTest definition = false) : Gains definition id catalog
      (catalog.place (Definition.fill (Definition.withId id (Definition.prepare definition)) generator) generator) := by
  refine ⟨catalog.place_stores definition id generator noTest, fun other different => ?_⟩
  refine catalog.spares_place _ generator other ?_
  rwa [id_fill, id_withId]

end Catalog

namespace Shelf

variable {extensions : Extensions} {shelf : Shelf δ γ} {definition : δ} {marksNew : Bool}

theorem create_and_persist_ok {text : String} (done : (shelf.createAndPersist extensions definition).1 = .ok text) :
    ∃ generator,
      let filled := Definition.fill (Definition.prepare (shelf.identify definition).1) generator
      text = Definition.name filled ∧
        shelf.catalog.checkNameFree (Definition.name filled) (Definition.id filled) none = .ok () ∧
        (shelf.createAndPersist extensions definition).2.catalog = shelf.catalog.place filled generator := by
  unfold createAndPersist at done ⊢
  dsimp only at done ⊢
  split at done
  next => cases done
  next installed catalog compiled =>
    rw [identify_catalog] at compiled
    obtain ⟨generator, _, rfl, accepted⟩ := Catalog.compile_into_ok compiled
    obtain ⟨_, free, rfl⟩ := Catalog.install_ok accepted
    obtain ⟨_, _, named⟩ := map_ok done
    exact ⟨generator, named.symm, free, rfl⟩

theorem carry_out_change {change : Change} {candidate : δ} {outcome : PutOutcome}
    (done : (shelf.carryOut extensions marksNew change candidate).1 = .ok outcome) :
    outcome.change = change ∧ outcome.name = Definition.name candidate := by
  cases change with
  | noop =>
      cases done
      exact ⟨rfl, rfl⟩
  | updateWithoutRecompile | update | create =>
      obtain ⟨_, _, rfl⟩ := map_ok done
      exact ⟨rfl, rfl⟩

theorem update_without_recompile_ok (done : (shelf.updateWithoutRecompile definition).1 = .ok ()) :
    ∃ catalog, shelf.catalog.replaceDefinition definition = .ok catalog ∧
      (shelf.updateWithoutRecompile definition).2.catalog = catalog := by
  simp only [updateWithoutRecompile] at done ⊢
  split at done
  next => cases done
  next catalog replaced => exact ⟨catalog, replaced, rfl⟩

variable [LawfulDefinition δ γ]

theorem carry_out_consistent (consistent : shelf.catalog.Consistent) (change : Change) (candidate : δ) :
    (shelf.carryOut extensions marksNew change candidate).2.catalog.Consistent := by
  have chain : ComesFrom (.lenient δ) extensions shelf (shelf.carryOut extensions marksNew change candidate).2 :=
    carry_out_comes_from marksNew (fun _ => trivial) fun _ _ _ => trivial
  generalize (shelf.carryOut extensions marksNew change candidate).2 = after at chain
  induction chain with
  | refl => exact consistent
  | tail _ step ih => exact Catalog.comes_from_consistent ih (step_changes step)

-- An id of zero that is live is not kept by an update, which then runs into its own name.
theorem update_zero_fails (counted : shelf.ids.next ≠ 0)
    (named : shelf.catalog.names.get? (foldName (Definition.name definition)) = some 0) (text : String) :
    (shelf.createAndPersist extensions (Definition.withId 0 (Definition.prepare definition))).1 ≠ .ok text := by
  intro done
  obtain ⟨generator, _, free, _⟩ := create_and_persist_ok done
  have issued : Definition.id (shelf.identify (Definition.withId 0 (Definition.prepare definition))).1 = shelf.ids.next :=
    identify_next shelf (id_withId _ _)
  obtain ⟨newId, known⟩ := identified (Definition.withId 0 (Definition.prepare definition)) shelf
  rw [name_fill, name_prepare, known, name_withId, name_withId, name_prepare] at free
  rcases Catalog.check_name_free_ok free named with same | displaced
  · rw [id_fill, id_prepare, ← known, issued] at same
    exact counted same.symm
  · cases displaced

variable [ComparableDefinition δ]

theorem create_and_persist_gains {text : String} (noTest : Definition.isTest definition = false) {id : UInt32}
    (done : (shelf.createAndPersist extensions (Definition.withId id (Definition.prepare definition))).1 = .ok text) :
    Catalog.Gains definition (if id = 0 then shelf.ids.next else id) shelf.catalog
      (shelf.createAndPersist extensions (Definition.withId id (Definition.prepare definition))).2.catalog := by
  obtain ⟨generator, _, _, catalog⟩ := create_and_persist_ok done
  have identified : (shelf.identify (Definition.withId id (Definition.prepare definition))).1 =
      Definition.withId (if id = 0 then shelf.ids.next else id) (Definition.prepare definition) := by
    rw [identify, id_withId]
    split
    next => exact withId_withId _ _ _
    next => rfl
  rw [identified, prepare_withId, prepare_prepare] at catalog
  rw [catalog]
  exact Catalog.gains_place _ definition _ generator noTest

theorem create_gains (noTest : Definition.isTest definition = false) (counted : shelf.ids.next ≠ 0) {id : UInt32}
    (done : (shelf.create extensions marksNew (Definition.prepare definition)).1 = .ok id) :
    Catalog.Gains definition id shelf.catalog
      (shelf.create extensions marksNew (Definition.prepare definition)).2.catalog := by
  obtain rfl := create_answers done
  unfold create at done ⊢
  obtain ⟨_, persisted, _⟩ := map_ok done
  have gains := create_and_persist_gains noTest persisted
  rw [IdCounter.allocate, if_neg counted] at gains
  dsimp only
  split
  next => exact gains.mark
  next => exact gains

-- After the counter has begun anew, the first definition is created under the second id.
theorem create_stores_next (noTest : Definition.isTest definition = false) (anew : shelf.ids.next = 0) {id : UInt32}
    (done : (shelf.create extensions marksNew (Definition.prepare definition)).1 = .ok id) :
    id = 0 ∧ ∃ entry, (shelf.create extensions marksNew (Definition.prepare definition)).2.catalog.Stores definition 1 entry := by
  refine ⟨(create_answers done).trans anew, ?_⟩
  unfold create at done ⊢
  obtain ⟨_, persisted, _⟩ := map_ok done
  obtain ⟨⟨entry, stores⟩, _⟩ := create_and_persist_gains noTest persisted
  have issued : (if shelf.ids.allocate.1 = 0 then shelf.ids.allocate.2.next else shelf.ids.allocate.1) = 1 := by
    rw [IdCounter.allocate, anew]
    rfl
  rw [issued] at stores
  refine ⟨entry, ?_⟩
  dsimp only
  split
  next => exact stores.mark _
  next => exact stores

theorem update_without_recompile_gains (noTest : Definition.isTest definition = false) {id : UInt32}
    (done : (shelf.updateWithoutRecompile (Definition.withId id (Definition.prepare definition))).1 = .ok ()) :
    Catalog.Gains definition id shelf.catalog
      (shelf.updateWithoutRecompile (Definition.withId id (Definition.prepare definition))).2.catalog := by
  obtain ⟨catalog, replaced, updated⟩ := update_without_recompile_ok done
  rw [updated]
  obtain ⟨entry, found, _, _, rfl⟩ := Catalog.replace_definition_ok replaced
  refine ⟨⟨{ entry with definition := Definition.withId id (Definition.prepare definition) }, ?_, ?_, ?_, ?_⟩, ?_⟩
  · simp
  · rw [name_withId, name_prepare]
  · rw [isTest_withId, isTest_prepare, noTest]
  · exact equivalent_self _
  · intro other different
    refine ⟨?_, rfl⟩
    simp [different]

theorem update_gains (noTest : Definition.isTest definition = false) (counted : shelf.ids.next ≠ 0) {id : UInt32}
    (named : shelf.catalog.names.get? (foldName (Definition.name definition)) = some id) {text : String}
    (done : (shelf.createAndPersist extensions (Definition.withId id (Definition.prepare definition))).1 = .ok text) :
    Catalog.Gains definition id shelf.catalog
      (shelf.createAndPersist extensions (Definition.withId id (Definition.prepare definition))).2.catalog := by
  have gains := create_and_persist_gains noTest done
  by_cases none : id = 0
  · subst none
    exact absurd done (update_zero_fails counted named text)
  · rwa [if_neg none] at gains

theorem carry_out_gains (consistent : shelf.catalog.Consistent) (noTest : Definition.isTest definition = false)
    (counted : shelf.ids.next ≠ 0) {outcome : PutOutcome}
    (done : (shelf.carryOut extensions marksNew (shelf.classify definition).1 (shelf.classify definition).2).1 =
      .ok outcome) :
    Catalog.Gains definition outcome.id shelf.catalog
      (shelf.carryOut extensions marksNew (shelf.classify definition).1 (shelf.classify definition).2).2.catalog := by
  cases current : shelf.catalog.find? (.name (Definition.name definition)) with
  | none =>
      rw [classify_unknown current] at done ⊢
      obtain ⟨id, answered, rfl⟩ := map_ok done
      exact create_gains noTest counted answered
  | some entry =>
      obtain ⟨sameName, _⟩ := consistent.found_by_own_id current
      rw [Catalog.find_by_name, Option.bind_eq_some_iff] at current
      obtain ⟨id, named, found⟩ := current
      rw [classify_held consistent named found] at done ⊢
      dsimp only at done ⊢
      cases change : Change.between entry.definition (Definition.withId id (Definition.prepare definition)) with
      | noop =>
          rw [change] at done
          cases done
          obtain ⟨storedNoTest, same⟩ := Change.between_noop change
          rw [id_withId]
          exact ⟨⟨entry, found, sameName, storedNoTest, same⟩, fun _ _ => ⟨rfl, rfl⟩⟩
      | updateWithoutRecompile =>
          rw [change] at done
          obtain ⟨_, answered, rfl⟩ := map_ok done
          rw [id_withId]
          exact update_without_recompile_gains noTest answered
      | update =>
          rw [change] at done
          obtain ⟨_, answered, rfl⟩ := map_ok done
          rw [id_withId]
          exact update_gains noTest counted named answered
      | create => exact absurd change Change.between_not_create

theorem carry_out_misses (consistent : shelf.catalog.Consistent) (noTest : Definition.isTest definition = false)
    (anew : shelf.ids.next = 0) (ahead : ∀ id ∈ shelf.catalog.ids, id < shelf.ids.next) {outcome : PutOutcome}
    (done : (shelf.carryOut extensions marksNew (shelf.classify definition).1 (shelf.classify definition).2).1 =
      .ok outcome) : ¬ Catalog.ReadsBack definition outcome.id shelf.catalog
      (shelf.carryOut extensions marksNew (shelf.classify definition).1 (shelf.classify definition).2).2.catalog := by
  have afterConsistent : (shelf.carryOut extensions marksNew (shelf.classify definition).1
      (shelf.classify definition).2).2.catalog.Consistent := carry_out_consistent consistent _ _
  -- Nothing is live, for no id is below zero.
  have absent : shelf.catalog.find? (.name (Definition.name definition)) = none := by
    refine Option.eq_none_iff_forall_ne_some.mpr fun entry found => ?_
    have live := (consistent.found_by_own_id found).2
    rw [Catalog.find_by_id] at live
    have below := ahead _ ((shelf.catalog.mem_ids _).mpr ((shelf.catalog.isLive_iff _).mpr ⟨entry, live⟩))
    rw [anew] at below
    exact UInt32.not_lt_zero below
  rw [classify_unknown absent] at done afterConsistent ⊢
  obtain ⟨id, answered, rfl⟩ := map_ok done
  obtain ⟨rfl, entry, stores⟩ := create_stores_next noTest anew answered
  rintro ⟨⟨stored, found, sameId, _⟩, _, _⟩
  have current := stores.found afterConsistent
  rw [Catalog.get?] at found
  obtain ⟨other, foundEntry, rfl⟩ := Option.map_eq_some_iff.mp found
  cases current.symm.trans foundEntry
  rw [afterConsistent.definition_id stores.live] at sameId
  cases sameId

theorem classified_test (consistent : shelf.catalog.Consistent) (isTest : Definition.isTest definition = true)
    (live : shelf.catalog.containsName (Definition.name definition) = true) :
    (shelf.classify definition).1 = .update := by
  rw [Catalog.containsName, SortedMap.contains, Option.isSome_iff_exists] at live
  obtain ⟨id, named⟩ := live
  obtain ⟨entry, found, _⟩ := (consistent.names_exact _ id).mp named
  rw [classify_held consistent named found]
  simp [Change.between, isTest_withId, isTest_prepare, isTest]

end Shelf

end Kind

namespace Registry

variable {registry : Registry}

-- Putting an index has stored it, has changed nothing else, and is not done twice.
structure PutsIndex (definition : IndexDefinition) (outcome : PutOutcome) (before after : Registry) : Prop where
  readsBack : before.indexes.ReadsBack definition outcome.id after.indexes
  transformers : after.transformers = before.transformers
  again : ∀ caller, after.putIndex caller definition = (.ok ⟨outcome.id, definition.name, .noop⟩, after)

structure PutsTransformer (definition : TransformerDefinition) (outcome : PutOutcome) (before after : Registry) : Prop where
  readsBack : before.transformers.ReadsBack definition outcome.id after.transformers
  indexes : after.indexes = before.indexes
  again : after.putTransformer definition = (.ok ⟨outcome.id, definition.name, .noop⟩, after)

theorem put_index_again {definition : IndexDefinition} (named : Blank.isBlankText definition.name = false) {id : UInt32}
    (classified : registry.indexShelf.classify definition = (.noop, Definition.withId id (Definition.prepare definition)))
    (caller : Thread) : registry.putIndex caller definition = (.ok ⟨id, definition.name, .noop⟩, registry) := by
  have allowed : registry.putRefusal? caller definition = none := by
    rw [putRefusal?, classifyIndex, classified, if_neg (by simp [named])]
    rfl
  rw [put_index_eq, allowed]
  dsimp only [classifyIndex]
  rw [classified]
  rfl

theorem put_transformer_again {definition : TransformerDefinition} (named : checkName definition.name = .ok ())
    {id : UInt32} (classified : registry.transformerShelf.classify definition =
      (.noop, Definition.withId id (Definition.prepare definition))) :
    registry.putTransformer definition = (.ok ⟨id, definition.name, .noop⟩, registry) := by
  simp only [putTransformer, named, classifyTransformer, classified]
  rfl

theorem put_index_accepted {caller : Thread} {definition : IndexDefinition} {outcome : PutOutcome} {after : Registry}
    (put : registry.putIndex caller definition = (.ok outcome, after)) :
    Blank.isBlankText definition.name = false ∧
      (registry.indexShelf.carryOut registry.extensions true (registry.classifyIndex definition).1
        (registry.classifyIndex definition).2).1 = .ok outcome ∧
      after = registry.withIndexShelf (registry.indexShelf.carryOut registry.extensions true
        (registry.classifyIndex definition).1 (registry.classifyIndex definition).2).2 := by
  rw [put_index_eq] at put
  cases refused : registry.putRefusal? caller definition with
  | some error =>
      rw [refused] at put
      cases put
  | none =>
      rw [refused] at put
      obtain ⟨answered, changed⟩ := Prod.mk.inj put
      refine ⟨?_, answered, changed.symm⟩
      refine Bool.eq_false_iff.mpr fun blank => ?_
      rw [putRefusal?, if_pos blank] at refused
      cases refused

theorem put_transformer_accepted {definition : TransformerDefinition} {outcome : PutOutcome} {after : Registry}
    (put : registry.putTransformer definition = (.ok outcome, after)) :
    checkName definition.name = .ok () ∧
      (registry.transformerShelf.carryOut registry.extensions false (registry.classifyTransformer definition).1
        (registry.classifyTransformer definition).2).1 = .ok outcome ∧
      after = registry.withTransformerShelf (registry.transformerShelf.carryOut registry.extensions false
        (registry.classifyTransformer definition).1 (registry.classifyTransformer definition).2).2 := by
  simp only [putTransformer] at put
  split at put
  next => cases put
  next named =>
    obtain ⟨answered, changed⟩ := Prod.mk.inj put
    exact ⟨named, answered, changed.symm⟩

theorem put_index_reads_back_iff (consistent : registry.Consistent) (ahead : registry.CountsAhead) {caller : Thread}
    {definition : IndexDefinition} (noTest : definition.isTest = false) {outcome : PutOutcome} {after : Registry}
    (put : registry.putIndex caller definition = (.ok outcome, after)) :
    PutsIndex definition outcome registry after ↔ registry.ids.next ≠ 0 := by
  obtain ⟨named, answered, rfl⟩ := put_index_accepted put
  have isConsistent : registry.indexShelf.catalog.Consistent := consistent.1
  have afterConsistent : (registry.indexShelf.carryOut registry.extensions true (registry.classifyIndex definition).1
      (registry.classifyIndex definition).2).2.catalog.Consistent := Shelf.carry_out_consistent isConsistent _ _
  constructor
  · intro puts anew
    exact Shelf.carry_out_misses isConsistent noTest anew ahead.indexes answered puts.readsBack
  · intro counted
    have gains := Shelf.carry_out_gains isConsistent noTest counted answered
    refine ⟨gains.reads_back isConsistent afterConsistent, rfl, fun other => ?_⟩
    obtain ⟨⟨entry, stores⟩, _⟩ := gains
    exact put_index_again named (stores.classified afterConsistent noTest rfl) other

theorem put_transformer_reads_back_iff (consistent : registry.Consistent) (ahead : registry.CountsAhead)
    {definition : TransformerDefinition} {outcome : PutOutcome} {after : Registry}
    (put : registry.putTransformer definition = (.ok outcome, after)) :
    PutsTransformer definition outcome registry after ↔ registry.ids.next ≠ 0 := by
  obtain ⟨named, answered, rfl⟩ := put_transformer_accepted put
  have isConsistent : registry.transformerShelf.catalog.Consistent := consistent.2
  have afterConsistent : (registry.transformerShelf.carryOut registry.extensions false
      (registry.classifyTransformer definition).1 (registry.classifyTransformer definition).2).2.catalog.Consistent :=
    Shelf.carry_out_consistent isConsistent _ _
  constructor
  · intro puts anew
    exact Shelf.carry_out_misses isConsistent rfl anew ahead.transformers answered puts.readsBack
  · intro counted
    have gains := Shelf.carry_out_gains isConsistent rfl counted answered
    refine ⟨gains.reads_back isConsistent afterConsistent, rfl, ?_⟩
    obtain ⟨⟨entry, stores⟩, _⟩ := gains
    exact put_transformer_again named (stores.classified afterConsistent rfl rfl)

/-- A put that succeeds while the counter is ahead of all live ids has stored its definition under the id that it answers,
has spared everything else, and is not done twice, exactly unless the counter has begun anew at zero. A test index is
always compiled anew. -/
theorem opened_run_put_reads_back {settings : RegistrySettings} {extensions : Extensions} {storage : ResultStorage}
    {disk : Disk} {opened : Registry} (started : openOn settings extensions storage disk = .ok opened) {events : List Event}
    (ahead : (opened.run events).CountsAhead) :
    (∀ caller definition outcome after, (opened.run events).putIndex caller definition = (.ok outcome, after) →
      (definition.isTest = false →
        (PutsIndex definition outcome (opened.run events) after ↔ (opened.run events).ids.next ≠ 0)) ∧
      (definition.isTest = true → (opened.run events).indexes.containsName definition.name = true →
        outcome.change = .update)) ∧
    ∀ definition outcome after, (opened.run events).putTransformer definition = (.ok outcome, after) →
      (PutsTransformer definition outcome (opened.run events) after ↔ (opened.run events).ids.next ≠ 0) := by
  have consistent := run_consistent (open_on_consistent started) events
  refine ⟨fun caller definition outcome after put => ⟨fun noTest => ?_, fun isTest live => ?_⟩,
    fun definition outcome after put => ?_⟩
  · exact put_index_reads_back_iff consistent ahead noTest put
  · obtain ⟨_, answered, _⟩ := put_index_accepted put
    have isConsistent : (opened.run events).indexShelf.catalog.Consistent := consistent.1
    rw [(Shelf.carry_out_change answered).1]
    exact Shelf.classified_test isConsistent isTest live
  · exact put_transformer_reads_back_iff consistent ahead put

theorem opened_run_put_reads_back_created :
    let dogs : IndexDefinition := .ofSingleMap "Dogs" "from d in docs select new \x7b d.Name \x7d"
    let cats : IndexDefinition := .ofSingleMap "Cats" "from d in docs.Cats select new \x7b d.Name \x7d"
    let events : List Event := [.putIndex "main" dogs]
    ∃ opened, openOn .standard .builtins .empty .absent = .ok opened ∧ (opened.run events).CountsAhead ∧
      ∃ after, (opened.run events).putIndex "main" cats = (.ok ⟨2, "Cats", .create⟩, after) ∧
        PutsIndex cats ⟨2, "Cats", .create⟩ (opened.run events) after := by
  intro dogs cats events
  have started : openOn .standard .builtins .empty .absent = .ok (fresh .standard .builtins .empty) :=
    open_on_empty rfl _ _ rfl
  have ahead : ((fresh .standard .builtins .empty).run events).CountsAhead := by decide +kernel
  have answered : (((fresh .standard .builtins .empty).run events).putIndex "main" cats).1 = .ok ⟨2, "Cats", .create⟩ :=
    ok_of_to_option (by decide +kernel)
  have put : ((fresh .standard .builtins .empty).run events).putIndex "main" cats =
      (.ok ⟨2, "Cats", .create⟩, (((fresh .standard .builtins .empty).run events).putIndex "main" cats).2) :=
    Prod.ext answered rfl
  have counted : ((fresh .standard .builtins .empty).run events).ids.next ≠ 0 := by decide +kernel
  obtain ⟨indexes, _⟩ := opened_run_put_reads_back started ahead
  exact ⟨_, started, ahead, _, put, ((indexes "main" cats _ _ put).1 rfl).mpr counted⟩

-- The counter hands out zero, which is no id, so the definition is compiled under the next
-- one.
theorem opened_run_put_misses :
    let dogs : IndexDefinition := .ofSingleMap "Dogs" "from d in docs select new \x7b d.Name \x7d"
    let cats : IndexDefinition := .ofSingleMap "Cats" "from d in docs.Cats select new \x7b d.Name \x7d"
    let events : List Event :=
      [.createIndex { dogs with id := IdCounter.lastId }, .removeIndex IdCounter.lastId, .allocateId]
    ∃ opened, openOn .standard .builtins .empty .absent = .ok opened ∧ (opened.run events).CountsAhead ∧
      (opened.run events).ids.next < IdCounter.lastId ∧
      ∃ after, (opened.run events).putIndex "main" cats = (.ok ⟨0, "Cats", .create⟩, after) ∧
        (after.indexes.get? (.name "Cats")).map IndexDefinition.id = some 1 ∧
        (after.putIndex "main" cats).1 = .ok ⟨1, "Cats", .noop⟩ := by
  intro dogs cats events
  have started : openOn .standard .builtins .empty .absent = .ok (fresh .standard .builtins .empty) :=
    open_on_empty rfl _ _ rfl
  have answered : (((fresh .standard .builtins .empty).run events).putIndex "main" cats).1 = .ok ⟨0, "Cats", .create⟩ :=
    ok_of_to_option (by decide +kernel)
  refine ⟨_, started, by decide +kernel, by decide +kernel, _, Prod.ext answered rfl, ?_, ?_⟩
  · decide +kernel
  · exact ok_of_to_option (by decide +kernel)

end Registry
end DocumentViews
