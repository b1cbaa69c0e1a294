import DocumentViews.Proofs.Entries
import DocumentViews.Proofs.ReadBack
import DocumentViews.Proofs.Vetted

set_option autoImplicit false

namespace DocumentViews

open LawfulDefinition ComparableDefinition

section Kind

variable {δ γ : Type} [Definition δ γ]

def Prepared (definition : δ) : Prop := Definition.prepare definition = definition

def Rules.prepared (δ : Type) {γ : Type} [Definition δ γ] : Rules δ where
  compiles := Prepared
  replaces _ := Prepared
  keepsFiles := True
  removes _ := True

namespace Shelf

def Settles (shelf : Shelf δ γ) (definition : δ) : Prop :=
  Definition.id (shelf.classify definition).2 = Definition.id definition ∧
    shelf.classify (shelf.classify definition).2 = shelf.classify definition

variable [LawfulDefinition δ γ] {shelf : Shelf δ γ} {extensions : Extensions} {id : UInt32} {stored : δ}

theorem classify_copy (consistent : shelf.catalog.Consistent) (live : shelf.catalog.get? (.id id) = some stored) {copy : δ}
    (same : Definition.prepare copy = Definition.prepare stored) :
    shelf.classify copy = (Change.between stored (Definition.prepare stored), Definition.prepare stored) := by
  obtain ⟨entry, found, rfl⟩ := Catalog.live_of_id live
  have sameName : Definition.name copy = Definition.name entry.definition := by
    rw [← name_prepare copy, same, name_prepare]
  have named := (consistent.names_exact (foldName (Definition.name copy)) id).mpr ⟨entry, found, by rw [sameName]⟩
  have ownId : Definition.withId id (Definition.prepare entry.definition) = Definition.prepare entry.definition := by
    rw [← consistent.definition_id found, ← id_prepare entry.definition, withId_id]
  rw [classify_held consistent named found, same, ownId]

theorem settles (consistent : shelf.catalog.Consistent) (live : shelf.catalog.get? (.id id) = some stored) :
    shelf.Settles stored := by
  rw [Settles, classify_copy consistent live rfl]
  exact ⟨id_prepare stored, classify_copy consistent live (prepare_prepare stored)⟩

end Shelf

variable [LawfulDefinition δ γ] {extensions : Extensions}

theorem prepared_fill {definition : δ} (prepared : Prepared definition) (generator : γ) :
    Prepared (Definition.fill definition generator) := by
  rw [Prepared, prepare_fill, prepared]

theorem prepared_invariant : EntryInvariant (.prepared δ) extensions
    fun _ (entry : CatalogEntry δ γ) => Prepared entry.definition where
  compiled prepared _ _ := prepared_fill prepared _
  replaced prepared _ := prepared
  filled prepared := prepared_fill prepared _

theorem Shelf.add_all {rules : Rules δ} {holds : UInt32 → CatalogEntry δ γ → Prop}
    (invariant : EntryInvariant rules extensions holds) {shelf : Shelf δ γ} (all : shelf.catalog.All holds) {definition : δ}
    (compiles : ∀ id, rules.compiles (Definition.prepare (Definition.withId id definition)))
    (replaces : ∀ stored, rules.replaces stored definition) :
    (shelf.add extensions definition).2.catalog.All holds := by
  unfold add
  split
  · split
    · exact all
    next catalog replaced =>
      obtain ⟨entry, found, _, _, rfl⟩ := Catalog.replace_definition_ok replaced
      exact all.insert (invariant.replaced (replaces entry.definition) (all _ entry found)) rfl
  · dsimp only
    split
    · rw [identify_catalog]
      exact all
    next filled catalog compiled =>
      obtain ⟨id, identified⟩ := identified definition shelf
      obtain ⟨generator, found, rfl, accepted⟩ := Catalog.compile_into_ok compiled
      obtain ⟨_, _, rfl⟩ := Catalog.install_ok accepted
      rw [identify_catalog, identified] at *
      exact all.place invariant (compiles id) found

end Kind

-- Resolving the analyzers is the only thing that preparing does, and analyzers are compared
-- by name.
theorem IndexDefinition.equivalent_resolved_iff (comparison : Comparison) (definition : IndexDefinition) :
    definition.equivalent comparison definition.resolveAnalyzers = true ↔ Prepared definition := by
  constructor
  · intro same
    have options := (equivalent_iff.mp same).options
    have analyzers : definition.analyzers = definition.analyzers.mapValues Analyzer.resolve := by
      simp only [IndexDefinition.options, Prod.mk.injEq] at options
      exact options.2.2.2.1
    change { definition with analyzers := definition.analyzers.mapValues Analyzer.resolve } = definition
    rw [← analyzers]
  · intro prepared
    have same : definition.resolveAnalyzers = definition := prepared
    rw [same]
    exact equivalent_iff.mpr ((equivalent_equivalence comparison).refl definition)

theorem Change.between_resolved {definition : IndexDefinition} (noTest : definition.isTest = false) :
    (Prepared definition → Change.between definition definition.resolveAnalyzers = .noop) ∧
      (¬ Prepared definition → Change.between definition definition.resolveAnalyzers = .update) := by
  have noTests : (Definition.isTest definition || Definition.isTest definition.resolveAnalyzers) = false := by
    change (definition.isTest || definition.isTest) = false
    rw [noTest, Bool.or_self]
  have compared := fun comparison => definition.equivalent_resolved_iff comparison
  constructor
  · intro prepared
    have exactly : Definition.equivalent .exact definition definition.resolveAnalyzers = true := (compared .exact).mpr prepared
    rw [Change.between, noTests, exactly]
    rfl
  · intro unprepared
    have exactly : Definition.equivalent .exact definition definition.resolveAnalyzers = false :=
      Bool.eq_false_iff.mpr fun same => unprepared ((compared .exact).mp same)
    have relaxed : Definition.equivalent .relaxed definition definition.resolveAnalyzers = false :=
      Bool.eq_false_iff.mpr fun same => unprepared ((compared .relaxed).mp same)
    rw [Change.between, noTests, exactly, relaxed]
    rfl

def IndexDefinition.QualifiesAnalyzers (definition : IndexDefinition) : Prop :=
  ∀ field analyzer, definition.analyzers.get? field = some analyzer → analyzer ∉ Analyzer.builtins

theorem IndexDefinition.prepared_iff (definition : IndexDefinition) :
    Prepared definition ↔ definition.QualifiesAnalyzers := by
  have fixed : ∀ analyzer, Analyzer.resolve analyzer = analyzer ↔ analyzer ∉ Analyzer.builtins := by
    intro analyzer
    by_cases builtin : analyzer ∈ Analyzer.builtins
    · rw [Analyzer.resolve, if_pos (List.contains_iff_mem.mpr builtin)]
      refine iff_of_false (fun same => ?_) (not_not_intro builtin)
      have lengths : "analysis.".length + analyzer.length = analyzer.length := by
        rw [← String.length_append, ← Analyzer.qualify, same]
      have longer : "analysis.".length = 9 := rfl
      omega
    · rw [Analyzer.resolve, if_neg (mt List.contains_iff_mem.mp builtin)]
      exact iff_of_true rfl builtin
  constructor
  · intro prepared field analyzer held
    have analyzers : definition.analyzers.mapValues Analyzer.resolve = definition.analyzers :=
      congrArg IndexDefinition.analyzers prepared
    have resolved := congrArg (SortedMap.get? · field) analyzers
    simp only [SortedMap.get_map_values, held, Option.map_some, Option.some.injEq] at resolved
    exact (fixed analyzer).mp resolved
  · intro qualified
    have analyzers : definition.analyzers.mapValues Analyzer.resolve = definition.analyzers := by
      apply SortedMap.eq_of_get
      intro field
      rw [SortedMap.get_map_values]
      cases held : definition.analyzers.get? field with
      | none => rfl
      | some analyzer => exact congrArg some ((fixed analyzer).mpr (qualified field analyzer held))
    change { definition with analyzers := definition.analyzers.mapValues Analyzer.resolve } = definition
    rw [analyzers]

def Event.QualifiesAnalyzers : Event → Prop
  | addIndex definition => definition.QualifiesAnalyzers
  | updateIndex definition => definition.QualifiesAnalyzers
  | _ => True

namespace Registry

def IndexesPrepared (registry : Registry) : Prop :=
  registry.indexes.All fun _ entry => Prepared entry.definition

theorem allows_prepared {registry : Registry} (all : registry.IndexesPrepared) {event : Event}
    (qualifies : event.QualifiesAnalyzers) (stores : ∀ definition, event ≠ .addIndex definition) :
    registry.Allows ⟨.prepared _, .lenient _, False⟩ event := by
  cases event with
  | createIndex definition => exact fun id => prepare_prepare (Definition.withId id definition)
  | addIndex definition => exact absurd rfl (stores definition)
  | putIndex caller definition =>
      refine fun _ => ⟨fun id => prepare_prepare _, fun _ _ _ => ?_⟩
      exact registry.indexShelf.classified_prepared definition
  | updateIndex definition => exact fun _ _ => definition.prepared_iff.mpr qualifies
  | replaceIndex caller oldName newName =>
      intro _ definition found
      obtain ⟨id, entry, _, held, rfl⟩ := Catalog.live_of_name found
      exact promoted_prepared (all id entry held) newName
  | _ => simp [Allows, Rules.prepared, Rules.lenient]

theorem perform_prepared {registry : Registry} (all : registry.IndexesPrepared) {event : Event}
    (qualifies : event.QualifiesAnalyzers) : (registry.perform event).2.IndexesPrepared := by
  by_cases adds : ∃ definition, event = .addIndex definition
  · obtain ⟨definition, rfl⟩ := adds
    have before : registry.indexShelf.catalog.All fun _ entry => Prepared entry.definition := all
    have invariant : EntryInvariant (.prepared _) registry.extensions
        fun _ (entry : CatalogEntry IndexDefinition IndexGenerator) => Prepared entry.definition := prepared_invariant
    exact Shelf.add_all invariant before (fun id => prepare_prepare (Definition.withId id definition)) fun _ =>
      definition.prepared_iff.mpr qualifies
  · have chain := perform_comes_from (allows_prepared all qualifies fun definition same => adds ⟨definition, same⟩)
    exact comes_from_all_indexes trivial prepared_invariant all chain

theorem open_on_prepared {settings : RegistrySettings} {extensions : Extensions} {storage : ResultStorage} {disk : Disk}
    {opened : Registry} (started : openOn settings extensions storage disk = .ok opened) : opened.IndexesPrepared := by
  obtain ⟨archive, _, started⟩ := bind_ok started
  obtain ⟨indexes, indexesLoaded, started⟩ := bind_ok started
  obtain ⟨transformers, _, started⟩ := bind_ok started
  cases started
  exact Loading.of_archive_all prepared_invariant (fun definition => prepare_prepare definition) indexesLoaded

theorem run_prepared {registry : Registry} (all : registry.IndexesPrepared) {events : List Event}
    (qualifies : ∀ event ∈ events, event.QualifiesAnalyzers) : (registry.run events).IndexesPrepared :=
  @run_keeps IndexesPrepared Event.QualifiesAnalyzers (fun _ _ event prepared => perform_prepared prepared event) registry
    all events qualifies

/-- A copy of a live definition keeps its id and is classified the same way again. It asks for nothing if it is a
transformer, or an index that is no test one and has no short names of analyzers; with such a name an index is to be
compiled anew. No live index has one unless it came with an index that was added or updated in the place of another. -/
theorem opened_run_recognizes_iff {settings : RegistrySettings} {extensions : Extensions} {storage : ResultStorage}
    {disk : Disk} {opened : Registry} (started : openOn settings extensions storage disk = .ok opened)
    (events : List Event) :
    (∀ id definition, (opened.run events).indexes.get? (.id id) = some definition →
      (opened.run events).indexShelf.Settles definition ∧
        (definition.isTest = false →
          (((opened.run events).classifyIndex definition).1 = .noop ↔ definition.QualifiesAnalyzers) ∧
            (¬ definition.QualifiesAnalyzers → ((opened.run events).classifyIndex definition).1 = .update))) ∧
      (∀ id definition, (opened.run events).transformers.get? (.id id) = some definition →
        (opened.run events).transformerShelf.Settles definition ∧
          ((opened.run events).classifyTransformer definition).1 = .noop) ∧
      ((∀ event ∈ events, event.QualifiesAnalyzers) → ∀ id definition,
        (opened.run events).indexes.get? (.id id) = some definition → definition.QualifiesAnalyzers) := by
  obtain ⟨indexes, transformers⟩ := run_consistent (open_on_consistent started) events
  have indexesConsistent : (opened.run events).indexShelf.catalog.Consistent := indexes
  have transformersConsistent : (opened.run events).transformerShelf.catalog.Consistent := transformers
  refine ⟨fun id definition live => ⟨Shelf.settles indexesConsistent live, fun noTest => ?_⟩,
    fun id definition live => ⟨Shelf.settles transformersConsistent live, ?_⟩, fun qualifies id definition live => ?_⟩
  · obtain ⟨recognized, outdated⟩ := Change.between_resolved noTest
    have change : ((opened.run events).classifyIndex definition).1 = Change.between definition definition.resolveAnalyzers :=
      congrArg Prod.fst (Shelf.classify_copy indexesConsistent live rfl)
    rw [change, ← definition.prepared_iff]
    refine ⟨⟨fun noop => ?_, recognized⟩, outdated⟩
    by_contra unprepared
    cases noop.symm.trans (outdated unprepared)
  · refine (congrArg Prod.fst (Shelf.classify_copy transformersConsistent live rfl)).trans ?_
    have same : Definition.equivalent .exact definition definition = true := equivalent_self definition
    simp only [Change.between, Definition.prepare, Definition.isTest, same, Bool.or_self, Bool.false_eq_true, if_false,
      if_true]
  · obtain ⟨entry, found, rfl⟩ := Catalog.live_of_id live
    exact entry.definition.prepared_iff.mp (run_prepared (open_on_prepared started) qualifies id entry found)

theorem opened_run_recognizes_updated :
    let dogs : IndexDefinition := .ofSingleMap "Dogs" "from d in docs select new \x7b d.Name \x7d"
    let stored : IndexDefinition :=
      { dogs with id := 1, analyzers := (.empty : TextMap String).insert "Name" "analysis.StandardAnalyzer" }
    let events : List Event := [.putIndex "main" dogs, .updateIndex stored]
    ∃ opened, openOn .standard .builtins .empty .absent = .ok opened ∧
      (opened.run events).indexes.get? (.id 1) = some stored ∧ (opened.run events).indexShelf.Settles stored ∧
      ((opened.run events).classifyIndex stored).1 = .noop := by
  intro dogs stored events
  have started : openOn .standard .builtins .empty .absent = .ok (fresh .standard .builtins .empty) :=
    open_on_empty rfl _ _ rfl
  have live : ((fresh .standard .builtins .empty).run events).indexes.get? (.id 1) = some stored := by decide +kernel
  obtain ⟨indexes, _⟩ := opened_run_recognizes_iff started events
  have prepared : stored.resolveAnalyzers = stored := by decide +kernel
  obtain ⟨settles, classified⟩ := indexes 1 stored live
  exact ⟨_, started, live, settles, (classified rfl).1.mpr (stored.prepared_iff.mp prepared)⟩

-- An update stores the short name of an analyzer as it is given, and a copy of what is
-- stored is to be compiled anew.
theorem opened_run_recognizes_not :
    let dogs : IndexDefinition := .ofSingleMap "Dogs" "from d in docs select new \x7b d.Name \x7d"
    let stored : IndexDefinition := { dogs with id := 1, analyzers := (.empty : TextMap String).insert "Name" "StandardAnalyzer" }
    let events : List Event := [.putIndex "main" dogs, .updateIndex stored]
    ∃ opened, openOn .standard .builtins .empty .absent = .ok opened ∧
      (opened.run events).indexes.get? (.id 1) = some stored ∧ stored.isTest = false ∧
      ((opened.run events).classifyIndex stored).1 = .update := by
  intro dogs stored events
  have started : openOn .standard .builtins .empty .absent = .ok (fresh .standard .builtins .empty) :=
    open_on_empty rfl _ _ rfl
  exact ⟨_, started, by decide +kernel, rfl, by decide +kernel⟩

end Registry
end DocumentViews
