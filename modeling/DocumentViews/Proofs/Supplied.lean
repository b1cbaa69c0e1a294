import DocumentViews.Proofs.Newest
import DocumentViews.Proofs.Provenance

set_option autoImplicit false

namespace DocumentViews

open LawfulDefinition

section Kind

variable {δ γ : Type} [Definition δ γ]

-- What may become of an entry while its generator stays.
inductive CatalogEntry.StemsFrom (origin : CatalogEntry δ γ) : CatalogEntry δ γ → Prop
  | same : StemsFrom origin origin
  | filled : StemsFrom origin { origin with definition := Definition.fill origin.definition origin.generator }

namespace CatalogEntry.StemsFrom

variable {origin entry : CatalogEntry δ γ}

theorem supplied [SuppliedDefinition δ] (stems : origin.StemsFrom entry) :
    Definition.isCompiled entry.definition = Definition.isCompiled origin.definition := by
  cases stems with
  | same => rfl
  | filled => exact SuppliedDefinition.isCompiled_fill _ _

variable [LawfulDefinition δ γ]

theorem name (stems : origin.StemsFrom entry) : Definition.name entry.definition = Definition.name origin.definition := by
  cases stems with
  | same => rfl
  | filled => exact name_fill _ _

theorem fill (stems : origin.StemsFrom entry) :
    origin.StemsFrom { entry with definition := Definition.fill entry.definition entry.generator } := by
  cases stems with
  | same => exact .filled
  | filled =>
      dsimp only
      rw [fill_fill]
      exact .filled

end CatalogEntry.StemsFrom

namespace Catalog

variable {catalog next : Catalog δ γ} {id : UInt32} {origin : CatalogEntry δ γ}

def Supplies (catalog : Catalog δ γ) (id : UInt32) : Prop :=
  ∃ entry, catalog.entries.get? id = some entry ∧ Definition.isCompiled entry.definition = true

theorem Supplies.other (supplies : catalog.Supplies id) {other : UInt32} (passed : catalog.checkReplaceable other = .ok ()) :
    id ≠ other := by
  rintro rfl
  obtain ⟨entry, found, supplied⟩ := supplies
  rw [checkReplaceable, found] at passed
  simp only [supplied, if_true] at passed
  cases passed

def Retains (catalog : Catalog δ γ) (id : UInt32) (origin : CatalogEntry δ γ) : Prop :=
  ∃ entry, catalog.entries.get? id = some entry ∧ origin.StemsFrom entry

theorem Retains.of_same (retains : catalog.Retains id origin) (same : next.entries.get? id = catalog.entries.get? id) :
    next.Retains id origin := by
  rw [Retains, same]
  exact retains

theorem Retains.supplies [SuppliedDefinition δ] (retains : catalog.Retains id origin)
    (supplied : Definition.isCompiled origin.definition = true) : catalog.Supplies id := by
  obtain ⟨entry, found, stems⟩ := retains
  exact ⟨entry, found, stems.supplied.trans supplied⟩

theorem Retains.place (retains : catalog.Retains id origin) {definition : δ} (other : id ≠ Definition.id definition)
    (generator : γ) : (catalog.place definition generator).Retains id origin :=
  retains.of_same (by simp [Catalog.place, other])

theorem Retains.remove (retains : catalog.Retains id origin) {removed : UInt32} (other : id ≠ removed) :
    (catalog.remove removed).Retains id origin :=
  retains.of_same (by simp [Catalog.remove, other])

theorem Retains.install [SuppliedDefinition δ] (retains : catalog.Retains id origin)
    (supplied : Definition.isCompiled origin.definition = true) {definition : δ} {generator : γ}
    (installed : catalog.install definition generator = .ok next) : next.Retains id origin := by
  obtain ⟨replaceable, _, rfl⟩ := install_ok installed
  exact retains.place ((retains.supplies supplied).other replaceable) generator

theorem Retains.replace_definition [SuppliedDefinition δ] (retains : catalog.Retains id origin)
    (supplied : Definition.isCompiled origin.definition = true) {definition : δ}
    (replaced : catalog.replaceDefinition definition = .ok next) : next.Retains id origin := by
  obtain ⟨_, _, replaceable, _, rfl⟩ := replace_definition_ok replaced
  exact retains.of_same (by simp [(retains.supplies supplied).other replaceable])

theorem Retains.install_displacing [SuppliedDefinition δ] (retains : catalog.Retains id origin)
    (supplied : Definition.isCompiled origin.definition = true) {definition : δ} {generator : γ} {displaced : Option UInt32}
    (installed : catalog.installDisplacing definition generator displaced = .ok next) : next.Retains id origin := by
  obtain ⟨replaceable, yielding, _, rfl⟩ := install_displacing_ok installed
  have supplies := retains.supplies supplied
  have cleared : (catalog.cleared displaced).Retains id origin := by
    cases displaced with
    | none => exact retains
    | some holder => exact retains.remove (supplies.other (yielding holder rfl))
  exact cleared.place (supplies.other replaceable) generator

theorem Retains.fill [LawfulDefinition δ γ] (retains : catalog.Retains id origin) (key : DefinitionKey) :
    (catalog.fill key).2.Retains id origin := by
  rcases catalog.fill_cases key with same | ⟨filled, entry, found, same⟩
  · rw [same]
    exact retains
  · rw [same]
    by_cases own : id = filled
    · subst own
      obtain ⟨_, present, stems⟩ := retains
      rw [found] at present
      cases present
      exact ⟨_, by simp, stems.fill⟩
    · exact retains.of_same (by simp [own])

end Catalog

namespace Shelf

variable {shelf next : Shelf δ γ} {rules : Rules δ} {extensions : Extensions}

theorem step_retains [LawfulDefinition δ γ] [SuppliedDefinition δ] {id : UInt32} {origin : CatalogEntry δ γ}
    (supplied : Definition.isCompiled origin.definition = true) (kept : ¬ rules.removes id)
    (retains : shelf.catalog.Retains id origin) (step : Step rules extensions shelf next) :
    next.catalog.Retains id origin := by
  cases step with
  | counted ids => exact retains
  | compiled _ _ installed => exact retains.install supplied installed
  | replaced _ replaced => exact retains.replace_definition supplied replaced
  | @removed removed allowed =>
      rw [remove_catalog]
      split
      · refine retains.remove ?_
        rintro rfl
        exact kept allowed
      · exact retains
  | filled key => exact retains.fill key
  | marked id => exact retains.of_same (by simp [Catalog.mark_new_entries])
  | added _ _ installed => exact retains.install supplied installed
  | addedAgain _ replaced => exact retains.replace_definition supplied replaced

-- The files that no step touches: those of the other kind, and those of indexes that the
-- program supplies and nobody removes.
structure Untouched (rules : Rules δ) (shelf : Shelf δ γ) (name : String) : Prop where
  definition_name : DefinitionKind.IsDefinitionName name
  supplied : ∀ id, name = (Definition.kind δ).fileName id → shelf.catalog.Supplies id ∧ ¬ rules.removes id

theorem relist_untouched (catalog : Catalog δ γ) :
    Archive.Keeps (Untouched rules shelf) shelf.archive (shelf.relist catalog).archive :=
  (shelf.relist_keeps catalog).mono fun _ untouched => untouched.definition_name

theorem persist_untouched {catalog : Catalog δ γ} {definition : δ}
    (replaceable : shelf.catalog.checkReplaceable (Definition.id definition) = .ok ()) :
    Archive.Keeps (Untouched rules shelf) shelf.archive ((shelf.relist catalog).persist definition).2.archive := by
  refine (relist_untouched catalog).trans ((Archive.write_file_keeps _ _ _).mono fun name untouched => ⟨?_, ?_⟩)
  · intro own
    exact (untouched.supplied _ own).1.other replaceable rfl
  · exact Archive.definition_name_ne_temporary untouched.definition_name _

theorem step_untouched (step : Step rules extensions shelf next) :
    Archive.Keeps (Untouched rules shelf) shelf.archive next.archive := by
  cases step with
  | counted ids => exact Archive.keeps_all _ _
  | compiled _ _ installed => exact persist_untouched (Catalog.install_ok installed).1
  | replaced _ replaced =>
      obtain ⟨_, _, replaceable, _, _⟩ := Catalog.replace_definition_ok replaced
      exact persist_untouched replaceable
  | @removed removed allowed =>
      refine (shelf.remove_keeps removed).mono fun name untouched => ⟨untouched.definition_name, fun own => ?_⟩
      exact (untouched.supplied _ own).2 allowed
  | filled key => exact Archive.keeps_all _ _
  | marked id => exact Archive.keeps_all _ _
  | added _ _ installed => exact relist_untouched _
  | addedAgain _ replaced => exact relist_untouched _

end Shelf
end Kind

namespace Registry

variable {registry next : Registry} {id : UInt32} {origin : CatalogEntry IndexDefinition IndexGenerator} {undisturbed : Prop}

def keeping (id : UInt32) (undisturbed : Prop) : RunRules :=
  ⟨{ Rules.lenient _ with removes := (· ≠ id) }, .lenient _, undisturbed⟩

theorem keeping_spares (id : UInt32) (undisturbed : Prop) : ¬ (keeping id undisturbed).indexes.removes id :=
  fun removes => removes rfl

def KeepsFile (id : UInt32) (before after : Registry) : Prop :=
  after.archive.disk.get? (DefinitionKind.index.fileName id) = before.archive.disk.get? (DefinitionKind.index.fileName id)

theorem persist_promoted_keeps (displaced : Option UInt32) (definition : IndexDefinition)
    (shelf : Shelf IndexDefinition IndexGenerator) :
    Archive.Keeps (fun name => DefinitionKind.IsDefinitionName name ∧ name ≠ DefinitionKind.index.fileName definition.id ∧
        ∀ holder, displaced = some holder → name ≠ DefinitionKind.index.fileName holder)
      shelf.archive (persistPromoted displaced definition shelf).2.archive := by
  have written : ∀ archive : Archive, Archive.Keeps (fun name => DefinitionKind.IsDefinitionName name ∧
      name ≠ DefinitionKind.index.fileName definition.id) archive (archive.write definition).2 := fun archive =>
    (archive.write_file_keeps _ _).mono fun _ kept => ⟨kept.2, Archive.definition_name_ne_temporary kept.1 _⟩
  unfold persistPromoted
  cases displaced with
  | none => exact (written _).mono fun _ kept => ⟨kept.1, kept.2.1⟩
  | some holder =>
      have deleted := shelf.archive.delete_keeps .index holder
      dsimp only
      split
      · exact deleted.mono fun _ kept => kept.2.2 holder rfl
      · exact (deleted.mono fun _ kept => kept.2.2 holder rfl).trans ((written _).mono fun _ kept => ⟨kept.1, kept.2.1⟩)

theorem promoted_keeps_file {displaced : Option UInt32} {definition : IndexDefinition} {generator : IndexGenerator}
    {catalog : Catalog IndexDefinition IndexGenerator} (supplies : registry.indexes.Supplies id)
    (installed : registry.indexes.installDisplacing definition generator displaced = .ok catalog) :
    KeepsFile id registry (registry.withIndexShelf
      (persistPromoted displaced definition (registry.indexShelf.relist catalog)).2) := by
  obtain ⟨replaceable, yielding, _, _⟩ := Catalog.install_displacing_ok installed
  have named : DefinitionKind.IsDefinitionName (DefinitionKind.index.fileName id) := ⟨.index, _, rfl⟩
  have apart : ∀ {other}, registry.indexes.checkReplaceable other = .ok () →
      DefinitionKind.index.fileName id ≠ DefinitionKind.index.fileName other := fun passed same =>
    supplies.other passed (DefinitionKind.file_name_inj _ same)
  have listed := (registry.indexShelf.relist_keeps catalog).files named
  have persisted := (persist_promoted_keeps displaced definition (registry.indexShelf.relist catalog)).files
    ⟨named, apart replaceable, fun holder taken => apart (yielding holder taken)⟩
  exact persisted.trans listed

theorem step_retains (supplied : origin.definition.isCompiled = true) (retains : registry.indexes.Retains id origin)
    (step : Step (keeping id undisturbed) registry next) :
    next.indexes.Retains id origin ∧ (undisturbed → KeepsFile id registry next) := by
  have supplies := retains.supplies supplied
  have named : DefinitionKind.IsDefinitionName (DefinitionKind.index.fileName id) := ⟨.index, _, rfl⟩
  cases step with
  | indexes step =>
      have before : registry.indexShelf.catalog.Retains id origin := retains
      refine ⟨Shelf.step_retains supplied (keeping_spares id undisturbed) before step, fun _ => ?_⟩
      refine (Shelf.step_untouched step).files ⟨named, fun other own => ?_⟩
      cases DefinitionKind.file_name_inj _ own
      exact ⟨supplies, keeping_spares id undisturbed⟩
  | transformers step =>
      refine ⟨retains, fun _ => (Shelf.step_untouched step).files ⟨named, fun other own => ?_⟩⟩
      exact absurd own (DefinitionKind.file_name_of_other (by decide) _ other)
  | promoted _ _ _ installed =>
      refine ⟨?_, fun _ => promoted_keeps_file supplies installed⟩
      simp only [withIndexShelf, persist_promoted_catalog, Shelf.relist_catalog]
      exact retains.install_displacing supplied installed
  | around storage traffic => exact ⟨retains, fun _ => rfl⟩
  | meddled disk disturbed => exact ⟨retains, fun undisturbed => absurd undisturbed disturbed⟩

theorem comes_from_retains (supplied : origin.definition.isCompiled = true) (retains : registry.indexes.Retains id origin)
    (chain : ComesFrom (keeping id undisturbed) registry next) :
    next.indexes.Retains id origin ∧ (undisturbed → KeepsFile id registry next) := by
  induction chain with
  | refl => exact ⟨retains, fun _ => rfl⟩
  | tail _ step ih =>
      obtain ⟨retained, kept⟩ := step_retains supplied ih.1 step
      exact ⟨retained, fun undisturbed => (kept undisturbed).trans (ih.2 undisturbed)⟩

def removes (id : UInt32) (registry : Registry) : Event → Bool
  | .removeIndex other => other == id
  | .deleteIndex caller name => registry.deleted? caller name == some id
  | _ => false

def leaves (id : UInt32) : Registry → List Event → Bool
  | _, [] => true
  | registry, event :: later => !registry.removes id event && leaves id (registry.perform event).2 later

theorem allows_keeping {event : Event} (left : registry.removes id event = false)
    (own : undisturbed → event.meddles = false) : registry.Allows (keeping id undisturbed) event := by
  cases event with
  | removeIndex other =>
      rintro rfl
      simp [removes] at left
  | deleteIndex caller name =>
      rintro other deleted rfl
      simp [removes, deleted] at left
  | meddle disk =>
      intro undisturbed
      cases own undisturbed
  | _ => simp [Allows, keeping, Rules.lenient]

theorem run_retains (supplied : origin.definition.isCompiled = true) {events : List Event}
    (retains : registry.indexes.Retains id origin) (left : registry.leaves id events = true)
    (own : undisturbed → ∀ event ∈ events, event.meddles = false) :
    (registry.run events).indexes.Retains id origin ∧ (undisturbed → KeepsFile id registry (registry.run events)) := by
  induction events generalizing registry with
  | nil => exact ⟨retains, fun _ => rfl⟩
  | cons event later ih =>
      simp only [leaves, Bool.and_eq_true, Bool.not_eq_true'] at left
      simp only [List.forall_mem_cons] at own
      have allowed : registry.Allows (keeping id undisturbed) event := allows_keeping left.1 fun given => (own given).1
      obtain ⟨retained, kept⟩ := comes_from_retains supplied retains (perform_comes_from allowed)
      obtain ⟨retainedThen, keptThen⟩ := ih retained left.2 fun given => (own given).2
      exact ⟨retainedThen, fun given => (keptThen given).trans (kept given)⟩

def KeepsSupplied (registry : Registry) (id : UInt32) (origin : CatalogEntry IndexDefinition IndexGenerator) : Prop :=
  ∃ entry, registry.indexes.find? (.id id) = some entry ∧ origin.StemsFrom entry ∧
    ∀ name, foldName name = foldName origin.definition.name → registry.indexes.find? (.name name) = some entry

theorem Consistent.keeps_supplied (consistent : registry.Consistent) (retains : registry.indexes.Retains id origin) :
    registry.KeepsSupplied id origin := by
  obtain ⟨entry, found, stems⟩ := retains
  refine ⟨entry, (Catalog.find_by_id _ _).trans found, stems, fun name same => ?_⟩
  have held : registry.indexes.names.get? (foldName name) = some id := by
    refine (consistent.1.names_exact _ _).mpr ⟨entry, found, ?_⟩
    rw [same]
    exact congrArg foldName stems.name
  rw [Catalog.find_by_name, held, Option.bind_some, found]

/-- An index that the program has supplied stays live under its name, with the very same generator, a definition of which
only the fields may have been filled in, and an untouched file, whatever is called, as long as it is not removed. -/
theorem opened_run_keeps_supplied {settings : RegistrySettings} {extensions : Extensions} {storage : ResultStorage}
    {disk : Disk} {opened : Registry} (started : openOn settings extensions storage disk = .ok opened) (events : List Event)
    {id : UInt32} {origin : CatalogEntry IndexDefinition IndexGenerator}
    (found : (opened.run events).indexes.entries.get? id = some origin) (supplied : origin.definition.isCompiled = true)
    {later : List Event} (left : (opened.run events).leaves id later = true) :
    ((opened.run events).run later).KeepsSupplied id origin ∧
      ((∀ event ∈ later, event.meddles = false) → KeepsFile id (opened.run events) ((opened.run events).run later)) := by
  have consistent := run_consistent (run_consistent (open_on_consistent started) events) later
  obtain ⟨retained, kept⟩ := run_retains supplied ⟨origin, found, .same⟩ left fun own : ∀ event ∈ later, _ => own
  exact ⟨consistent.keeps_supplied retained, kept⟩

theorem opened_run_keeps_supplied_contested :
    let dogs : IndexDefinition :=
      { IndexDefinition.ofSingleMap "Dogs" "from d in docs select new \x7b d.Name \x7d" with isCompiled := true }
    let cats : IndexDefinition := .ofSingleMap "Cats" "from d in docs.Cats select new \x7b d.Name \x7d"
    let events : List Event := [.createIndex dogs, .createIndex cats]
    let later : List Event := [.updateIndex { cats with id := 1 }, .addIndex { dogs with id := 1 },
      .replaceIndex "main" "Cats" "DOGS", .readIndex (.name "dogs"), .putIndex "main" { cats with name := "dogs" },
      .removeIndex 2]
    ∃ opened origin, openOn .standard .builtins .empty .absent = .ok opened ∧
      (opened.run events).indexes.entries.get? 1 = some origin ∧ origin.definition.isCompiled = true ∧
      (opened.run events).leaves 1 later = true ∧ ((opened.run events).run later).KeepsSupplied 1 origin ∧
      KeepsFile 1 (opened.run events) ((opened.run events).run later) := by
  intro dogs cats events later
  have started : openOn .standard .builtins .empty .absent = .ok (fresh .standard .builtins .empty) :=
    open_on_empty rfl _ _ rfl
  let before := (fresh .standard .builtins .empty).run events
  have compiled : (before.indexes.entries.get? 1).map (fun entry => entry.definition.isCompiled) = some true := by
    decide +kernel
  obtain ⟨origin, found, supplied⟩ := Option.map_eq_some_iff.mp compiled
  have left : before.leaves 1 later = true := by decide +kernel
  obtain ⟨keeps, file⟩ := opened_run_keeps_supplied started events found supplied left
  exact ⟨_, origin, started, found, supplied, left, keeps, file (by simp [later, Event.meddles])⟩

end Registry
end DocumentViews
