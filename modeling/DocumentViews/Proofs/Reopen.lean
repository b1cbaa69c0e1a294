import DocumentViews.Proofs.Reload
import DocumentViews.Proofs.Vetted

set_option autoImplicit false

namespace DocumentViews

open LawfulDefinition

section Kind

variable {δ γ : Type} [Definition δ γ] [LawfulDefinition δ γ] {extensions : Extensions}

-- The same ids are live, with the same definitions up to their fields, and the generators
-- have the same fields in the same order.
structure Catalog.Restores (before after : Catalog δ γ) : Prop where
  ids : after.ids = before.ids
  definitions : ∀ id, (after.get? (.id id)).map bare = (before.get? (.id id)).map bare
  fields : ∀ id,
    (after.generator? (.id id)).map (generatorFields δ) = (before.generator? (.id id)).map (generatorFields δ)

variable {before after : Catalog δ γ}

theorem Reloads.restores_iff (reloads : Reloads extensions before after) :
    before.Restores after ↔ ∀ id entry, before.entries.get? id = some entry →
      ∃ generator, Definition.compile extensions entry.definition = .ok generator ∧
        generatorFields δ generator = generatorFields δ entry.generator := by
  constructor
  · intro restores id entry found
    have sameFields := restores.fields id
    simp only [Catalog.generator?, Catalog.find_by_id, found, Option.map_some] at sameFields
    cases compiled : Definition.compile extensions entry.definition with
    | error error =>
        rw [reloads.failed found compiled] at sameFields
        cases sameFields
    | ok generator =>
        obtain ⟨again, present, rfl, _⟩ := reloads.compiled found compiled
        rw [present] at sameFields
        exact ⟨_, rfl, Option.some.inj sameFields⟩
  · intro compiles
    -- Every id is absent from both catalogs, or in both with what a restored entry must have.
    have matched : ∀ id, (before.entries.get? id = none ∧ after.entries.get? id = none) ∨
        ∃ entry again, before.entries.get? id = some entry ∧ after.entries.get? id = some again ∧
          bare again.definition = bare entry.definition ∧
            generatorFields δ again.generator = generatorFields δ entry.generator := by
      intro id
      cases found : before.entries.get? id with
      | none => exact .inl ⟨rfl, reloads.absent found⟩
      | some entry =>
          obtain ⟨generator, compiled, sameFields⟩ := compiles id entry found
          obtain ⟨again, present, rfl, same⟩ := reloads.compiled found compiled
          exact .inr ⟨entry, again, rfl, present, same, sameFields⟩
    refine ⟨?_, ?_, ?_⟩
    · apply SortedMap.keys_eq_of_get
      intro id
      rcases matched id with ⟨missing, missingThere⟩ | ⟨entry, again, found, present, _⟩
      · rw [missing, missingThere]
      · rw [found, present]
        rfl
    · intro id
      simp only [Catalog.get?, Catalog.find_by_id]
      rcases matched id with ⟨missing, missingThere⟩ | ⟨entry, again, found, present, same, _⟩
      · rw [missing, missingThere]
      · rw [found, present]
        exact congrArg some same
    · intro id
      simp only [Catalog.generator?, Catalog.find_by_id]
      rcases matched id with ⟨missing, missingThere⟩ | ⟨entry, again, found, present, _, sameFields⟩
      · rw [missing, missingThere]
      · rw [found, present]
        exact congrArg some sameFields

theorem Reloads.clear_new (reloads : Reloads extensions before after) : Reloads extensions before after.clearNew :=
  ⟨reloads.compiled, reloads.failed, reloads.absent⟩

end Kind

namespace TransformerDefinition

theorem drifts_alike {source stored : TransformerDefinition} (drifts : Drifts source stored) :
    TextsAlike source.transformResults stored.transformResults := by
  induction drifts with
  | refl => exact .inl rfl
  | tail _ step ih =>
      apply texts_alike_trans ih
      rcases step with means | same
      · change equivalent .relaxed _ _ = true at means
        exact Comparison.alike_of_same (equivalent_iff.mp means).query
      · exact .inl (congrArg transformResults same)

theorem drifted_compiles {extensions : Extensions} {source stored : TransformerDefinition}
    {generator : TransformerGenerator} (compiled : source.compile extensions = .ok generator)
    (drifts : Drifts source stored) :
    ∃ fresh, stored.compile extensions = .ok fresh ∧ fresh.fields = generator.fields := by
  obtain ⟨_, parsed, fromResults, _, _, fields⟩ := compile_ok_iff.mp compiled
  have parsedAgain := Query.parse_alike (drifts_alike drifts) (Compile.read_query_ok_iff.mp parsed)
  refine ⟨⟨stored.id, stored.name, generator.query, generator.fields⟩, compile_ok_iff.mpr ?_, rfl⟩
  exact ⟨parsed_not_blank parsedAgain, Compile.read_query_ok_iff.mpr parsedAgain, fromResults, rfl, rfl, fields⟩

end TransformerDefinition

namespace IndexDefinition

variable {extensions : Extensions} {source stored : IndexDefinition} {generator : IndexGenerator}

theorem drifts_similar (drifts : Drifts source stored) : source.Similar stored := by
  induction drifts with
  | refl => exact similar_refl _
  | @tail between last _ step ih =>
      apply similar_trans ih
      rcases step with means | same
      · exact similar_of_equivalent means
      · have refl := similar_refl between
        have without : between.Similar (bare between) := ⟨refl.id, refl.name, refl.maps, refl.reduce, refl.analyzers⟩
        rw [same] at without
        exact ⟨without.id, without.name, without.maps, without.reduce, without.analyzers⟩

-- The maps name these fields, the fields of an earlier map before those of a later one.
def MapsName (extensions : Extensions) (definition : IndexDefinition) (fields : List String) : Prop :=
  ∃ queries, List.Forall₂ (Compile.IsMap extensions) definition.mapTexts queries ∧ Compile.mappedFields queries = fields

structure Recovers (extensions : Extensions) (definition : IndexDefinition) (fields : List String) : Prop where
  noHollow : definition.hasHollow = false
  order : definition.isMapReduce = true ∨ definition.MapsName extensions fields

theorem drifted_compiles_iff (compiled : source.compile extensions = .ok generator) (drifts : Drifts source stored) :
    (∃ fresh, stored.compile extensions = .ok fresh ∧ fresh.fields = generator.fields) ↔
      stored.Recovers extensions generator.fields := by
  constructor
  · rintro ⟨fresh, compiledAgain, sameFields⟩
    refine ⟨compiled_not_hollow compiledAgain, ?_⟩
    obtain ⟨_, mapped, reduced, _, _, _, fields⟩ := compile_ok_iff.mp compiledAgain
    cases written : stored.reduceText? with
    | some text => exact .inl (by rw [isMapReduce, written]; rfl)
    | none =>
        rw [written] at reduced
        have unreduced : fresh.reducer = none := (Except.ok.inj reduced).symm
        refine .inr ⟨fresh.maps, Compile.maps_ok_iff.mp mapped, ?_⟩
        rw [← sameFields, fields, unreduced]
        rfl
  · rintro ⟨noHollow, order⟩
    -- The queries agree up to their order. With a reduce the fields are the reduce's, whatever
    -- that order is; without one they follow the maps as stored.
    obtain ⟨fresh, compiledAgain, agrees⟩ := (similar_compiles_iff compiled (drifts_similar drifts)).mpr noHollow
    refine ⟨fresh, compiledAgain, ?_⟩
    obtain ⟨_, mapped, reduced, _, _, _, fields⟩ := compile_ok_iff.mp compiledAgain
    obtain ⟨_, _, _, _, _, _, sourceFields⟩ := compile_ok_iff.mp compiled
    rw [fields]
    cases written : stored.reduceText? with
    | some text =>
        rw [written] at reduced
        have sameReducer := agrees.reducer
        generalize fresh.reducer = reducer at reduced sameReducer ⊢
        cases Compile.reducer_ok_iff.mp reduced with
        | some _ => rw [sourceFields, ← sameReducer, Compile.fieldsOf, Compile.fieldsOf]
    | none =>
        rw [written] at reduced
        have unreduced : fresh.reducer = none := (Except.ok.inj reduced).symm
        rcases order with reduces | ⟨queries, pairs, named⟩
        · rw [isMapReduce, written] at reduces
          cases reduces
        · have sameMaps : fresh.maps = queries := Except.ok.inj (mapped.symm.trans (Compile.maps_ok_iff.mpr pairs))
          rw [unreduced, sameMaps]
          exact named

end IndexDefinition

namespace Registry

def InForm (registry : Registry) : Prop :=
  (∀ id entry, registry.indexes.entries.get? id = some entry → Definition.prepare entry.definition = entry.definition) ∧
    ∀ id entry, registry.transformers.entries.get? id = some entry → Definition.prepare entry.definition = entry.definition

theorem reopens {registry : Registry} (mirrored : registry.Mirrored) (consistent : registry.Consistent)
    (inForm : registry.InForm) {settings : RegistrySettings} (durable : settings.runInMemory = false)
    (storage : ResultStorage) :
    ∃ reopened, openOn settings registry.extensions storage registry.archive.disk = .ok reopened ∧
      Reloads registry.extensions registry.indexes.named reopened.indexes ∧
      Reloads registry.extensions registry.transformers.named reopened.transformers := by
  have opened : Archive.openOn settings registry.archive.disk = .ok registry.archive := by
    obtain ⟨directory, present⟩ := mirrored.writable.present
    have whole : registry.archive = ⟨true, .present directory⟩ := by
      rw [← present, ← mirrored.writable.durable]
    rw [whole, Archive.openOn, durable]
    rfl
  obtain ⟨indexes, indexesLoaded, sameArchive, indexesReload⟩ := of_archive_reloads registry.extensions
    consistent.1 inForm.1 mirrored.writable mirrored.indexes.files cleanUpIndex .initial storage
  obtain ⟨transformers, transformersLoaded, _, transformersReload⟩ :=
    of_archive_reloads registry.extensions consistent.2 inForm.2 mirrored.writable mirrored.transformers.files
      cleanUpTransformer indexes.shelf.ids indexes.storage
  rw [← sameArchive] at transformersLoaded
  rw [openOn, bind_of_ok _ opened, bind_of_ok _ indexesLoaded, bind_of_ok _ transformersLoaded]
  exact ⟨_, rfl, indexesReload.clear_new, transformersReload.clear_new⟩

variable {settings again : RegistrySettings} {disk : Disk} {events : List Event}

theorem run_reopens_named (settings : RegistrySettings) (durable : again.runInMemory = false) (extensions : Extensions)
    (storage later : ResultStorage) (filed : ∀ event ∈ events, event.keepsFiles = true)
    (inForm : ((fresh settings extensions storage).run events).InForm) :
    ∃ reopened,
      openOn again extensions later ((fresh settings extensions storage).run events).archive.disk = .ok reopened ∧
      Reloads extensions ((fresh settings extensions storage).run events).indexes.named reopened.indexes ∧
      Reloads extensions ((fresh settings extensions storage).run events).transformers.named reopened.transformers := by
  have mirrored := run_mirrored (fresh_mirrored settings extensions storage) filed
  have consistent := run_consistent (fresh_consistent settings extensions storage) events
  have reopened := reopens mirrored consistent inForm durable later
  rwa [run_extensions] at reopened

theorem run_reopens (settings : RegistrySettings) (durable : again.runInMemory = false) (extensions : Extensions)
    (storage later : ResultStorage)
    (vetted : ∀ event ∈ events, event.isVetted = true) :
    ((fresh settings extensions storage).run events).Kept ∧
      ∃ reopened,
        openOn again extensions later ((fresh settings extensions storage).run events).archive.disk = .ok reopened ∧
        Reloads extensions ((fresh settings extensions storage).run events).indexes reopened.indexes ∧
        Reloads extensions ((fresh settings extensions storage).run events).transformers reopened.transformers := by
  have consistent := fresh_consistent settings extensions storage
  have kept := run_kept consistent (fresh_kept settings extensions storage) vetted
  have inForm : ((fresh settings extensions storage).run events).InForm :=
    ⟨fun id entry found => (kept.indexes id entry found).vetted.prepared,
      fun id entry found => (kept.transformers id entry found).vetted.prepared⟩
  obtain ⟨reopened, started, indexes, transformers⟩ := run_reopens_named settings durable extensions storage later
    (fun event member => Event.vetted_keeps_files (vetted event member)) inForm
  obtain ⟨indexesConsistent, transformersConsistent⟩ := run_consistent consistent events
  exact ⟨kept, reopened, started,
    indexes.of_named indexesConsistent fun id entry found => (kept.indexes id entry found).vetted.named,
    transformers.of_named transformersConsistent fun id entry found => (kept.transformers id entry found).vetted.named⟩

/-- A registry that is opened anew restores the indexes exactly where each of them can be recovered; it always restores the
transformers. -/
theorem reopened_run_restores_iff (durable : settings.runInMemory = false) (durableAgain : again.runInMemory = false)
    (extensions : Extensions) (storage later : ResultStorage) (isEmpty : IsEmpty disk)
    (vetted : ∀ event ∈ events, event.isVetted = true) :
    ∃ opened reopened, openOn settings extensions storage disk = .ok opened ∧
      openOn again extensions later (opened.run events).archive.disk = .ok reopened ∧
      (opened.run events).transformers.Restores reopened.transformers ∧
      ((opened.run events).indexes.Restores reopened.indexes ↔ ∀ id definition generator,
        (opened.run events).indexes.get? (.id id) = some definition →
          (opened.run events).indexes.generator? (.id id) = some generator →
            definition.Recovers extensions generator.fields) := by
  obtain ⟨kept, reopened, started, indexes, transformers⟩ :=
    run_reopens settings durableAgain extensions storage later vetted
  have same : ((fresh settings extensions storage).run events).extensions = extensions := run_extensions _ events
  refine ⟨_, reopened, open_on_empty durable extensions storage isEmpty, started, ?_, ?_⟩
  · apply transformers.restores_iff.mpr
    intro id entry found
    obtain ⟨source, compiled, drifts⟩ := (kept.transformers id entry found).source
    rw [same] at compiled
    exact TransformerDefinition.drifted_compiles compiled drifts
  · rw [indexes.restores_iff]
    constructor
    · intro compiles id definition generator live liveGenerator
      rw [Catalog.generator?, Catalog.find_by_id] at liveGenerator
      obtain ⟨entry, found, rfl⟩ := Catalog.live_of_id live
      rw [found] at liveGenerator
      cases liveGenerator
      obtain ⟨source, compiled, drifts⟩ := (kept.indexes id entry found).source
      rw [same] at compiled
      exact (IndexDefinition.drifted_compiles_iff compiled drifts).mp (compiles id entry found)
    · intro recovers id entry found
      obtain ⟨source, compiled, drifts⟩ := (kept.indexes id entry found).source
      rw [same] at compiled
      refine (IndexDefinition.drifted_compiles_iff compiled drifts).mpr (recovers id entry.definition entry.generator ?_ ?_)
      · rw [Catalog.get?, Catalog.find_by_id, found, Option.map_some]
      · rw [Catalog.generator?, Catalog.find_by_id, found, Option.map_some]

theorem reopened_run_restores_reduced :
    let counts := { IndexDefinition.ofSingleMap "Counts" "" with
      maps := ["from d in docs.Cats select new \x7b N = 1 \x7d", "from d in docs.Dogs select new \x7b N = 1 \x7d"]
      reduce := some "from r in results select new \x7b r.N \x7d" }
    let swapped := { counts with
      maps := ["from d in docs.Dogs select new \x7b N=1 \x7d // dogs", "from d in docs.Cats select new \x7b N = 1, \x7d"] }
    let events := [.putIndex "main" counts, .putTransformer (.ofQuery "Names" "from r in results select r.N"),
      .putIndex "main" swapped]
    ∃ opened reopened, openOn .standard .builtins .empty .absent = .ok opened ∧
      openOn .standard .builtins .empty (opened.run events).archive.disk = .ok reopened ∧
      (opened.run events).transformers.Restores reopened.transformers ∧
      (opened.run events).indexes.Restores reopened.indexes := by
  intro counts swapped events
  have durable : RegistrySettings.standard.runInMemory = false := rfl
  have isEmpty : IsEmpty .absent := rfl
  have vetted : ∀ event ∈ events, event.isVetted = true := by simp [events, Event.isVetted]
  obtain ⟨opened, reopened, started, startedAgain, transformers, indexes⟩ :=
    reopened_run_restores_iff durable durable .builtins .empty .empty isEmpty vetted
  refine ⟨opened, reopened, started, startedAgain, transformers, indexes.mpr ?_⟩
  rw [open_on_empty durable .builtins .empty isEmpty] at started
  cases started
  have live : ((fresh .standard .builtins .empty).run events).indexes.definitions.all
      (fun definition => !definition.hasHollow && definition.isMapReduce) = true := by decide +kernel
  intro id definition generator found _
  have recovers := List.all_eq_true.mp live definition (Catalog.mem_definitions found)
  rw [Bool.and_eq_true, Bool.not_eq_true'] at recovers
  exact ⟨recovers.1, .inl recovers.2⟩

theorem reopened_run_reorders :
    let names := { IndexDefinition.ofSingleMap "Names" "" with
      maps := ["from d in docs select new \x7b d.X \x7d", "from d in docs select new \x7b d.Y \x7d"] }
    let swapped := { names with
      maps := ["from d in docs select new \x7b d.Y \x7d", "from d in docs select new \x7b d.X \x7d"]
      maxOutputsPerDocument := some 1 }
    let events := [.putIndex "main" names, .putIndex "main" swapped]
    ∃ opened reopened, openOn .standard .builtins .empty .absent = .ok opened ∧
      openOn .standard .builtins .empty (opened.run events).archive.disk = .ok reopened ∧
      ((opened.run events).indexes.generator? (.id 1)).map IndexGenerator.fields = some ["X", "Y", "__document_id"] ∧
      (reopened.indexes.generator? (.id 1)).map IndexGenerator.fields = some ["Y", "X", "__document_id"] := by
  intro names swapped events
  have durable : RegistrySettings.standard.runInMemory = false := rfl
  have vetted : ∀ event ∈ events, event.isVetted = true := by simp [events, Event.isVetted]
  obtain ⟨_, reopened, startedAgain, indexes, _⟩ := run_reopens .standard durable .builtins .empty .empty vetted
  refine ⟨_, reopened, open_on_empty durable .builtins .empty rfl, startedAgain, by decide +kernel, ?_⟩
  have anew : (((fresh .standard .builtins .empty).run events).indexes.get? (.id 1)).map (fun definition =>
      (definition.compile .builtins).toOption.map IndexGenerator.fields) = some (some ["Y", "X", "__document_id"]) := by
    decide +kernel
  rw [Catalog.get?, Catalog.find_by_id, Option.map_map] at anew
  obtain ⟨entry, found, fields⟩ := Option.map_eq_some_iff.mp anew
  dsimp only [Function.comp_apply] at fields
  cases compiled : entry.definition.compile .builtins with
  | error error =>
      rw [compiled] at fields
      cases fields
  | ok generator =>
      rw [compiled] at fields
      obtain ⟨restored, present, rfl, _⟩ := indexes.compiled found compiled
      rw [Catalog.generator?, Catalog.find_by_id, present]
      exact fields

end Registry
end DocumentViews
