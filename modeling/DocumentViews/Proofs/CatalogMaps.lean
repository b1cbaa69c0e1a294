import DocumentViews.Proofs.Run
import DocumentViews.Shelf.CatalogMaps

set_option autoImplicit false

namespace DocumentViews

section Kind

variable {δ γ : Type}

namespace Catalog

def maps (catalog : Catalog δ γ) : CatalogMaps δ γ where
  definitions := catalog.entries.mapValues CatalogEntry.definition
  generators := catalog.entries.mapValues CatalogEntry.generator
  names := catalog.names
  newIds := catalog.newIds

section Lookups

variable (catalog : Catalog δ γ)

theorem maps_definitions (id : UInt32) :
    catalog.maps.definitions.get? id = (catalog.entries.get? id).map CatalogEntry.definition :=
  SortedMap.get_map_values _ _ _

theorem maps_generators (id : UInt32) :
    catalog.maps.generators.get? id = (catalog.entries.get? id).map CatalogEntry.generator :=
  SortedMap.get_map_values _ _ _

theorem maps_contains_definition (id : UInt32) : catalog.maps.definitions.contains id = catalog.isLive id := by
  rw [SortedMap.contains, maps_definitions, Option.isSome_map]
  rfl

theorem maps_contains_generator (id : UInt32) : catalog.maps.generators.contains id = catalog.isLive id := by
  rw [SortedMap.contains, maps_generators, Option.isSome_map]
  rfl

theorem maps_resolve (key : DefinitionKey) : catalog.maps.resolve key = catalog.resolve key := by
  cases key with
  | id id => simp only [CatalogMaps.resolve, maps_contains_definition, resolve]
  | name name => rfl

theorem maps_get (key : DefinitionKey) : catalog.maps.get? key = catalog.get? key := by
  rw [CatalogMaps.get?, maps_resolve, get?, find?, Option.map_bind]
  exact congrArg _ (funext catalog.maps_definitions)

theorem maps_generator (key : DefinitionKey) : catalog.maps.generator? key = catalog.generator? key := by
  rw [CatalogMaps.generator?, maps_resolve, generator?, find?, Option.map_bind]
  exact congrArg _ (funext catalog.maps_generators)

variable [Definition δ γ]

theorem maps_check_replaceable (id : UInt32) : catalog.maps.checkReplaceable id = catalog.checkReplaceable id := by
  rw [CatalogMaps.checkReplaceable, maps_definitions, checkReplaceable]
  cases catalog.entries.get? id <;> rfl

theorem maps_check_name_free (name : String) (id : UInt32) (displaced : Option UInt32) :
    catalog.maps.checkNameFree name id displaced = catalog.checkNameFree name id displaced := rfl

theorem maps_release_names (id : UInt32) : catalog.maps.releaseNames id = catalog.releaseNames id := by
  rw [CatalogMaps.releaseNames, CatalogMaps.staleNames, maps_definitions, maps_generators, releaseNames]
  cases catalog.entries.get? id <;> rfl

end Lookups

section Calls

variable [Definition δ γ] (catalog : Catalog δ γ)

theorem maps_place (definition : δ) (generator : γ) :
    (catalog.place definition generator).maps = catalog.maps.place definition generator := by
  rw [CatalogMaps.place, maps_release_names]
  simp only [place, maps, SortedMap.map_values_insert]

theorem maps_remove (id : UInt32) : (catalog.remove id).maps = catalog.maps.remove id := by
  rw [CatalogMaps.remove, maps_release_names]
  simp only [remove, maps, SortedMap.map_values_erase]

theorem maps_install (definition : δ) (generator : γ) :
    catalog.maps.install definition generator = (catalog.install definition generator).map maps := by
  simp only [CatalogMaps.install, maps_check_replaceable, maps_check_name_free, install]
  cases catalog.checkReplaceable (Definition.id definition) with
  | error => rfl
  | ok =>
      cases catalog.checkNameFree (Definition.name definition) (Definition.id definition) none with
      | error => rfl
      | ok => exact congrArg Except.ok (catalog.maps_place definition generator).symm

theorem maps_install_displacing (definition : δ) (generator : γ) (displaced : Option UInt32) :
    catalog.maps.installDisplacing definition generator displaced =
      (catalog.installDisplacing definition generator (displaced.filter (· ≠ Definition.id definition))).map maps := by
  simp only [CatalogMaps.installDisplacing, maps_check_replaceable, maps_check_name_free, installDisplacing]
  generalize displaced.filter (· ≠ Definition.id definition) = displaced
  cases catalog.checkReplaceable (Definition.id definition) with
  | error => rfl
  | ok =>
      cases displaced with
      | none =>
          cases catalog.checkNameFree (Definition.name definition) (Definition.id definition) none with
          | error => rfl
          | ok => exact congrArg Except.ok (catalog.maps_place definition generator).symm
      | some holder =>
          dsimp only
          cases catalog.checkReplaceable holder with
          | error => rfl
          | ok =>
              cases catalog.checkNameFree (Definition.name definition) (Definition.id definition) (some holder) with
              | error => rfl
              | ok =>
                  have placed := (catalog.remove holder).maps_place definition generator
                  rw [maps_remove] at placed
                  exact congrArg Except.ok placed.symm

omit [Definition δ γ] in
-- The generator is put back where it was.
theorem maps_redefined {catalog : Catalog δ γ} {id : UInt32} {entry : CatalogEntry δ γ}
    (found : catalog.entries.get? id = some entry) (definition : δ) :
    { catalog with entries := catalog.entries.insert id { entry with definition } }.maps =
      { catalog.maps with definitions := catalog.maps.definitions.insert id definition } := by
  have kept : catalog.maps.generators.insert id entry.generator = catalog.maps.generators :=
    SortedMap.insert_present (by rw [maps_generators, found, Option.map_some])
  simp only [maps, SortedMap.map_values_insert] at kept ⊢
  rw [kept]

theorem maps_replace_definition (definition : δ) :
    catalog.maps.replaceDefinition definition = (catalog.replaceDefinition definition).map maps := by
  have live : catalog.isLive (Definition.id definition) = (catalog.entries.get? (Definition.id definition)).isSome := rfl
  simp only [CatalogMaps.replaceDefinition, maps_contains_generator, live, maps_definitions, maps_check_replaceable,
    maps_check_name_free, replaceDefinition]
  cases found : catalog.entries.get? (Definition.id definition) with
  | none => rfl
  | some entry =>
      dsimp only [Option.isSome_some, if_true]
      cases catalog.checkReplaceable (Definition.id definition) with
      | error => rfl
      | ok =>
          cases catalog.checkNameFree (Definition.name definition) (Definition.id definition) none with
          | error => rfl
          | ok =>
              have redefined := (maps_redefined found definition).symm
              have renamed := fun names : TextMap UInt32 => congrArg (fun maps => { maps with names }) redefined
              exact congrArg Except.ok (renamed _)

theorem maps_fill (key : DefinitionKey) :
    catalog.maps.fill key = ((catalog.fill key).1, (catalog.fill key).2.maps) := by
  simp only [CatalogMaps.fill, maps_resolve, maps_definitions, maps_generators, fill]
  cases catalog.resolve key with
  | none => rfl
  | some id =>
      dsimp only
      cases found : catalog.entries.get? id with
      | none => rfl
      | some entry => exact congrArg (Prod.mk _) (maps_redefined found _).symm

omit [Definition δ γ] in
theorem maps_mark_new (id : UInt32) :
    catalog.maps.markNew id = ((catalog.markNew id).1, (catalog.markNew id).2.maps) := by
  have marked : catalog.maps.newIds.contains id = catalog.isNew id := rfl
  rw [CatalogMaps.markNew, maps_contains_definition, marked, markNew]
  split <;> rfl

theorem maps_answer (call : CatalogCall δ γ) : (catalog.answer call).maps = catalog.maps.answer call := by
  have changed : ∀ result : Except DefinitionError (Catalog δ γ),
      (result.toOption.getD catalog).maps = (result.map maps).toOption.getD catalog.maps := by
    intro result
    cases result <;> rfl
  cases call with
  | install definition generator =>
      rw [answer, CatalogMaps.answer, maps_install]
      exact changed _
  | replaceDefinition definition =>
      rw [answer, CatalogMaps.answer, maps_replace_definition]
      exact changed _
  | installDisplacing definition generator displaced =>
      rw [answer, CatalogMaps.answer, maps_install_displacing]
      exact changed _
  | remove id => exact catalog.maps_remove id
  | fill key => exact (congrArg Prod.snd (catalog.maps_fill key)).symm
  | markNew id => exact (congrArg Prod.snd (catalog.maps_mark_new id)).symm
  | clearNew => rfl

theorem maps_after (calls : List (CatalogCall δ γ)) : (catalog.after calls).maps = catalog.maps.after calls := by
  induction calls generalizing catalog with
  | nil => rfl
  | cons call calls ih =>
      have rest := ih (catalog.answer call)
      rw [maps_answer] at rest
      exact rest

theorem call_of_changes {extensions : Extensions} {catalog next : Catalog δ γ} (change : Changes extensions catalog next) :
    ∃ call, catalog.answer call = next := by
  cases change with
  | @installed definition generator _ _ installed =>
      exact ⟨.install (Definition.fill definition generator) generator, by rw [answer, installed]; rfl⟩
  | @displacing definition generator displaced _ _ apart installed =>
      have kept : displaced.filter (· ≠ Definition.id (Definition.fill definition generator)) = displaced := by
        cases displaced with
        | none => rfl
        | some holder =>
            rw [Option.filter_some, if_pos]
            exact decide_eq_true fun same => apart (congrArg some same)
      exact ⟨.installDisplacing (Definition.fill definition generator) generator displaced, by rw [answer, kept, installed]; rfl⟩
  | @replaced definition _ replaced => exact ⟨.replaceDefinition definition, by rw [answer, replaced]; rfl⟩
  | removed id => exact ⟨.remove id, rfl⟩
  | filled key => exact ⟨.fill key, rfl⟩
  | marked id => exact ⟨.markNew id, rfl⟩
  | unmarked => exact ⟨.clearNew, rfl⟩

theorem calls_of_comes_from {extensions : Extensions} {catalog after : Catalog δ γ} (chain : ComesFrom extensions catalog after) :
    ∃ calls, catalog.after calls = after := by
  induction chain with
  | refl => exact ⟨[], rfl⟩
  | tail _ change ih =>
      obtain ⟨calls, rfl⟩ := ih
      obtain ⟨call, rfl⟩ := call_of_changes change
      exact ⟨calls ++ [call], List.foldl_concat ..⟩

end Calls

end Catalog

variable [Definition δ γ] [LawfulDefinition δ γ]

structure CatalogMaps.Coherent (maps : CatalogMaps δ γ) : Prop where
  stored_together : maps.definitions.keys = maps.generators.keys
  definition_id : ∀ {id : UInt32} {definition : δ}, maps.definitions.get? id = some definition →
    Definition.id definition = id
  generator_id : ∀ {id : UInt32} {generator : γ}, maps.generators.get? id = some generator →
    LawfulDefinition.generatorId δ generator = id
  names_exact : ∀ (folded : String) (id : UInt32), maps.names.get? folded = some id ↔
    ∃ definition, maps.definitions.get? id = some definition ∧ foldName (Definition.name definition) = folded
  names_distinct : ∀ {one other : UInt32} {first second : δ}, maps.definitions.get? one = some first →
    maps.definitions.get? other = some second → foldName (Definition.name first) = foldName (Definition.name second) →
      one = other
  new_live : ∀ {id : UInt32}, maps.newIds.contains id = true → maps.definitions.contains id = true
  found_by_any_name : ∀ {id : UInt32} {definition : δ}, maps.get? (.id id) = some definition →
    ∀ name, foldName name = foldName (Definition.name definition) →
      maps.get? (.name name) = some definition ∧ maps.generator? (.name name) = maps.generator? (.id id)
  found_by_own_id : ∀ {name : String} {definition : δ}, maps.get? (.name name) = some definition →
    foldName (Definition.name definition) = foldName name ∧
      maps.get? (.id (Definition.id definition)) = some definition ∧
        maps.generator? (.id (Definition.id definition)) = maps.generator? (.name name)

namespace Catalog

variable {catalog : Catalog δ γ}

theorem Consistent.maps_coherent (consistent : catalog.Consistent) : catalog.maps.Coherent where
  stored_together := SortedMap.keys_eq_of_get fun id =>
    (catalog.maps_contains_definition id).trans (catalog.maps_contains_generator id).symm
  definition_id found := by
    rw [maps_definitions] at found
    obtain ⟨entry, present, rfl⟩ := Option.map_eq_some_iff.mp found
    exact consistent.definition_id present
  generator_id found := by
    rw [maps_generators] at found
    obtain ⟨entry, present, rfl⟩ := Option.map_eq_some_iff.mp found
    exact consistent.generator_id present
  names_exact folded id := by
    rw [maps_definitions]
    refine (consistent.names_exact folded id).trans ⟨?_, ?_⟩
    · rintro ⟨entry, present, same⟩
      exact ⟨entry.definition, by rw [present, Option.map_some], same⟩
    · rintro ⟨definition, found, same⟩
      obtain ⟨entry, present, rfl⟩ := Option.map_eq_some_iff.mp found
      exact ⟨entry, present, same⟩
  names_distinct {one other first second} firstFound secondFound sameName := by
    rw [maps_definitions, ← find_by_id] at firstFound secondFound
    exact consistent.names_distinct firstFound secondFound sameName
  new_live {id} marked := by
    rw [maps_contains_definition]
    exact consistent.new_live marked
  found_by_any_name {id definition} found name sameName := by
    simp only [maps_get, maps_generator, get?, generator?] at found ⊢
    obtain ⟨entry, present, rfl⟩ := Option.map_eq_some_iff.mp found
    rw [consistent.found_by_any_name present sameName, present]
    exact ⟨rfl, rfl⟩
  found_by_own_id {name definition} found := by
    simp only [maps_get, maps_generator, get?, generator?] at found ⊢
    obtain ⟨entry, present, rfl⟩ := Option.map_eq_some_iff.mp found
    obtain ⟨sameName, own⟩ := consistent.found_by_own_id present
    rw [own, present]
    exact ⟨sameName, rfl, rfl⟩

-- There are calls that lead an empty catalog to this one. Whichever do so lead the maps one by
-- one to the same definitions and generators, and to maps that are in line with each other.
structure Coherent (catalog : Catalog δ γ) : Prop where
  called : ∃ calls, Catalog.empty.after calls = catalog
  coherent : ∀ calls, Catalog.empty.after calls = catalog → (CatalogMaps.empty.after calls).Coherent
  get : ∀ calls, Catalog.empty.after calls = catalog →
    ∀ key, (CatalogMaps.empty.after calls).get? key = catalog.get? key
  generator : ∀ calls, Catalog.empty.after calls = catalog →
    ∀ key, (CatalogMaps.empty.after calls).generator? key = catalog.generator? key

theorem Consistent.coherent (consistent : catalog.Consistent) {extensions : Extensions}
    (chain : ComesFrom extensions .empty catalog) : catalog.Coherent := by
  have led : ∀ calls, Catalog.empty.after calls = catalog → CatalogMaps.empty.after calls = catalog.maps := by
    rintro calls rfl
    exact ((empty : Catalog δ γ).maps_after calls).symm
  refine ⟨calls_of_comes_from chain, fun calls there => ?_, fun calls there key => ?_, fun calls there key => ?_⟩
  · rw [led calls there]
    exact consistent.maps_coherent
  · rw [led calls there, maps_get]
  · rw [led calls there, maps_generator]

end Catalog

end Kind

namespace Registry

theorem comes_from_changes {rules : RunRules} {before after : Registry} (chain : ComesFrom rules before after) :
    Catalog.ComesFrom before.extensions before.indexes after.indexes ∧
      Catalog.ComesFrom before.extensions before.transformers after.transformers := by
  induction chain with
  | refl => exact ⟨.refl, .refl⟩
  | tail chain step ih =>
      obtain ⟨_, indexes, transformers⟩ := step_changes_catalogs step
      rw [comes_from_extensions chain] at indexes transformers
      exact ⟨ih.1.trans indexes, ih.2.trans transformers⟩

theorem run_changes (registry : Registry) (events : List Event) :
    Catalog.ComesFrom registry.extensions registry.indexes (registry.run events).indexes ∧
      Catalog.ComesFrom registry.extensions registry.transformers (registry.run events).transformers := by
  induction events generalizing registry with
  | nil => exact ⟨.refl, .refl⟩
  | cons event events ih =>
      have performed := perform_comes_from (registry.allows_lenient event)
      obtain ⟨indexes, transformers⟩ := comes_from_changes performed
      have rest := ih (registry.perform event).2
      rw [comes_from_extensions performed] at rest
      exact ⟨indexes.trans rest.1, transformers.trans rest.2⟩

theorem open_on_changes {settings : RegistrySettings} {extensions : Extensions} {storage : ResultStorage} {disk : Disk}
    {opened : Registry} (started : openOn settings extensions storage disk = .ok opened) :
    Catalog.ComesFrom opened.extensions .empty opened.indexes ∧
      Catalog.ComesFrom opened.extensions .empty opened.transformers := by
  obtain ⟨archive, _, started⟩ := bind_ok started
  obtain ⟨indexes, indexesLoaded, started⟩ := bind_ok started
  obtain ⟨transformers, transformersLoaded, started⟩ := bind_ok started
  cases started
  exact ⟨(Loading.of_archive_changes indexesLoaded).tail .unmarked,
    (Loading.of_archive_changes transformersLoaded).tail .unmarked⟩

/-- Whatever happens to a registry that was opened on any disk, both of its catalogs are coherent. -/
theorem opened_run_coherent {settings : RegistrySettings} {extensions : Extensions} {storage : ResultStorage} {disk : Disk}
    {opened : Registry} (started : openOn settings extensions storage disk = .ok opened) (events : List Event) :
    (opened.run events).indexes.Coherent ∧ (opened.run events).transformers.Coherent := by
  obtain ⟨indexes, transformers⟩ := run_consistent (open_on_consistent started) events
  obtain ⟨indexesOpened, transformersOpened⟩ := open_on_changes started
  obtain ⟨indexesRun, transformersRun⟩ := opened.run_changes events
  exact ⟨indexes.coherent (indexesOpened.trans indexesRun), transformers.coherent (transformersOpened.trans transformersRun)⟩

theorem opened_run_coherent_renamed :
    let events := [.createIndex (.ofSingleMap "Dogs" "from d in docs select new \x7b d.Name \x7d"),
      .putIndex "main" (.ofSingleMap "Cats" "from d in docs.Cats select new \x7b d.Name \x7d"),
      .replaceIndex "main" "Dogs" "CATS", .removeIndex 1]
    ∃ opened, openOn .standard .builtins .empty .absent = .ok opened ∧
      (opened.run events).indexes.Coherent ∧ (opened.run events).transformers.Coherent := by
  have started : openOn .standard .builtins .empty .absent = .ok (fresh .standard .builtins .empty) :=
    open_on_empty rfl _ _ rfl
  exact ⟨_, started, opened_run_coherent started _⟩

end Registry
end DocumentViews
