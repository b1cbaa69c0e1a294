import DocumentViews.Proofs.ReadBack
import DocumentViews.Proofs.Tally

set_option autoImplicit false

namespace DocumentViews

open LawfulDefinition

section Kind

variable {δ γ : Type} [Definition δ γ]

class RenumberedDefinition (δ : Type) {γ : outParam Type} [Definition δ γ] : Prop where
  compiles_withId : ∀ {extensions : Extensions} {definition : δ} (id : UInt32),
    Compiles extensions definition → Compiles extensions (Definition.withId id definition)

instance : RenumberedDefinition IndexDefinition where
  compiles_withId id compiles := by
    obtain ⟨generator, compiled⟩ := compiles
    obtain ⟨some, maps, reducer, analyzers, _, name, fields⟩ := IndexDefinition.compile_ok_iff.mp compiled
    exact ⟨{ generator with id }, IndexDefinition.compile_ok_iff.mpr ⟨some, maps, reducer, analyzers, rfl, name, fields⟩⟩

instance : RenumberedDefinition TransformerDefinition where
  compiles_withId id compiles := by
    obtain ⟨generator, compiled⟩ := compiles
    obtain ⟨text, query, results, _, name, fields⟩ := TransformerDefinition.compile_ok_iff.mp compiled
    exact ⟨{ generator with id }, TransformerDefinition.compile_ok_iff.mpr ⟨text, query, results, rfl, name, fields⟩⟩

namespace Catalog

structure Renewable (extensions : Extensions) (candidate : δ) (id : UInt32) (catalog : Catalog δ γ) : Prop where
  named : catalog.resolve (.name (Definition.name candidate)) = some id
  replaceable : ∀ stored, catalog.get? (.id id) = some stored → Definition.isCompiled stored = false
  compiles : Compiles extensions candidate

structure HeldBy (name : String) (id : UInt32) (catalog : Catalog δ γ) : Prop where
  resolves : catalog.resolve (.name name) = some id
  alone : ∀ other definition, catalog.get? (.id other) = some definition →
    foldName (Definition.name definition) = foldName name → other = id

structure Renews (candidate : δ) (id : UInt32) (answer : Except DefinitionError PutOutcome) (after : Catalog δ γ) :
    Prop where
  answer : ∃ change, answer = .ok ⟨id, Definition.name candidate, change⟩
  held : after.HeldBy (Definition.name candidate) id

variable {catalog : Catalog δ γ} {candidate : δ} {id : UInt32} {extensions : Extensions}

instance : Decidable (catalog.Renewable extensions candidate id) :=
  decidable_of_iff (catalog.resolve (.name (Definition.name candidate)) = some id ∧
      (catalog.get? (.id id)).all (fun stored => !Definition.isCompiled stored) = true ∧
      (Definition.compile extensions (Definition.prepare candidate)).isOk = true)
    ⟨fun ⟨named, replaceable, compiles⟩ => ⟨named, by simpa [Option.all_eq_true] using replaceable, is_ok_exists compiles⟩,
      fun ⟨named, replaceable, compiles⟩ =>
        ⟨named, by simpa [Option.all_eq_true] using replaceable, (Fates.is_ok_iff_compiles _ _).mpr compiles⟩⟩

variable [LawfulDefinition δ γ]

theorem Consistent.held_by (consistent : catalog.Consistent) {name : String} {entry : CatalogEntry δ γ}
    (found : catalog.entries.get? id = some entry) (named : foldName (Definition.name entry.definition) = foldName name) :
    catalog.HeldBy name id where
  resolves := (consistent.names_exact (foldName name) id).mpr ⟨entry, found, named⟩
  alone other definition live sameName := by
    obtain ⟨another, present, rfl⟩ := live_of_id live
    have held := (consistent.names_exact (foldName name) id).mpr ⟨entry, found, named⟩
    have heldAlso := (consistent.names_exact (foldName name) other).mpr ⟨another, present, sameName⟩
    exact Option.some.inj (heldAlso.symm.trans held)

theorem Renewable.entry (renewable : catalog.Renewable extensions candidate id) (consistent : catalog.Consistent) :
    ∃ entry, catalog.entries.get? id = some entry ∧ Definition.isCompiled entry.definition = false ∧
      foldName (Definition.name entry.definition) = foldName (Definition.name candidate) := by
  obtain ⟨entry, found, sameName⟩ := (consistent.names_exact _ id).mp renewable.named
  refine ⟨entry, found, renewable.replaceable entry.definition ?_, sameName⟩
  rw [get?, find_by_id, found]
  rfl

end Catalog

namespace Shelf

variable {extensions : Extensions} {shelf : Shelf δ γ} {candidate : δ} {id : UInt32} [LawfulDefinition δ γ]

theorem update_renews (consistent : shelf.catalog.Consistent) (renewable : shelf.catalog.Renewable extensions candidate id)
    (unfailing : ∀ error, (shelf.updateWithoutRecompile (Definition.withId id (Definition.prepare candidate))).1 =
      .error error → error.isPersistence = false) :
    (shelf.updateWithoutRecompile (Definition.withId id (Definition.prepare candidate))).1 = .ok () ∧
      ∃ entry, (shelf.updateWithoutRecompile (Definition.withId id (Definition.prepare candidate))).2.catalog.entries.get? id =
        some entry ∧ Definition.name entry.definition = Definition.name candidate := by
  obtain ⟨entry, found, unfixed, _⟩ := renewable.entry consistent
  have replaceable : shelf.catalog.checkReplaceable id = .ok () :=
    Catalog.check_replaceable_of fun {other} present => by
      cases found.symm.trans present
      exact unfixed
  have free : shelf.catalog.checkNameFree (Definition.name candidate) id none = .ok () :=
    Catalog.check_name_free_of fun held => Option.some.inj (held.symm.trans renewable.named)
  have replaced : ∃ catalog, shelf.catalog.replaceDefinition (Definition.withId id (Definition.prepare candidate)) =
      .ok catalog ∧ catalog.entries.get? id =
        some { entry with definition := Definition.withId id (Definition.prepare candidate) } := by
    unfold Catalog.replaceDefinition
    simp only [id_withId, name_withId, name_prepare, found, replaceable, free]
    exact ⟨_, rfl, by rw [SortedMap.get_insert, if_pos rfl]⟩
  obtain ⟨catalog, replaced, present⟩ := replaced
  simp only [updateWithoutRecompile, replaced] at unfailing ⊢
  constructor
  · cases written : ((shelf.relist catalog).persist (Definition.withId id (Definition.prepare candidate))).1 with
    | ok done => exact written
    | error error => exact absurd (persist_fails written) (Bool.eq_false_iff.mp (unfailing error written))
  · exact ⟨_, present, by rw [name_withId, name_prepare]⟩

-- An id is kept unless it is zero, and then still if zero is the next id.
theorem identify_keeps (kept : id ≠ 0 ∨ shelf.ids.next = 0) :
    (shelf.identify (Definition.withId id (Definition.prepare candidate))).1 =
      Definition.withId id (Definition.prepare candidate) := by
  rw [identify, id_withId]
  split
  next none =>
    have anew : shelf.ids.next = 0 := kept.resolve_left (not_not_intro none)
    rw [IdCounter.allocate, anew, none]
    exact withId_withId _ _ _
  next => rfl

theorem compile_renews [RenumberedDefinition δ] (consistent : shelf.catalog.Consistent)
    (renewable : shelf.catalog.Renewable extensions candidate id) (kept : id ≠ 0 ∨ shelf.ids.next = 0)
    (unfailing : ∀ error, (shelf.createAndPersist extensions (Definition.withId id (Definition.prepare candidate))).1 =
      .error error → error.isPersistence = false) :
    (∃ text, (shelf.createAndPersist extensions (Definition.withId id (Definition.prepare candidate))).1 = .ok text) ∧
      ∃ entry, (shelf.createAndPersist extensions (Definition.withId id (Definition.prepare candidate))).2.catalog.entries.get?
        id = some entry ∧ Definition.name entry.definition = Definition.name candidate := by
  obtain ⟨entry, found, unfixed, _⟩ := renewable.entry consistent
  obtain ⟨generator, compiled⟩ := RenumberedDefinition.compiles_withId id renewable.compiles
  let filled := Definition.fill (Definition.withId id (Definition.prepare candidate)) generator
  have sameId : Definition.id filled = id := by rw [id_fill, id_withId]
  have sameName : Definition.name filled = Definition.name candidate := by rw [name_fill, name_withId, name_prepare]
  have installed : shelf.catalog.install filled generator = .ok (shelf.catalog.place filled generator) := by
    apply Catalog.install_replaceable
    · intro other present
      rw [sameId] at present
      cases found.symm.trans present
      exact unfixed
    · intro holder held
      rw [sameName] at held
      rw [sameId]
      exact Option.some.inj (held.symm.trans renewable.named)
  have compiledInto : shelf.catalog.compileInto extensions (Definition.withId id (Definition.prepare candidate)) =
      .ok (filled, shelf.catalog.place filled generator) := by
    rw [prepare_withId] at compiled
    rw [Catalog.compileInto, bind_of_ok _ compiled, bind_of_ok _ installed]
  rw [createAndPersist] at unfailing ⊢
  simp only [identify_keeps kept, identify_catalog, prepare_withId, prepare_prepare, compiledInto] at unfailing ⊢
  constructor
  · cases written : (({ (shelf.identify (Definition.withId id (Definition.prepare candidate))).2 with
        catalog := shelf.catalog.place filled generator }).refreshListing.persist filled).1 with
    | ok done => exact ⟨_, rfl⟩
    | error error =>
        have failed := unfailing error (congrArg (Except.map _) written)
        exact absurd (persist_fails written) (Bool.eq_false_iff.mp failed)
  · refine ⟨⟨filled, generator, shelf.catalog.installs⟩, ?_, sameName⟩
    change (shelf.catalog.entries.insert (Definition.id filled) _).get? id = _
    rw [SortedMap.get_insert, if_pos sameId.symm]

theorem carry_out_renews_iff [RenumberedDefinition δ] (consistent : shelf.catalog.Consistent)
    (renewable : shelf.catalog.Renewable extensions candidate id) {marksNew : Bool}
    (unfailing : ∀ error, (shelf.carryOut extensions marksNew (shelf.classify candidate).1 (shelf.classify candidate).2).1 =
      .error error → error.isPersistence = false) :
    Catalog.Renews candidate id
        (shelf.carryOut extensions marksNew (shelf.classify candidate).1 (shelf.classify candidate).2).1
        (shelf.carryOut extensions marksNew (shelf.classify candidate).1 (shelf.classify candidate).2).2.catalog ↔
      ((shelf.classify candidate).1 = .update → id ≠ 0 ∨ shelf.ids.next = 0) := by
  obtain ⟨entry, found, unfixed, sameName⟩ := renewable.entry consistent
  have afterConsistent : (shelf.carryOut extensions marksNew (shelf.classify candidate).1
      (shelf.classify candidate).2).2.catalog.Consistent := carry_out_consistent consistent _ _
  rw [classify_held consistent renewable.named found] at unfailing afterConsistent ⊢
  dsimp only at unfailing afterConsistent ⊢
  cases change : Change.between entry.definition (Definition.withId id (Definition.prepare candidate)) with
  | noop =>
      refine iff_of_true ⟨⟨.noop, ?_⟩, consistent.held_by found sameName⟩ fun impossible => nomatch impossible
      simp only [carryOut, id_withId, name_withId, name_prepare]
  | updateWithoutRecompile =>
      rw [change] at unfailing afterConsistent
      obtain ⟨answered, stored, present, named⟩ := update_renews consistent renewable
        fun error failed => unfailing error (congrArg (Except.map _) failed)
      refine iff_of_true ⟨⟨.updateWithoutRecompile, ?_⟩, ?_⟩ fun impossible => nomatch impossible
      · simp only [carryOut, answered, Except.map, id_withId, name_withId, name_prepare]
      · exact afterConsistent.held_by present (congrArg foldName named)
  | update =>
      rw [change] at unfailing afterConsistent
      constructor
      · rintro ⟨⟨_, answered⟩, _⟩ _
        by_contra lost
        rw [not_or, not_not] at lost
        obtain ⟨rfl, counted⟩ := lost
        obtain ⟨text, done, _⟩ := map_ok answered
        exact update_zero_fails counted renewable.named text done
      · intro kept
        obtain ⟨⟨text, answered⟩, stored, present, named⟩ := compile_renews consistent renewable (kept rfl)
          fun error failed => unfailing error (congrArg (Except.map _) failed)
        refine ⟨⟨.update, ?_⟩, afterConsistent.held_by present (congrArg foldName named)⟩
        simp only [carryOut, answered, Except.map, id_withId, name_withId, name_prepare]
  | create => exact absurd change Change.between_not_create

end Shelf

end Kind

theorem error_of_map_error {α : Type} {answer : Except DefinitionError α}
    (failed : answer.mapError DefinitionError.isPersistence = .error false) :
    ∃ error, answer = .error error ∧ error.isPersistence = false := by
  cases answer with
  | ok value => cases failed
  | error error => exact ⟨error, rfl, Except.error.inj failed⟩

namespace Registry

variable {registry : Registry}

theorem put_index_renews_iff (consistent : registry.Consistent) {caller : Thread} {candidate : IndexDefinition}
    {id : UInt32} (admitted : registry.traffic.gate.admits caller .administration = true)
    (renewable : registry.indexes.Renewable registry.extensions candidate id)
    (unfailing : ∀ error, (registry.putIndex caller candidate).1 = .error error → error.isPersistence = false) :
    Catalog.Renews candidate id (registry.putIndex caller candidate).1 (registry.putIndex caller candidate).2.indexes ↔
      Blank.isBlankText candidate.name = false ∧
        ((registry.classifyIndex candidate).1 = .update → id ≠ 0 ∨ registry.ids.next = 0) := by
  by_cases blank : Blank.isBlankText candidate.name = true
  · have refused : registry.putRefusal? caller candidate = some .emptyName := if_pos blank
    rw [put_index_eq, refused]
    refine iff_of_false (fun renews => ?_) fun named => Bool.eq_false_iff.mp named.1 blank
    obtain ⟨_, answered⟩ := renews.answer
    cases answered
  · have allowed : registry.putRefusal? caller candidate = none := by
      rw [putRefusal?, if_neg blank, admitted, Bool.not_true, Bool.and_false, if_neg Bool.false_ne_true]
    rw [put_index_eq, allowed] at unfailing ⊢
    have isConsistent : registry.indexShelf.catalog.Consistent := consistent.1
    have isRenewable : registry.indexShelf.catalog.Renewable registry.extensions candidate id := renewable
    exact (Shelf.carry_out_renews_iff isConsistent isRenewable unfailing).trans
      (and_iff_right (Bool.eq_false_iff.mpr blank)).symm

theorem put_transformer_renews_iff (consistent : registry.Consistent) {candidate : TransformerDefinition} {id : UInt32}
    (renewable : registry.transformers.Renewable registry.extensions candidate id)
    (unfailing : ∀ error, (registry.putTransformer candidate).1 = .error error → error.isPersistence = false) :
    Catalog.Renews candidate id (registry.putTransformer candidate).1 (registry.putTransformer candidate).2.transformers ↔
      Blank.isBlankText candidate.name = false ∧
        ((registry.classifyTransformer candidate).1 = .update → id ≠ 0 ∨ registry.ids.next = 0) := by
  by_cases blank : Blank.isBlankText candidate.name = true
  · have refused : checkName candidate.name = .error .emptyName := if_pos blank
    rw [putTransformer, refused]
    refine iff_of_false (fun renews => ?_) fun named => Bool.eq_false_iff.mp named.1 blank
    obtain ⟨_, answered⟩ := renews.answer
    cases answered
  · have allowed : checkName candidate.name = .ok () := if_neg blank
    rw [putTransformer, allowed] at unfailing ⊢
    have isConsistent : registry.transformerShelf.catalog.Consistent := consistent.2
    have isRenewable : registry.transformerShelf.catalog.Renewable registry.extensions candidate id := renewable
    exact (Shelf.carry_out_renews_iff isConsistent isRenewable unfailing).trans
      (and_iff_right (Bool.eq_false_iff.mpr blank)).symm

/-- While no file fails, a put of a live name with a definition that compiles, where the live one may be replaced, answers
the id of the name and leaves the name to it, exactly if the name is not blank and the id is not zero. A zero that is live
is no hindrance if nothing is compiled, or if it is the next id anyway. -/
theorem opened_run_renews_iff {settings : RegistrySettings} {extensions : Extensions} {storage : ResultStorage}
    {disk : Disk} {opened : Registry} (started : openOn settings extensions storage disk = .ok opened)
    (events : List Event) :
    (∀ caller candidate id, (opened.run events).traffic.gate.admits caller .administration = true →
      (opened.run events).indexes.Renewable (opened.run events).extensions candidate id →
      (∀ error, ((opened.run events).putIndex caller candidate).1 = .error error → error.isPersistence = false) →
      (Catalog.Renews candidate id ((opened.run events).putIndex caller candidate).1
          ((opened.run events).putIndex caller candidate).2.indexes ↔
        Blank.isBlankText candidate.name = false ∧
          (((opened.run events).classifyIndex candidate).1 = .update → id ≠ 0 ∨ (opened.run events).ids.next = 0))) ∧
      ∀ candidate id, (opened.run events).transformers.Renewable (opened.run events).extensions candidate id →
        (∀ error, ((opened.run events).putTransformer candidate).1 = .error error → error.isPersistence = false) →
        (Catalog.Renews candidate id ((opened.run events).putTransformer candidate).1
            ((opened.run events).putTransformer candidate).2.transformers ↔
          Blank.isBlankText candidate.name = false ∧
            (((opened.run events).classifyTransformer candidate).1 = .update →
              id ≠ 0 ∨ (opened.run events).ids.next = 0)) := by
  have consistent := run_consistent (open_on_consistent started) events
  exact ⟨fun _ _ _ admitted renewable unfailing => put_index_renews_iff consistent admitted renewable unfailing,
    fun _ _ renewable unfailing => put_transformer_renews_iff consistent renewable unfailing⟩

theorem opened_run_renews_compiled :
    let dogs : IndexDefinition := .ofSingleMap "Dogs" "from d in docs select new \x7b d.Name \x7d"
    let candidate : IndexDefinition := .ofSingleMap "DOGS" "from d in docs select new \x7b d.Age \x7d"
    let events : List Event := [.putIndex "main" dogs]
    ∃ opened, openOn .standard .builtins .empty .absent = .ok opened ∧
      Catalog.Renews candidate 1 ((opened.run events).putIndex "main" candidate).1
        ((opened.run events).putIndex "main" candidate).2.indexes := by
  intro dogs candidate events
  have started : openOn .standard .builtins .empty .absent = .ok (fresh .standard .builtins .empty) :=
    open_on_empty rfl _ _ rfl
  let before := (fresh .standard .builtins .empty).run events
  have renewable : before.indexes.Renewable before.extensions candidate 1 := by decide +kernel
  have answered : (before.putIndex "main" candidate).1 = .ok ⟨1, "DOGS", .update⟩ := ok_of_to_option (by decide +kernel)
  have unfailing : ∀ error, (before.putIndex "main" candidate).1 = .error error → error.isPersistence = false := by
    intro error failed
    rw [answered] at failed
    cases failed
  obtain ⟨indexes, _⟩ := opened_run_renews_iff started events
  have admitted : before.traffic.gate.admits "main" .administration = true := by decide +kernel
  exact ⟨_, started, (indexes "main" candidate 1 admitted renewable unfailing).mpr ⟨by decide +kernel, fun _ => .inl (by decide)⟩⟩

-- The counter has begun anew and handed out zero, and the next update of that index runs into
-- its own name. An index with a blank name is created, but not updated.
theorem opened_run_renews_not :
    let dogs : IndexDefinition := .ofSingleMap "Dogs" "from d in docs select new \x7b d.Name \x7d"
    let candidate : IndexDefinition := .ofSingleMap "Dogs" "from d in docs select new \x7b d.Age \x7d"
    let events : List Event :=
      [.createIndex { dogs with id := IdCounter.lastId }, .removeIndex IdCounter.lastId, .allocateId, .createIndex dogs]
    let unnamed : List Event := [.createIndex { dogs with name := " " }]
    ∃ opened, openOn .standard .builtins .empty .absent = .ok opened ∧
      ((opened.run events).traffic.gate.admits "main" .administration = true ∧
        (opened.run events).indexes.Renewable (opened.run events).extensions candidate 0 ∧
        ∃ error, ((opened.run events).putIndex "main" candidate).1 = .error error ∧ error.isPersistence = false) ∧
      (opened.run unnamed).traffic.gate.admits "main" .administration = true ∧
        (opened.run unnamed).indexes.Renewable (opened.run unnamed).extensions { candidate with name := " " } 1 ∧
        ∃ error, ((opened.run unnamed).putIndex "main" { candidate with name := " " }).1 = .error error ∧
          error.isPersistence = false := by
  intro dogs candidate events unnamed
  have started : openOn .standard .builtins .empty .absent = .ok (fresh .standard .builtins .empty) :=
    open_on_empty rfl _ _ rfl
  refine ⟨_, started, ⟨by decide +kernel, by decide +kernel, error_of_map_error ?_⟩, by decide +kernel, by decide +kernel,
    error_of_map_error ?_⟩
  · decide +kernel
  · decide +kernel

end Registry
end DocumentViews
