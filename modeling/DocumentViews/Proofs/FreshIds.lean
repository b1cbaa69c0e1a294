import DocumentViews.Proofs.Numbering
import DocumentViews.Proofs.Run

set_option autoImplicit false

namespace DocumentViews.Registry

def issuedBy (registry : Registry) (event : Event) : List UInt32 :=
  match event with
  | .createIndex definition => registry.indexShelf.issuedToIdentify definition
  | .addIndex definition => registry.indexShelf.issuedToAdd definition
  | .putIndex caller definition =>
      match registry.putRefusal? caller definition with
      | some _ => []
      | none =>
          let (change, candidate) := registry.classifyIndex definition
          registry.indexShelf.issuedToCarryOut change candidate
  | .createTransformer definition => registry.transformerShelf.issuedToIdentify definition
  | .addTransformer definition => registry.transformerShelf.issuedToAdd definition
  | .putTransformer definition =>
      let (change, candidate) := registry.classifyTransformer definition
      if Blank.isBlankText definition.name then [] else registry.transformerShelf.issuedToCarryOut change candidate
  | .allocateId => [registry.allocateId.1]
  | _ => []

def issued (registry : Registry) : List Event → List UInt32
  | [] => []
  | event :: rest => registry.issuedBy event ++ (registry.perform event).2.issued rest

structure Issues (before : Registry) (issued : List UInt32) (after : Registry) : Prop where
  ids : before.ids.Issues issued after.ids
  indexes : ∀ {id : UInt32}, after.indexes.isLive id = true → before.indexes.isLive id = true ∨ after.ids.Passed id
  transformers : ∀ {id : UInt32}, after.transformers.isLive id = true →
    before.transformers.isLive id = true ∨ after.ids.Passed id
  keeps : issued ≠ [] → before.indexes.isLive before.ids.next = false →
    before.transformers.isLive before.ids.next = false →
      before.indexes.Keeps after.indexes ∧ before.transformers.Keeps after.transformers

theorem on_indexes_issues {α : Type} {registry : Registry} {issued : List UInt32}
    {operation : Shelf IndexDefinition IndexGenerator →
      Except DefinitionError α × Shelf IndexDefinition IndexGenerator}
    (issues : registry.indexShelf.Issues issued (operation registry.indexShelf).2) :
    registry.Issues issued (registry.onIndexes operation).2 where
  ids := issues.ids
  indexes := issues.live
  transformers live := .inl live
  keeps some index _ := ⟨issues.keeps some index, fun _ _ found => found⟩

theorem on_transformers_issues {α : Type} {registry : Registry} {issued : List UInt32}
    {operation : Shelf TransformerDefinition TransformerGenerator →
      Except DefinitionError α × Shelf TransformerDefinition TransformerGenerator}
    (issues : registry.transformerShelf.Issues issued (operation registry.transformerShelf).2) :
    registry.Issues issued (registry.onTransformers operation).2 where
  ids := issues.ids
  indexes live := .inl live
  transformers := issues.live
  keeps some _ transformer := ⟨fun _ _ found => found, issues.keeps some transformer⟩

section Operations

variable {registry : Registry}

theorem issues_nothing {after : Registry} (ids : after.ids = registry.ids)
    (indexes : ∀ {id : UInt32}, after.indexes.isLive id = true → registry.indexes.isLive id = true)
    (transformers : after.transformers = registry.transformers) : registry.Issues [] after where
  ids := IdCounter.issues_none (by rw [ids]; exact UInt32.le_refl _)
  indexes live := .inl (indexes live)
  transformers live := .inl (transformers ▸ live)
  keeps some := absurd rfl some

theorem issues_unchanged (registry : Registry) : registry.Issues [] registry :=
  issues_nothing rfl (fun live => live) rfl

theorem put_index_issues (started : registry.ids.next ≠ 0) (caller : Thread) (definition : IndexDefinition) :
    registry.Issues (registry.issuedBy (.putIndex caller definition)) (registry.putIndex caller definition).2 := by
  have carried : registry.Issues
      (registry.indexShelf.issuedToCarryOut (registry.classifyIndex definition).1 (registry.classifyIndex definition).2)
      (registry.onIndexes fun shelf => shelf.carryOut registry.extensions true
        (registry.classifyIndex definition).1 (registry.classifyIndex definition).2).2 :=
    on_indexes_issues (Shelf.carry_out_issues _ true _ _ started)
  rw [put_index_eq, issuedBy]
  cases registry.putRefusal? caller definition with
  | some error => exact registry.issues_unchanged
  | none => exact carried

theorem remove_index_issues (id : UInt32) (registry : Registry) : registry.Issues [] (registry.removeIndex id).2 :=
  on_indexes_issues (Shelf.remove_issues id _)

theorem delete_index_issues (caller : Thread) (name : String) :
    registry.Issues [] (registry.deleteIndex caller name).2 := by
  simp only [deleteIndex, administering]
  split
  · split
    · exact registry.issues_unchanged
    next id _ =>
      split
      · exact issues_nothing rfl (fun live => live) rfl
      · have removed := remove_index_issues id { registry with storage := (registry.storage.deleteIndex id).2 }
        exact ⟨removed.ids, removed.indexes, removed.transformers, removed.keeps⟩
  · exact registry.issues_unchanged

theorem replace_index_issues (consistent : registry.indexes.Consistent) (caller : Thread) (oldName newName : String) :
    registry.Issues [] (registry.replaceIndex caller oldName newName).2 := by
  unfold replaceIndex
  split
  · exact registry.issues_unchanged
  · simp only [administering]
    split
    · split
      · exact registry.issues_unchanged
      next definition found =>
        have live : registry.indexes.isLive definition.id = true := consistent.live_by_name found
        split
        · exact registry.issues_unchanged
        next generator compiled =>
          split
          · exact registry.issues_unchanged
          next catalog installed =>
            apply on_indexes_issues
            refine Shelf.issues_nothing (persist_promoted_ids _ _ _) fun {id} liveThere => ?_
            rw [persist_promoted_catalog] at liveThere
            rcases Catalog.live_after_displacing installed liveThere with same | before
            · have own : Definition.id ((promoted newName definition).fillFields generator) = definition.id :=
                IndexDefinition.fillFields_id _ _
              rw [same, own]
              exact live
            · exact before
    · exact registry.issues_unchanged

theorem put_transformer_issues (started : registry.ids.next ≠ 0) (definition : TransformerDefinition) :
    registry.Issues (registry.issuedBy (.putTransformer definition)) (registry.putTransformer definition).2 := by
  by_cases blank : Blank.isBlankText definition.name = true
  · simp only [issuedBy, putTransformer, checkName, if_pos blank]
    exact registry.issues_unchanged
  · simp only [issuedBy, putTransformer, checkName, if_neg blank]
    exact on_transformers_issues (Shelf.carry_out_issues _ false _ _ started)

theorem put_index_issued {caller : Thread} {definition : IndexDefinition} {outcome : PutOutcome}
    (put : (registry.putIndex caller definition).1 = .ok outcome) (created : outcome.change = .create) :
    outcome.id ∈ registry.issuedBy (.putIndex caller definition) := by
  rw [put_index_eq] at put
  rw [issuedBy]
  cases refusal : registry.putRefusal? caller definition with
  | some error =>
      rw [refusal] at put
      cases put
  | none =>
      rw [refusal] at put
      exact Shelf.carry_out_issued put created

theorem put_transformer_issued {definition : TransformerDefinition} {outcome : PutOutcome}
    (put : (registry.putTransformer definition).1 = .ok outcome) (created : outcome.change = .create) :
    outcome.id ∈ registry.issuedBy (.putTransformer definition) := by
  by_cases blank : Blank.isBlankText definition.name = true
  · simp only [putTransformer, checkName, if_pos blank] at put
    cases put
  · simp only [putTransformer, checkName, if_neg blank] at put
    simp only [issuedBy, if_neg blank]
    exact Shelf.carry_out_issued put created

theorem delete_transformer_issues (name : String) : registry.Issues [] (registry.deleteTransformer name).2 := by
  simp only [deleteTransformer]
  split
  · exact registry.issues_unchanged
  next id _ => exact on_transformers_issues (Shelf.remove_issues id _)

theorem perform_issues (consistent : registry.Consistent) (started : registry.ids.next ≠ 0) (event : Event) :
    registry.Issues (registry.issuedBy event) (registry.perform event).2 := by
  cases event with
  | createIndex definition => exact on_indexes_issues (Shelf.create_and_persist_places _ definition _).issues
  | addIndex definition => exact on_indexes_issues (Shelf.add_issues _ definition _)
  | putIndex caller definition => exact put_index_issues started caller definition
  | updateIndex definition => exact on_indexes_issues (Shelf.update_issues definition _)
  | readIndex key => exact issues_nothing rfl Catalog.live_after_fill rfl
  | registerNew key =>
      simp only [perform, registerNew]
      split
      · exact registry.issues_unchanged
      next id _ =>
        refine issues_nothing rfl (fun live => ?_) rfl
        rwa [Catalog.live_of_entries (Catalog.mark_new_entries _ id)] at live
  | removeIndex id => exact remove_index_issues id registry
  | deleteIndex caller name => exact delete_index_issues caller name
  | replaceIndex caller oldName newName => exact replace_index_issues consistent.1 caller oldName newName
  | createTransformer definition =>
      exact on_transformers_issues (Shelf.create_and_persist_places _ definition _).issues
  | addTransformer definition => exact on_transformers_issues (Shelf.add_issues _ definition _)
  | putTransformer definition => exact put_transformer_issues started definition
  | updateTransformer definition => exact on_transformers_issues (Shelf.update_issues definition _)
  | removeTransformer id => exact on_transformers_issues (Shelf.remove_issues id _)
  | deleteTransformer name => exact delete_transformer_issues name
  | allocateId =>
      exact ⟨registry.ids.allocate_issues, .inl, .inl, fun _ _ _ => ⟨fun _ _ found => found, fun _ _ found => found⟩⟩
  | turn move => exact issues_nothing rfl (fun live => live) rfl
  | failDeletes fails => exact issues_nothing rfl (fun live => live) rfl
  | meddle disk => exact issues_nothing rfl (fun live => live) rfl

end Operations

-- All that is live or was handed out is behind the counter, but for the last id, which may
-- be live.
structure Ahead (registry : Registry) (handed : List UInt32) : Prop where
  consistent : registry.Consistent
  started : registry.ids.next ≠ 0
  indexes : ∀ {id : UInt32}, registry.indexes.isLive id = true → registry.ids.Passed id
  transformers : ∀ {id : UInt32}, registry.transformers.isLive id = true → registry.ids.Passed id
  handed : ∀ id ∈ handed, id < registry.ids.next

theorem open_on_ahead {settings : RegistrySettings} {extensions : Extensions} {storage : ResultStorage} {disk : Disk}
    {opened : Registry} (started : openOn settings extensions storage disk = .ok opened) : opened.Ahead [] := by
  have consistent := open_on_consistent started
  obtain ⟨archive, _, started⟩ := bind_ok started
  obtain ⟨indexes, indexesLoaded, started⟩ := bind_ok started
  obtain ⟨transformers, transformersLoaded, started⟩ := bind_ok started
  cases started
  have indexesCounted := Loading.of_archive_counted indexesLoaded
  have transformersCounted := Loading.of_archive_counted transformersLoaded
  have forward := transformersCounted.forward
  refine ⟨consistent, ?_, fun live => (indexesCounted.passed live).mono forward, transformersCounted.passed, by simp⟩
  have positive : (1 : UInt32) ≤ transformers.shelf.ids.next := UInt32.le_trans indexesCounted.forward forward
  intro zero
  rw [show transformers.shelf.ids.next = 0 from zero] at positive
  exact absurd positive (by decide)

theorem Ahead.perform {registry : Registry} {handed : List UInt32} (ahead : registry.Ahead handed) {event : Event}
    (early : IdCounter.lastId ∉ registry.issuedBy event) :
    (registry.perform event).2.Ahead (handed ++ registry.issuedBy event) := by
  have issues := perform_issues ahead.consistent ahead.started event
  have forward := issues.ids.forward early
  refine ⟨comes_from_consistent ahead.consistent (perform_comes_from (registry.allows_lenient event)), ?_, ?_, ?_, ?_⟩
  · intro zero
    rw [zero] at forward
    exact ahead.started (UInt32.le_antisymm forward (UInt32.zero_le))
  · intro id live
    exact (issues.indexes live).elim (fun before => (ahead.indexes before).mono forward) fun passed => passed
  · intro id live
    exact (issues.transformers live).elim (fun before => (ahead.transformers before).mono forward) fun passed => passed
  · intro id member
    rcases List.mem_append.mp member with before | issued
    · exact UInt32.lt_of_lt_of_le (ahead.handed id before) forward
    · exact issues.ids.passed early id issued

theorem Ahead.run {registry : Registry} {handed : List UInt32} (ahead : registry.Ahead handed) {events : List Event}
    (early : IdCounter.lastId ∉ registry.issued events) :
    (registry.run events).Ahead (handed ++ registry.issued events) := by
  induction events generalizing registry handed with
  | nil =>
      rw [issued, List.append_nil]
      exact ahead
  | cons event rest ih =>
      rw [issued, List.mem_append, not_or] at early
      rw [issued, ← List.append_assoc]
      exact ih (ahead.perform early.1) early.2

def IsFree (registry : Registry) (id : UInt32) : Prop :=
  registry.indexes.isLive id = false ∧ registry.transformers.isLive id = false

def PlacesIssued (registry : Registry) (event : Event) : Prop :=
  ∃ id ∈ registry.issuedBy event, ¬ (registry.perform event).2.IsFree id

section Created

variable {registry : Registry}

theorem create_index_placed {definition : IndexDefinition} (nameless : definition.id = 0)
    (done : (registry.perform (.createIndex definition)).1 = .ok ()) : registry.PlacesIssued (.createIndex definition) := by
  obtain ⟨name, done, _⟩ := map_ok done
  obtain ⟨id, issued, live⟩ := Shelf.create_and_persist_issued nameless done
  exact ⟨id, issued, fun free => Bool.false_ne_true (free.1.symm.trans live)⟩

theorem create_transformer_placed {definition : TransformerDefinition} (nameless : definition.id = 0)
    (done : (registry.perform (.createTransformer definition)).1 = .ok ()) :
    registry.PlacesIssued (.createTransformer definition) := by
  obtain ⟨name, done, _⟩ := map_ok done
  obtain ⟨id, issued, live⟩ := Shelf.create_and_persist_issued nameless done
  exact ⟨id, issued, fun free => Bool.false_ne_true (free.2.symm.trans live)⟩

theorem add_index_placed {definition : IndexDefinition} (nameless : definition.id = 0)
    (free : registry.indexes.isLive 0 = false) (done : (registry.perform (.addIndex definition)).1 = .ok ()) :
    registry.PlacesIssued (.addIndex definition) := by
  obtain ⟨id, issued, live⟩ := Shelf.add_issued nameless free done
  exact ⟨id, issued, fun free => Bool.false_ne_true (free.1.symm.trans live)⟩

theorem add_transformer_placed {definition : TransformerDefinition} (nameless : definition.id = 0)
    (free : registry.transformers.isLive 0 = false) (done : (registry.perform (.addTransformer definition)).1 = .ok ()) :
    registry.PlacesIssued (.addTransformer definition) := by
  obtain ⟨id, issued, live⟩ := Shelf.add_issued nameless free done
  exact ⟨id, issued, fun free => Bool.false_ne_true (free.2.symm.trans live)⟩

end Created

-- What is asked of every event, where some ids have been handed out before. A put that has
-- created something answers the id that it was handed out, and a definition that comes without
-- an id is live under the one that it was handed out; an add does not ask for one if zero is live.
structure HandsOutFresh (registry : Registry) (handed : List UInt32) : Prop where
  first : ∀ {event : Event} {id : UInt32}, id ∈ registry.issuedBy event → id ∉ handed
  free : ∀ {event : Event} {id : UInt32}, id ∈ registry.issuedBy event → id ≠ IdCounter.lastId → registry.IsFree id
  keeps : ∀ {event : Event} {id : UInt32}, id ∈ registry.issuedBy event → registry.IsFree id →
    registry.indexes.Keeps (registry.perform event).2.indexes ∧
      registry.transformers.Keeps (registry.perform event).2.transformers
  put_index : ∀ {caller : Thread} {definition : IndexDefinition} {outcome : PutOutcome},
    (registry.putIndex caller definition).1 = .ok outcome → outcome.change = .create →
      outcome.id ∈ registry.issuedBy (.putIndex caller definition)
  put_transformer : ∀ {definition : TransformerDefinition} {outcome : PutOutcome},
    (registry.putTransformer definition).1 = .ok outcome → outcome.change = .create →
      outcome.id ∈ registry.issuedBy (.putTransformer definition)
  create_index : ∀ {definition : IndexDefinition}, definition.id = 0 →
    (registry.perform (.createIndex definition)).1 = .ok () → registry.PlacesIssued (.createIndex definition)
  create_transformer : ∀ {definition : TransformerDefinition}, definition.id = 0 →
    (registry.perform (.createTransformer definition)).1 = .ok () → registry.PlacesIssued (.createTransformer definition)
  add_index : ∀ {definition : IndexDefinition}, definition.id = 0 → registry.indexes.isLive 0 = false →
    (registry.perform (.addIndex definition)).1 = .ok () → registry.PlacesIssued (.addIndex definition)
  add_transformer : ∀ {definition : TransformerDefinition}, definition.id = 0 →
    registry.transformers.isLive 0 = false →
      (registry.perform (.addTransformer definition)).1 = .ok () → registry.PlacesIssued (.addTransformer definition)

theorem Ahead.hands_out_fresh {registry : Registry} {handed : List UInt32} (ahead : registry.Ahead handed) :
    registry.HandsOutFresh handed where
  first {event id} issued before := by
    have issues := perform_issues ahead.consistent ahead.started event
    have less := ahead.handed id before
    rw [issues.ids.next id issued] at less
    exact UInt32.lt_irrefl _ less
  free {event id} issued early := by
    have issues := perform_issues ahead.consistent ahead.started event
    have notPassed : ¬ registry.ids.Passed id := by
      intro passed
      rw [issues.ids.next id issued] at passed early
      exact passed.elim (UInt32.lt_irrefl _) early
    exact ⟨Bool.eq_false_iff.mpr fun live => notPassed (ahead.indexes live),
      Bool.eq_false_iff.mpr fun live => notPassed (ahead.transformers live)⟩
  keeps {event id} issued free := by
    have issues := perform_issues ahead.consistent ahead.started event
    rw [issues.ids.next id issued] at free
    exact issues.keeps (List.ne_nil_of_mem issued) free.1 free.2
  put_index put created := put_index_issued put created
  put_transformer put created := put_transformer_issued put created
  create_index := create_index_placed
  create_transformer := create_transformer_placed
  add_index := add_index_placed
  add_transformer := add_transformer_placed

/-- Until the counter has handed out the last id, whatever id it hands out was not handed out before, and unless it is that last
id it is not live. What gets an id that is not live takes nobody's place. -/
theorem opened_run_hands_out_fresh {settings : RegistrySettings} {extensions : Extensions} {storage : ResultStorage}
    {disk : Disk} {opened : Registry} (started : openOn settings extensions storage disk = .ok opened)
    {events : List Event} (early : IdCounter.lastId ∉ opened.issued events) :
    (opened.run events).HandsOutFresh (opened.issued events) :=
  ((open_on_ahead started).run early).hands_out_fresh

theorem opened_run_hands_out_fresh_created :
    let dogs : IndexDefinition := .ofSingleMap "Dogs" "from d in docs select new \x7b d.Name \x7d"
    let cats : IndexDefinition := .ofSingleMap "Cats" "from d in docs.Cats select new \x7b d.Name \x7d"
    let events : List Event := [.createIndex { dogs with id := 7 }, .allocateId]
    ∃ opened, openOn .standard .builtins .empty .absent = .ok opened ∧ (opened.run events).HandsOutFresh [8] ∧
      (opened.run events).issuedBy (.putIndex "main" cats) = [9] := by
  intro dogs cats events
  have started : openOn .standard .builtins .empty .absent = .ok (fresh .standard .builtins .empty) :=
    open_on_empty rfl _ _ rfl
  have handed : (fresh .standard .builtins .empty).issued events = [8] := by decide +kernel
  have early : IdCounter.lastId ∉ (fresh .standard .builtins .empty).issued events := by
    rw [handed]
    decide
  have handsOut := opened_run_hands_out_fresh started early
  rw [handed] at handsOut
  refine ⟨_, started, handsOut, ?_⟩
  decide +kernel

-- An explicit id may be the last one. The counter goes on to hand it out, and the definition
-- that is created takes the place of the other one.
theorem opened_run_hands_out_live :
    let dogs : IndexDefinition := .ofSingleMap "Dogs" "from d in docs select new \x7b d.Name \x7d"
    let cats : IndexDefinition := .ofSingleMap "Cats" "from d in docs.Cats select new \x7b d.Name \x7d"
    let events : List Event := [.createIndex { dogs with id := IdCounter.lastId }]
    ∃ opened, openOn .standard .builtins .empty .absent = .ok opened ∧
      (opened.run events).issuedBy (.putIndex "main" cats) = [IdCounter.lastId] ∧
      (opened.run events).indexes.isLive IdCounter.lastId = true ∧
      (opened.run events).indexes.containsName "Dogs" = true ∧
      ((opened.run events).perform (.putIndex "main" cats)).2.indexes.containsName "Dogs" = false := by
  intro dogs cats events
  have started : openOn .standard .builtins .empty .absent = .ok (fresh .standard .builtins .empty) :=
    open_on_empty rfl _ _ rfl
  refine ⟨_, started, ?_, ?_, ?_, ?_⟩
  · decide +kernel
  · decide +kernel
  · decide +kernel
  · decide +kernel

end DocumentViews.Registry
