import DocumentViews.Proofs.Alike
import DocumentViews.Proofs.FreshIds
import DocumentViews.Proofs.Promotion
import DocumentViews.Proofs.Removal

set_option autoImplicit false

namespace DocumentViews

section Kind

variable {δ γ : Type} [Definition δ γ]

namespace Catalog

-- Of what was live only what is taken away is gone, and of what is live the marked ones are
-- those that were so before and those that have earned it.
structure Follows (earned taken : UInt32 → Prop) (before after : Catalog δ γ) : Prop where
  live : ∀ {id : UInt32}, before.isLive id = true → (after.isLive id = true ↔ ¬ taken id)
  marks : ∀ id, after.isNew id = true ↔ after.isLive id = true ∧ (before.isNew id = true ∨ earned id)

variable {before after catalog : Catalog δ γ} {earned taken : UInt32 → Prop}

structure Grows (before after : Catalog δ γ) : Prop where
  marks : after.newIds = before.newIds
  entries : after.entries = before.entries ∨ ∃ placed entry, after.entries = before.entries.insert placed entry

omit [Definition δ γ] in
theorem Grows.live (grows : Grows before after) {id : UInt32} (live : before.isLive id = true) :
    after.isLive id = true := by
  rcases grows.entries with same | ⟨placed, entry, inserted⟩
  · rwa [live_of_entries same]
  · rw [isLive, inserted]
    exact SortedMap.contains_insert live _ _

omit [Definition δ γ] in
theorem grows_refl (catalog : Catalog δ γ) : Grows catalog catalog := ⟨rfl, .inl rfl⟩

theorem grows_replaced {definition : δ} (replaced : before.replaceDefinition definition = .ok after) : Grows before after := by
  obtain ⟨entry, _, _, _, rfl⟩ := replace_definition_ok replaced
  exact ⟨rfl, .inr ⟨_, _, rfl⟩⟩

theorem grows_compiled {extensions : Extensions} {definition filled : δ}
    (compiled : before.compileInto extensions definition = .ok (filled, after)) : Grows before after := by
  obtain ⟨generator, _, _, accepted⟩ := compile_into_ok compiled
  obtain ⟨_, _, rfl⟩ := install_ok accepted
  exact ⟨rfl, .inr ⟨_, _, rfl⟩⟩

theorem grows_filled (catalog : Catalog δ γ) (key : DefinitionKey) : Grows catalog (catalog.fill key).2 := by
  rcases catalog.fill_cases key with same | ⟨id, entry, _, filled⟩
  · rw [same]
    exact grows_refl catalog
  · rw [filled]
    exact ⟨rfl, .inr ⟨_, _, rfl⟩⟩

namespace Consistent

variable [LawfulDefinition δ γ]

theorem unmarked (consistent : catalog.Consistent) {id : UInt32} (absent : catalog.isLive id = false) :
    catalog.isNew id = false := by
  rw [Bool.eq_false_iff]
  exact fun marked => Bool.false_ne_true (absent.symm.trans (consistent.new_live marked))

theorem follows (consistent : before.Consistent) (failed : ∀ id, earned id → after.isLive id = false)
    (gone : ∀ id, taken id → after.isLive id = false ∧ after.isNew id = false)
    (kept : ∀ id, ¬ taken id → after.isNew id = before.isNew id ∧ (before.isLive id = true → after.isLive id = true)) :
    Follows earned taken before after where
  live {id} live := by
    by_cases takes : taken id
    · exact iff_of_false (by simp [gone id takes]) (not_not_intro takes)
    · exact iff_of_true ((kept id takes).2 live) takes
  marks id := by
    by_cases takes : taken id
    · simp [gone id takes]
    · obtain ⟨sameMark, stays⟩ := kept id takes
      rw [sameMark]
      refine ⟨fun marked => ⟨stays (consistent.new_live marked), .inl marked⟩, ?_⟩
      rintro ⟨live, marked | earns⟩
      · exact marked
      · exact absurd (live.symm.trans (failed id earns)) (by decide)

theorem follows_grown (consistent : before.Consistent) (grows : Grows before after)
    (failed : ∀ id, earned id → after.isLive id = false) (untaken : ∀ id, ¬ taken id) : Follows earned taken before after :=
  consistent.follows failed (fun id takes => absurd takes (untaken id)) fun id _ =>
    ⟨by rw [isNew, grows.marks, isNew], grows.live⟩

theorem follows_removed (consistent : catalog.Consistent) {removed : UInt32} (unearned : ∀ id, ¬ earned id)
    (same : ∀ id, taken id ↔ id = removed) : Follows earned taken catalog (catalog.remove removed) := by
  refine consistent.follows (fun id earns => absurd earns (unearned id)) (fun id takes => ?_) fun id spared => ?_
  · rw [(same id).mp takes]
    exact ⟨by simp [isLive, SortedMap.contains, Catalog.remove], by rw [remove_marks, if_pos rfl]⟩
  · rw [same] at spared
    refine ⟨by rw [remove_marks, if_neg spared], fun live => ?_⟩
    rwa [isLive, SortedMap.contains, Catalog.remove, SortedMap.get_erase, if_neg spared]

theorem follows_displacing (consistent : before.Consistent) {definition : δ} {generator : γ} {displaced : Option UInt32}
    (installed : before.installDisplacing definition generator displaced = .ok after)
    (apart : displaced ≠ some (Definition.id definition)) (unearned : ∀ id, ¬ earned id)
    (same : ∀ id, taken id ↔ displaced = some id) : Follows earned taken before after := by
  have displaces := displaces_of_installed apart installed
  refine consistent.follows (fun id earns => absurd earns (unearned id)) (fun id takes => ?_) fun id spared => ?_
  · obtain ⟨absent, unmarked⟩ := displaces.gone id ((same id).mp takes)
    exact ⟨by rw [isLive, SortedMap.contains, absent]; rfl, unmarked⟩
  · rw [same] at spared
    refine ⟨displaces.marks id spared, fun live => ?_⟩
    rw [isLive_iff] at live ⊢
    by_cases own : id = Definition.id definition
    · obtain ⟨stamp, stored⟩ := displaces.stored
      exact ⟨_, own ▸ stored⟩
    · rwa [displaces.others id own spared]

theorem mark_found (consistent : catalog.Consistent) (id : UInt32) :
    (catalog.markNew id).2.isNew id = catalog.isLive id := by
  cases live : catalog.isLive id with
  | false =>
      simp [markNew, live, consistent.unmarked live]
  | true =>
      cases marked : catalog.isNew id with
      | false =>
          have marking : (catalog.markNew id).2 = { catalog with newIds := catalog.newIds.insert id () } := by
            simp only [markNew, live, marked, Bool.not_false, Bool.and_self, if_true]
          rw [marking, isNew, SortedMap.contains, SortedMap.get_insert, if_pos rfl]
          rfl
      | true => simp [markNew, live, marked]

theorem follows_marked (consistent : catalog.Consistent) {marked : UInt32} (same : ∀ id, earned id ↔ id = marked)
    (untaken : ∀ id, ¬ taken id) : Follows earned taken catalog (catalog.markNew marked).2 where
  live {id} live := by
    rw [live_of_entries (catalog.mark_new_entries marked)]
    exact iff_of_true live (untaken id)
  marks id := by
    rw [live_of_entries (catalog.mark_new_entries marked), same]
    by_cases own : id = marked
    · rw [own, consistent.mark_found]
      simp
    · rw [mark_spares _ own]
      simpa [own] using consistent.new_live

theorem follows_created (consistent : before.Consistent) {created : Catalog δ γ} (createdConsistent : created.Consistent)
    (grows : Grows before created) {next : UInt32} (free : before.isLive next = false)
    (others : ∀ id, id ≠ next → created.isLive id = before.isLive id) :
    Follows (fun id => before.isLive id = false) (fun _ => False) before (created.markNew next).2 where
  live {id} live := by
    rw [live_of_entries (created.mark_new_entries next)]
    exact iff_of_true (grows.live live) not_false
  marks id := by
    rw [live_of_entries (created.mark_new_entries next)]
    by_cases own : id = next
    · rw [own, createdConsistent.mark_found, free]
      simp
    · rw [mark_spares _ own, isNew, grows.marks, ← isNew, others id own]
      cases live : before.isLive id with
      | true => simp
      | false => simp [consistent.unmarked live]

end Consistent

end Catalog

namespace Shelf

variable {extensions : Extensions} {shelf : Shelf δ γ}

open Catalog

theorem update_grows (definition : δ) (shelf : Shelf δ γ) :
    Grows shelf.catalog (shelf.updateWithoutRecompile definition).2.catalog := by
  unfold updateWithoutRecompile
  split
  next => exact grows_refl _
  next catalog replaced => exact grows_replaced replaced

theorem create_and_persist_grows (extensions : Extensions) (definition : δ) (shelf : Shelf δ γ) :
    Grows shelf.catalog (shelf.createAndPersist extensions definition).2.catalog := by
  rw [← identify_catalog definition shelf]
  unfold createAndPersist
  dsimp only
  split
  next => exact grows_refl _
  next installed catalog compiled => exact grows_compiled compiled

theorem add_grows (extensions : Extensions) (definition : δ) (shelf : Shelf δ γ) :
    Grows shelf.catalog (shelf.add extensions definition).2.catalog := by
  unfold add
  split
  · split
    next => exact grows_refl _
    next catalog replaced => exact grows_replaced replaced
  · rw [← identify_catalog definition shelf]
    dsimp only
    split
    next => exact grows_refl _
    next installed catalog compiled => exact grows_compiled compiled

variable [LawfulDefinition δ γ]

theorem create_and_persist_consistent (extensions : Extensions) (definition : δ) (shelf : Shelf δ γ)
    (consistent : shelf.catalog.Consistent) : (shelf.createAndPersist extensions definition).2.catalog.Consistent := by
  have updated : (shelf.carryOut extensions true .update definition).2.catalog.Consistent :=
    carry_out_consistent consistent .update definition
  exact updated

-- The new id is the next one, which keeps others from getting a second one instead.
theorem create_follows (consistent : shelf.catalog.Consistent) (started : shelf.ids.next ≠ 0)
    (free : shelf.catalog.isLive shelf.ids.next = false) (definition : δ) :
    Follows (fun id => shelf.catalog.isLive id = false) (fun _ => False) shelf.catalog
      (shelf.create extensions true definition).2.catalog := by
  have named : Definition.id (Definition.withId shelf.ids.next definition) ≠ 0 := by
    rw [LawfulDefinition.id_withId]
    exact started
  have grows := create_and_persist_grows extensions (Definition.withId shelf.ids.next definition)
    { shelf with ids := shelf.ids.allocate.2 }
  have places := (create_and_persist_places extensions (Definition.withId shelf.ids.next definition)
    { shelf with ids := shelf.ids.allocate.2 }).named named
  have createdConsistent := create_and_persist_consistent extensions (Definition.withId shelf.ids.next definition)
    { shelf with ids := shelf.ids.allocate.2 } consistent
  have marking : (shelf.create extensions true definition).2.catalog =
      ((createAndPersist extensions (Definition.withId shelf.ids.next definition)
        { shelf with ids := shelf.ids.allocate.2 }).2.catalog.markNew shelf.ids.next).2 := rfl
  rw [marking]
  refine consistent.follows_created createdConsistent grows free fun id different => ?_
  rw [LawfulDefinition.id_withId] at places
  obtain ⟨_, same | ⟨entry, inserted⟩⟩ := places
  · exact live_of_entries same id
  · rw [isLive, SortedMap.contains, inserted, SortedMap.get_insert, if_neg different]
    rfl

theorem carry_out_follows (extensions : Extensions) (consistent : shelf.catalog.Consistent) (started : shelf.ids.next ≠ 0)
    {change : Change} (free : change = .create → shelf.catalog.isLive shelf.ids.next = false) (definition : δ) :
    Follows (fun id => change = .create ∧ shelf.catalog.isLive id = false) (fun _ => False) shelf.catalog
      (shelf.carryOut extensions true change definition).2.catalog := by
  cases change with
  | create =>
      simp only [true_and]
      exact create_follows consistent started (free rfl) definition
  | noop => exact consistent.follows_grown (grows_refl _) (by simp) (by simp)
  | updateWithoutRecompile => exact consistent.follows_grown (update_grows definition shelf) (by simp) (by simp)
  | update => exact consistent.follows_grown (create_and_persist_grows extensions definition shelf) (by simp) (by simp)

theorem remove_follows (consistent : shelf.catalog.Consistent) {earned taken : UInt32 → Prop} {removed : UInt32}
    (unearned : ∀ id, ¬ earned id) (same : ∀ id, taken id ↔ id = removed) :
    Follows earned taken shelf.catalog (shelf.remove removed).2.catalog := by
  rw [remove_catalog]
  split
  next => exact consistent.follows_removed unearned same
  next notLive =>
    have absent : shelf.catalog.isLive removed = false := Bool.eq_false_iff.mpr notLive
    refine consistent.follows (fun id earns => absurd earns (unearned id)) (fun id takes => ?_) fun id _ =>
      ⟨rfl, fun live => live⟩
    rw [(same id).mp takes]
    exact ⟨absent, consistent.unmarked absent⟩

end Shelf
end Kind

namespace Registry

-- Whether the event asks for the mark of an index. What a put is about to create is not live
-- yet.
def Earns (registry : Registry) (id : UInt32) : Event → Prop
  | .putIndex _ definition => (registry.classifyIndex definition).1 = .create ∧ registry.indexes.isLive id = false
  | .registerNew key => registry.indexes.resolve key = some id
  | _ => False

-- Whether the event removes, deletes or displaces an index. This has happened also where the
-- answer is that a file has failed.
def Takes (registry : Registry) (id : UInt32) : Event → Prop
  | .removeIndex removed => id = removed
  | .deleteIndex caller name => registry.deleted? caller name = some id
  | .replaceIndex caller oldName newName =>
      (∀ error, (registry.replaceIndex caller oldName newName).1 = .error error → error.isPersistence = true) ∧
        ∃ previous, registry.indexes.get? (.name oldName) = some previous ∧
          registry.displacedBy newName previous.id = some id
  | _ => False

def Earned (registry : Registry) (id : UInt32) (events : List Event) : Prop :=
  ∃ earlier event later, events = earlier ++ event :: later ∧ (registry.run earlier).Earns id event ∧
    ∀ between, between <+: later → (registry.run (earlier ++ event :: between)).indexes.isLive id = true

open Catalog

section Operations

variable {registry : Registry}

theorem follows_unchanged (consistent : registry.Consistent) {event : Event} {after : Catalog IndexDefinition IndexGenerator}
    (same : after = registry.indexes) (unearned : ∀ id, registry.Earns id event → registry.indexes.isLive id = false)
    (untaken : ∀ id, ¬ registry.Takes id event) :
    Follows (registry.Earns · event) (registry.Takes · event) registry.indexes after :=
  consistent.1.follows_grown (same ▸ grows_refl _) (same ▸ unearned) untaken

theorem put_index_follows (consistent : registry.Consistent) (started : registry.ids.next ≠ 0) (caller : Thread)
    (definition : IndexDefinition)
    (free : registry.putRefusal? caller definition = none → (registry.classifyIndex definition).1 = .create →
      registry.indexes.isLive registry.ids.next = false) :
    Follows (registry.Earns · (.putIndex caller definition)) (registry.Takes · (.putIndex caller definition))
      registry.indexes (registry.putIndex caller definition).2.indexes := by
  have indexes : registry.indexShelf.catalog.Consistent := consistent.1
  rw [put_index_eq]
  cases refusal : registry.putRefusal? caller definition with
  | some error => exact follows_unchanged consistent rfl (fun _ => And.right) fun _ => not_false
  | none =>
      exact Shelf.carry_out_follows registry.extensions indexes started (free refusal) (registry.classifyIndex definition).2

theorem register_new_follows (consistent : registry.Consistent) (key : DefinitionKey) :
    Follows (registry.Earns · (.registerNew key)) (registry.Takes · (.registerNew key)) registry.indexes
      (registry.registerNew key).2.indexes := by
  unfold registerNew
  split
  next unresolved =>
    refine follows_unchanged consistent rfl (fun id earns => ?_) fun _ => not_false
    rw [Earns, unresolved] at earns
    cases earns
  next marked resolved =>
    refine consistent.1.follows_marked (fun id => ?_) fun _ => not_false
    rw [Earns, resolved, Option.some_inj, eq_comm]

theorem remove_index_follows (consistent : registry.Consistent) (removed : UInt32) :
    Follows (registry.Earns · (.removeIndex removed)) (registry.Takes · (.removeIndex removed)) registry.indexes
      (registry.removeIndex removed).2.indexes := by
  have indexes : registry.indexShelf.catalog.Consistent := consistent.1
  exact Shelf.remove_follows indexes (fun _ => not_false) fun _ => .rfl

theorem delete_index_follows (consistent : registry.Consistent) (caller : Thread) (name : String) :
    Follows (registry.Earns · (.deleteIndex caller name)) (registry.Takes · (.deleteIndex caller name)) registry.indexes
      (registry.deleteIndex caller name).2.indexes := by
  have indexes : registry.indexShelf.catalog.Consistent := consistent.1
  have unchanged : registry.deleted? caller name = none →
      Follows (registry.Earns · (.deleteIndex caller name)) (registry.Takes · (.deleteIndex caller name)) registry.indexes
        registry.indexes := by
    intro nothing
    refine follows_unchanged consistent rfl (fun _ => False.elim) fun id takes => ?_
    rw [Takes, nothing] at takes
    cases takes
  unfold deleteIndex administering
  split
  next admitted =>
    dsimp only
    split
    next unresolved => exact unchanged (by rw [deleted?, if_pos admitted, unresolved]; rfl)
    next removed resolved =>
      split
      next error refused =>
        refine unchanged ?_
        rw [deleted?, if_pos admitted, resolved]
        simp [Option.filter, refused, Except.isOk, Except.toBool]
      next done =>
        have deleted : registry.deleted? caller name = some removed := by
          rw [deleted?, if_pos admitted, resolved]
          simp [Option.filter, done, Except.isOk, Except.toBool]
        refine Shelf.remove_follows indexes (fun _ => not_false) fun id => ?_
        rw [Takes, deleted, Option.some_inj, eq_comm]
  next refused => exact unchanged (by rw [deleted?, if_neg refused])

theorem replace_index_outcome {caller : Thread} {oldName newName : String} {outcome : Except DefinitionError Bool × Registry}
    (replaced : registry.replaceIndex caller oldName newName = outcome) :
    (∃ error, error.isPersistence = false ∧ outcome = (.error error, registry)) ∨
      (registry.indexes.get? (.name oldName) = none ∧ outcome = (.ok false, registry)) ∨
      ∃ previous generator catalog, registry.indexes.get? (.name oldName) = some previous ∧
        registry.indexes.installDisplacing ((promoted newName previous).fillFields generator) generator
          (registry.displacedBy newName previous.id) = .ok catalog ∧
        outcome.2.indexes = catalog ∧ ∀ error, outcome.1 = .error error → error.isPersistence = true := by
  unfold replaceIndex administering at replaced
  split at replaced
  next error blank => exact .inl ⟨error, check_name_not_persistence blank, replaced.symm⟩
  next =>
    split at replaced
    next =>
      dsimp only at replaced
      split at replaced
      next missing => exact .inr (.inl ⟨missing, replaced.symm⟩)
      next previous found =>
        split at replaced
        next error failed =>
          obtain ⟨fault, rfl⟩ := IndexDefinition.compile_fails failed
          exact .inl ⟨_, rfl, replaced.symm⟩
        next generator compiled =>
          split at replaced
          next error failed =>
            exact .inl ⟨error, (Catalog.install_displacing_fails failed).not_persistence, replaced.symm⟩
          next catalog installed =>
            refine .inr (.inr ⟨previous, generator, catalog, found, installed, ?_, fun error failed => ?_⟩)
            · rw [← replaced]
              exact persist_promoted_catalog _ _ _
            · rw [← replaced] at failed
              exact persist_promoted_fails failed
    next => exact .inl ⟨_, rfl, replaced.symm⟩

theorem replace_index_follows (consistent : registry.Consistent) (caller : Thread) (oldName newName : String) :
    Follows (registry.Earns · (.replaceIndex caller oldName newName))
      (registry.Takes · (.replaceIndex caller oldName newName)) registry.indexes
      (registry.replaceIndex caller oldName newName).2.indexes := by
  cases replaced : registry.replaceIndex caller oldName newName with
  | mk answer after =>
      rcases replace_index_outcome replaced with ⟨error, final, same⟩ | ⟨missing, same⟩ |
        ⟨previous, generator, catalog, found, installed, same, failed⟩
      · cases same
        refine follows_unchanged consistent rfl (fun _ => False.elim) fun id takes => ?_
        exact Bool.false_ne_true (final.symm.trans (takes.1 error (congrArg Prod.fst replaced)))
      · cases same
        refine follows_unchanged consistent rfl (fun _ => False.elim) fun id takes => ?_
        obtain ⟨_, previous, found, _⟩ := takes
        rw [missing] at found
        cases found
      · have own : Definition.id ((promoted newName previous).fillFields generator) = previous.id :=
          IndexDefinition.fillFields_id _ _
        rw [same]
        refine consistent.1.follows_displacing installed (fun displaced => ?_) (fun _ => not_false) fun id => ?_
        · rw [own] at displaced
          exact (displaced_by_iff.mp displaced).2 rfl
        · simp only [Takes, replaced, found, Option.some.injEq, exists_eq_left']
          exact and_iff_right failed

end Operations

theorem put_transformer_indexes (definition : TransformerDefinition) (registry : Registry) :
    (registry.putTransformer definition).2.indexes = registry.indexes := by
  unfold putTransformer
  split <;> rfl

theorem delete_transformer_indexes (name : String) (registry : Registry) :
    (registry.deleteTransformer name).2.indexes = registry.indexes := by
  unfold deleteTransformer
  split <;> rfl

theorem Ahead.follows {registry : Registry} {handed : List UInt32} (ahead : registry.Ahead handed) {event : Event}
    (early : IdCounter.lastId ∉ registry.issuedBy event) :
    Follows (registry.Earns · event) (registry.Takes · event) registry.indexes (registry.perform event).2.indexes := by
  have consistent := ahead.consistent
  have kept : ∀ {after}, registry.indexes.Grows after → Follows (fun _ => False) (fun _ => False) registry.indexes after :=
    fun grows => consistent.1.follows_grown grows (fun _ => False.elim) fun _ => not_false
  have same : ∀ {after}, after = registry.indexes → Follows (fun _ => False) (fun _ => False) registry.indexes after :=
    fun same => kept (same ▸ grows_refl _)
  cases event with
  | createIndex definition => exact kept (Shelf.create_and_persist_grows _ definition registry.indexShelf)
  | addIndex definition => exact kept (Shelf.add_grows _ definition registry.indexShelf)
  | updateIndex definition => exact kept (Shelf.update_grows definition registry.indexShelf)
  | readIndex key => exact kept (grows_filled registry.indexes key)
  | putIndex caller definition =>
      refine put_index_follows consistent ahead.started caller definition fun admitted created => ?_
      have issued : registry.ids.next ∈ registry.issuedBy (.putIndex caller definition) := by
        rw [issuedBy, admitted]
        simp only [Shelf.issuedToCarryOut, created]
        exact List.mem_cons_self
      rw [Bool.eq_false_iff]
      intro live
      rcases ahead.indexes live with less | last
      · exact UInt32.lt_irrefl _ less
      · exact early (last ▸ issued)
  | registerNew key => exact register_new_follows consistent key
  | removeIndex removed => exact remove_index_follows consistent removed
  | deleteIndex caller name => exact delete_index_follows consistent caller name
  | replaceIndex caller oldName newName => exact replace_index_follows consistent caller oldName newName
  | createTransformer definition => exact same rfl
  | addTransformer definition => exact same rfl
  | putTransformer definition => exact same (put_transformer_indexes definition registry)
  | updateTransformer definition => exact same rfl
  | removeTransformer id => exact same rfl
  | deleteTransformer name => exact same (delete_transformer_indexes name registry)
  | allocateId => exact same rfl
  | turn move => exact same rfl
  | failDeletes fails => exact same rfl
  | meddle disk => exact same rfl

section Runs

variable {registry : Registry} {events : List Event} {event : Event} {id : UInt32}

theorem run_concat (registry : Registry) (events : List Event) (event : Event) :
    registry.run (events ++ [event]) = ((registry.run events).perform event).2 := by
  rw [run, List.foldl_append]
  rfl

theorem issued_concat (registry : Registry) (events : List Event) (event : Event) :
    registry.issued (events ++ [event]) = registry.issued events ++ (registry.run events).issuedBy event := by
  induction events generalizing registry with
  | nil => simp [issued, run]
  | cons first rest ih =>
      rw [List.cons_append, issued, ih, issued, List.append_assoc]
      rfl

theorem earned_concat : registry.Earned id (events ++ [event]) ↔
    (registry.run (events ++ [event])).indexes.isLive id = true ∧
      (registry.Earned id events ∨ (registry.run events).Earns id event) := by
  constructor
  · rintro ⟨earlier, earning, later, split, earns, live⟩
    rcases List.eq_nil_or_concat later with rfl | ⟨later, last, rfl⟩
    · obtain ⟨rfl, same⟩ := List.append_inj' split rfl
      cases same
      exact ⟨live [] List.prefix_rfl, .inr earns⟩
    · rw [List.concat_eq_append] at split live
      rw [← List.cons_append, ← List.append_assoc] at split
      obtain ⟨rfl, same⟩ := List.append_inj' split rfl
      cases same
      refine ⟨?_, .inl ⟨earlier, earning, later, rfl, earns, fun between within => ?_⟩⟩
      · simpa using live _ List.prefix_rfl
      · exact live between (within.trans (List.prefix_append _ _))
  · rintro ⟨liveNow, ⟨earlier, earning, later, rfl, earns, live⟩ | earns⟩
    · refine ⟨earlier, earning, later ++ [event], by simp, earns, fun between within => ?_⟩
      rcases List.prefix_concat_iff.mp within with rfl | within
      · simpa using liveNow
      · exact live between within
    · refine ⟨events, event, [], rfl, earns, fun between within => ?_⟩
      rw [List.prefix_nil.mp within]
      exact liveNow

theorem run_marks {handed : List UInt32} (ahead : registry.Ahead handed)
    (unmarked : ∀ id, registry.indexes.isNew id = false) (early : IdCounter.lastId ∉ registry.issued events) :
    (registry.run events).indexes.isNew id = true ↔ registry.Earned id events := by
  -- Each event is judged in the registry that the events before it have led to.
  induction events using List.reverseRecOn with
  | nil =>
      refine iff_of_false (by simp [run, unmarked]) ?_
      rintro ⟨earlier, event, later, split, _⟩
      simp at split
  | append_singleton events event ih =>
      rw [issued_concat, List.mem_append, not_or] at early
      have follows := (ahead.run early.1).follows early.2
      rw [earned_concat, ← ih early.1, run_concat]
      exact follows.marks id

end Runs

theorem open_on_unmarked {settings : RegistrySettings} {extensions : Extensions} {storage : ResultStorage} {disk : Disk}
    {opened : Registry} (started : openOn settings extensions storage disk = .ok opened) (id : UInt32) :
    opened.indexes.isNew id = false := by
  obtain ⟨archive, _, started⟩ := bind_ok started
  obtain ⟨indexes, _, started⟩ := bind_ok started
  obtain ⟨transformers, _, started⟩ := bind_ok started
  cases started
  rfl

/-- No index is marked when a registry is opened. Until the counter has handed out the last id, an index is marked exactly if
some event has earned it the mark and it is live ever since, and only what is taken away loses it. -/
theorem opened_run_marks {settings : RegistrySettings} {extensions : Extensions} {storage : ResultStorage} {disk : Disk}
    {opened : Registry} (started : openOn settings extensions storage disk = .ok opened) {events : List Event}
    (early : IdCounter.lastId ∉ opened.issued events) :
    (∀ id, opened.indexes.isNew id = false) ∧
      (∀ id, (opened.run events).indexes.isNew id = true ↔ opened.Earned id events) ∧
      ∀ event, IdCounter.lastId ∉ (opened.run events).issuedBy event →
        Follows ((opened.run events).Earns · event) ((opened.run events).Takes · event) (opened.run events).indexes
          ((opened.run events).perform event).2.indexes := by
  have ahead := open_on_ahead started
  exact ⟨open_on_unmarked started, fun id => run_marks ahead (open_on_unmarked started) early,
    fun event earlyThere => (ahead.run early).follows earlyThere⟩

-- The first index is created by a put, removed, and created again under its old id; the second
-- one was added, and somebody has asked for its mark.
theorem opened_run_marks_registered :
    let dogs : IndexDefinition := .ofSingleMap "Dogs" "from d in docs select new \x7b d.Name \x7d"
    let cats : IndexDefinition := .ofSingleMap "Cats" "from d in docs.Cats select new \x7b d.Name \x7d"
    let events : List Event := [.putIndex "main" dogs, .addIndex cats, .registerNew (.name "Cats"), .removeIndex 1,
      .createIndex { dogs with id := 1 }]
    ∃ opened, openOn .standard .builtins .empty .absent = .ok opened ∧ opened.Earned 2 events ∧ ¬ opened.Earned 1 events ∧
      (opened.run events).indexes.isLive 1 = true ∧
      ((opened.run events).perform (.replaceIndex "main" "Cats" "Dogs")).2.indexes.isNew 2 = true := by
  intro dogs cats events
  have started : openOn .standard .builtins .empty .absent = .ok (fresh .standard .builtins .empty) :=
    open_on_empty rfl _ _ rfl
  have early : IdCounter.lastId ∉ (fresh .standard .builtins .empty).issued events := by decide +kernel
  obtain ⟨_, marks, follows⟩ := opened_run_marks started early
  have promotes := follows (.replaceIndex "main" "Cats" "Dogs") (by decide +kernel)
  have second : ((fresh .standard .builtins .empty).run events).indexes.isNew 2 = true := by decide +kernel
  refine ⟨_, started, (marks 2).mp second, fun earned => ?_, by decide +kernel, ?_⟩
  · exact absurd ((marks 1).mpr earned) (by decide +kernel)
  · exact (promotes.marks 2).mpr ⟨by decide +kernel, .inl second⟩

end Registry
end DocumentViews
