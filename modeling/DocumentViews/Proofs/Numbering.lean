import DocumentViews.Proofs.Shelf

set_option autoImplicit false

namespace DocumentViews

namespace IdCounter

def lastId : UInt32 := 4294967295

-- Not handed out any more before the last id is.
def Passed (counter : IdCounter) (id : UInt32) : Prop := id < counter.next ∨ id = lastId

theorem above {id : UInt32} (early : id ≠ lastId) : id < id + 1 := by
  unfold lastId at early
  grind

theorem passed_successor (id : UInt32) : id < successor id ∨ id = lastId := by
  unfold successor lastId
  grind

variable {counter other : IdCounter} {id : UInt32}

theorem Passed.mono (passed : counter.Passed id) (forward : counter.next ≤ other.next) : other.Passed id :=
  passed.imp_left fun less => UInt32.lt_of_lt_of_le less forward

theorem reserve_forward (counter : IdCounter) (id : UInt32) : counter.next ≤ (counter.reserveThrough id).next := by
  simp only [reserveThrough]
  split
  next less => exact UInt32.le_of_lt less
  next => exact UInt32.le_refl _

theorem reserve_passed (counter : IdCounter) (id : UInt32) : (counter.reserveThrough id).Passed id := by
  have passed : (⟨successor id⟩ : IdCounter).Passed id := passed_successor id
  refine passed.mono ?_
  simp only [reserveThrough]
  split
  next => exact UInt32.le_refl _
  next notLess => exact UInt32.not_lt.mp notLess

theorem allocate_passed (counter : IdCounter) : counter.allocate.2.Passed counter.next := by
  by_cases last : counter.next = lastId
  · exact .inr last
  · exact .inl (above last)

structure Issues (before : IdCounter) (issued : List UInt32) (after : IdCounter) : Prop where
  next : ∀ id ∈ issued, id = before.next
  forward : lastId ∉ issued → before.next ≤ after.next
  passed : lastId ∉ issued → ∀ id ∈ issued, id < after.next

theorem issues_none (forward : counter.next ≤ other.next) : counter.Issues [] other :=
  ⟨by simp, fun _ => forward, by simp⟩

theorem issues_next (counted : counter.next ≠ lastId → other.next = counter.next + 1) :
    counter.Issues [counter.next] other := by
  have less : lastId ∉ [counter.next] → counter.next < other.next := by
    intro early
    have notLast : counter.next ≠ lastId := by simpa [eq_comm] using early
    rw [counted notLast]
    exact above notLast
  refine ⟨by simp, fun early => UInt32.le_of_lt (less early), ?_⟩
  intro early id member
  rw [List.mem_singleton.mp member]
  exact less early

theorem allocate_issues (counter : IdCounter) : counter.Issues [counter.next] counter.allocate.2 :=
  issues_next fun _ => rfl

theorem reserve_after_allocate (early : counter.next ≠ lastId) :
    counter.allocate.2.reserveThrough counter.next = counter.allocate.2 := by
  have successor : successor counter.next = counter.next + 1 := by
    unfold IdCounter.successor lastId at *
    grind
  rw [reserveThrough, successor]
  exact if_neg (UInt32.lt_irrefl _)

end IdCounter

namespace Catalog

variable {δ γ : Type}

def Keeps (before after : Catalog δ γ) : Prop :=
  ∀ id entry, before.entries.get? id = some entry → after.entries.get? id = some entry

theorem live_of_entries {before after : Catalog δ γ} (same : after.entries = before.entries) (id : UInt32) :
    after.isLive id = before.isLive id := by
  rw [isLive, isLive, same]

theorem keeps_of_entries {before after : Catalog δ γ} (same : after.entries = before.entries) : before.Keeps after := by
  intro id entry found
  rw [same]
  exact found

section Insert

variable {before after : Catalog δ γ} {placed : UInt32} {entry : CatalogEntry δ γ}

theorem live_after_insert (inserted : after.entries = before.entries.insert placed entry) {id : UInt32}
    (live : after.isLive id = true) : id = placed ∨ before.isLive id = true := by
  rw [isLive, SortedMap.contains, inserted, SortedMap.get_insert] at live
  by_cases same : id = placed
  · exact .inl same
  · rw [if_neg same] at live
    exact .inr live

theorem placed_live (inserted : after.entries = before.entries.insert placed entry) : after.isLive placed = true := by
  rw [isLive, SortedMap.contains, inserted, SortedMap.get_insert, if_pos rfl]
  rfl

theorem keeps_insert (inserted : after.entries = before.entries.insert placed entry)
    (notLive : before.isLive placed = false) : before.Keeps after := by
  intro id other found
  have different : id ≠ placed := by
    intro same
    rw [isLive, SortedMap.contains, ← same, found] at notLive
    cases notLive
  rw [inserted, SortedMap.get_insert, if_neg different]
  exact found

end Insert

theorem live_after_remove {catalog : Catalog δ γ} [Definition δ γ] {removed id : UInt32}
    (live : (catalog.remove removed).isLive id = true) : catalog.isLive id = true := by
  simp only [isLive, SortedMap.contains, remove, SortedMap.get_erase] at live ⊢
  split at live
  · cases live
  · exact live

section Kind

variable [Definition δ γ]

theorem compile_into_entries {extensions : Extensions} {catalog next : Catalog δ γ} {definition filled : δ}
    (compiled : catalog.compileInto extensions definition = .ok (filled, next)) :
    ∃ entry, next.entries = catalog.entries.insert (Definition.id filled) entry := by
  obtain ⟨generator, _, _, accepted⟩ := compile_into_ok compiled
  obtain ⟨_, _, rfl⟩ := install_ok accepted
  exact ⟨_, rfl⟩

theorem live_after_replace {catalog next : Catalog δ γ} {definition : δ}
    (replaced : catalog.replaceDefinition definition = .ok next) {id : UInt32} (live : next.isLive id = true) :
    catalog.isLive id = true := by
  obtain ⟨entry, found, _, _, rfl⟩ := replace_definition_ok replaced
  rcases live_after_insert rfl live with same | before
  · rw [same, isLive, SortedMap.contains, found]
    rfl
  · exact before

theorem live_after_fill {catalog : Catalog δ γ} {key : DefinitionKey} {id : UInt32}
    (live : (catalog.fill key).2.isLive id = true) : catalog.isLive id = true := by
  rcases catalog.fill_cases key with same | ⟨filled, entry, found, changed⟩
  · rw [same] at live
    exact live
  · rw [changed] at live
    rcases live_after_insert rfl live with same | before
    · rw [same, isLive, SortedMap.contains, found]
      rfl
    · exact before

theorem live_after_displacing {catalog next : Catalog δ γ} {definition : δ} {generator : γ} {displaced : Option UInt32}
    (installed : catalog.installDisplacing definition generator displaced = .ok next) {id : UInt32}
    (live : next.isLive id = true) : id = Definition.id definition ∨ catalog.isLive id = true := by
  obtain ⟨_, _, _, rfl⟩ := install_displacing_ok installed
  rcases live_after_insert rfl live with same | before
  · exact .inl same
  · cases displaced with
    | none => exact .inr before
    | some holder => exact .inr (live_after_remove before)

theorem Consistent.live_by_name [LawfulDefinition δ γ] {catalog : Catalog δ γ} (consistent : catalog.Consistent)
    {name : String} {definition : δ} (found : catalog.get? (.name name) = some definition) :
    catalog.isLive (Definition.id definition) = true := by
  obtain ⟨id, entry, _, live, rfl⟩ := live_of_name found
  rw [isLive_iff, consistent.definition_id live]
  exact ⟨entry, live⟩

end Kind

end Catalog

namespace Shelf

variable {δ γ : Type}

structure Issues (before : Shelf δ γ) (issued : List UInt32) (after : Shelf δ γ) : Prop where
  ids : before.ids.Issues issued after.ids
  live : ∀ {id : UInt32}, after.catalog.isLive id = true → before.catalog.isLive id = true ∨ after.ids.Passed id
  keeps : issued ≠ [] → before.catalog.isLive before.ids.next = false → before.catalog.Keeps after.catalog

variable {before after : Shelf δ γ}

theorem issues_nothing (ids : after.ids = before.ids)
    (live : ∀ {id : UInt32}, after.catalog.isLive id = true → before.catalog.isLive id = true) :
    before.Issues [] after where
  ids := IdCounter.issues_none (by rw [ids]; exact UInt32.le_refl _)
  live here := .inl (live here)
  keeps issued := absurd rfl issued

variable [Definition δ γ] {extensions : Extensions} {definition : δ}

def issuedToIdentify (definition : δ) (shelf : Shelf δ γ) : List UInt32 :=
  if Definition.id definition = 0 then [shelf.ids.allocate.1] else []

def issuedToAdd (definition : δ) (shelf : Shelf δ γ) : List UInt32 :=
  if shelf.catalog.isLive (Definition.id definition) then [] else shelf.issuedToIdentify definition

def issuedToCreate (definition : δ) (shelf : Shelf δ γ) : List UInt32 :=
  let (id, ids) := shelf.ids.allocate
  id :: { shelf with ids }.issuedToIdentify (Definition.withId id definition)

def issuedToCarryOut (change : Change) (definition : δ) (shelf : Shelf δ γ) : List UInt32 :=
  match change with
  | .noop => []
  | .updateWithoutRecompile => []
  | .update => shelf.issuedToIdentify definition
  | .create => shelf.issuedToCreate definition

theorem create_answers {shelf : Shelf δ γ} {marksNew : Bool} {id : UInt32}
    (done : (shelf.create extensions marksNew definition).1 = .ok id) : id = shelf.ids.next := by
  unfold create at done
  obtain ⟨_, _, same⟩ := map_ok done
  exact same.symm

theorem carry_out_issued {shelf : Shelf δ γ} {marksNew : Bool} {change : Change} {outcome : PutOutcome}
    (done : (shelf.carryOut extensions marksNew change definition).1 = .ok outcome) (created : outcome.change = .create) :
    outcome.id ∈ shelf.issuedToCarryOut change definition := by
  cases change with
  | noop =>
      cases done
      cases created
  | updateWithoutRecompile =>
      obtain ⟨_, _, rfl⟩ := map_ok done
      cases created
  | update =>
      obtain ⟨_, _, rfl⟩ := map_ok done
      cases created
  | create =>
      unfold carryOut at done
      obtain ⟨id, answered, same⟩ := map_ok done
      rw [← same, create_answers answered]
      exact List.mem_cons_self

-- What becomes of a definition that gets an id: it is live under that id, or the catalog is
-- as before.
structure Places (definition : δ) (before after : Shelf δ γ) : Prop where
  ids : after.ids = (before.identify definition).2.ids
  catalog : after.catalog.entries = before.catalog.entries ∨ ∃ entry,
    after.catalog.entries = before.catalog.entries.insert (Definition.id (before.identify definition).1) entry

theorem Places.named (places : Places definition before after) (named : Definition.id definition ≠ 0) :
    after.ids = before.ids.reserveThrough (Definition.id definition) ∧
      (after.catalog.entries = before.catalog.entries ∨ ∃ entry,
        after.catalog.entries = before.catalog.entries.insert (Definition.id definition) entry) := by
  obtain ⟨ids, catalog⟩ := places
  rw [identify, if_neg named] at ids catalog
  exact ⟨ids, catalog⟩

theorem identify_catalog (definition : δ) (shelf : Shelf δ γ) :
    (shelf.identify definition).2.catalog = shelf.catalog := by
  simp only [identify]
  split <;> rfl

theorem identify_issues (definition : δ) (shelf : Shelf δ γ) :
    shelf.ids.Issues (shelf.issuedToIdentify definition) (shelf.identify definition).2.ids := by
  simp only [issuedToIdentify, identify]
  split
  · exact shelf.ids.allocate_issues
  · exact IdCounter.issues_none (shelf.ids.reserve_forward _)

theorem places_nothing (definition : δ) (shelf : Shelf δ γ) : Places definition shelf (shelf.identify definition).2 :=
  ⟨rfl, .inl (congrArg Catalog.entries (shelf.identify_catalog definition))⟩

theorem update_issues (definition : δ) (shelf : Shelf δ γ) :
    shelf.Issues [] (shelf.updateWithoutRecompile definition).2 := by
  unfold updateWithoutRecompile
  split
  next => exact issues_nothing rfl fun live => live
  next catalog replaced => exact issues_nothing rfl (Catalog.live_after_replace replaced)

theorem remove_ids (id : UInt32) (shelf : Shelf δ γ) : (shelf.remove id).2.ids = shelf.ids := by
  simp only [remove]
  split <;> rfl

theorem live_after_remove {removed id : UInt32} {shelf : Shelf δ γ}
    (live : (shelf.remove removed).2.catalog.isLive id = true) : shelf.catalog.isLive id = true := by
  rw [remove_catalog] at live
  split at live
  · exact Catalog.live_after_remove live
  · exact live

theorem remove_issues (id : UInt32) (shelf : Shelf δ γ) : shelf.Issues [] (shelf.remove id).2 :=
  issues_nothing (remove_ids id shelf) live_after_remove

variable [LawfulDefinition δ γ]

theorem identify_next (shelf : Shelf δ γ) (nameless : Definition.id definition = 0) :
    Definition.id (shelf.identify definition).1 = shelf.ids.next := by
  rw [identify, if_pos nameless]
  exact LawfulDefinition.id_withId _ _

theorem identify_passed (definition : δ) (shelf : Shelf δ γ) :
    (shelf.identify definition).2.ids.Passed (Definition.id (shelf.identify definition).1) := by
  simp only [identify]
  split
  · rw [LawfulDefinition.id_withId]
    exact shelf.ids.allocate_passed
  · exact shelf.ids.reserve_passed _

theorem places_compiled {installed : δ} {catalog : Catalog δ γ}
    (compiled : (before.identify definition).2.catalog.compileInto extensions
      (Definition.prepare (before.identify definition).1) = .ok (installed, catalog))
    (ids : after.ids = (before.identify definition).2.ids) (held : after.catalog = catalog) :
    Places definition before after where
  ids := ids
  catalog := by
    obtain ⟨entry, inserted⟩ := Catalog.compile_into_entries compiled
    obtain ⟨_, _, rfl, _⟩ := Catalog.compile_into_ok compiled
    rw [identify_catalog, LawfulDefinition.id_fill, LawfulDefinition.id_prepare] at inserted
    rw [held]
    exact .inr ⟨entry, inserted⟩

theorem live_once_compiled {installed : δ} {catalog : Catalog δ γ} (nameless : Definition.id definition = 0)
    (compiled : (before.identify definition).2.catalog.compileInto extensions
      (Definition.prepare (before.identify definition).1) = .ok (installed, catalog)) :
    ∃ id ∈ before.issuedToIdentify definition, catalog.isLive id = true := by
  obtain ⟨entry, inserted⟩ := Catalog.compile_into_entries compiled
  obtain ⟨_, _, rfl, _⟩ := Catalog.compile_into_ok compiled
  rw [LawfulDefinition.id_fill, LawfulDefinition.id_prepare, identify_next before nameless] at inserted
  refine ⟨before.ids.next, ?_, Catalog.placed_live inserted⟩
  rw [issuedToIdentify, if_pos nameless]
  exact List.mem_singleton_self _

theorem create_and_persist_issued {shelf : Shelf δ γ} {name : String} (nameless : Definition.id definition = 0)
    (done : (shelf.createAndPersist extensions definition).1 = .ok name) :
    ∃ id ∈ shelf.issuedToIdentify definition,
      (shelf.createAndPersist extensions definition).2.catalog.isLive id = true := by
  unfold createAndPersist at done ⊢
  dsimp only at done ⊢
  split at done
  next => cases done
  next installed catalog compiled => exact live_once_compiled nameless compiled

-- An id that is live is not compiled, and this may be zero.
theorem add_issued {shelf : Shelf δ γ} (nameless : Definition.id definition = 0)
    (free : shelf.catalog.isLive 0 = false) (done : (shelf.add extensions definition).1 = .ok ()) :
    ∃ id ∈ shelf.issuedToAdd definition, (shelf.add extensions definition).2.catalog.isLive id = true := by
  rw [← nameless] at free
  simp only [issuedToAdd, add, free, Bool.false_eq_true, if_false] at done ⊢
  split at done
  next => cases done
  next installed catalog compiled => exact live_once_compiled nameless compiled

theorem create_and_persist_places (extensions : Extensions) (definition : δ) (shelf : Shelf δ γ) :
    Places definition shelf (shelf.createAndPersist extensions definition).2 := by
  unfold createAndPersist
  dsimp only
  split
  next => exact places_nothing definition shelf
  next installed catalog compiled => exact places_compiled compiled rfl rfl

theorem Places.issues (places : Places definition before after) :
    before.Issues (before.issuedToIdentify definition) after where
  ids := by
    rw [places.ids]
    exact before.identify_issues definition
  live {id} live := by
    rcases places.catalog with same | ⟨entry, inserted⟩
    · rw [Catalog.live_of_entries same] at live
      exact .inl live
    · rcases Catalog.live_after_insert inserted live with same | earlier
      · rw [same, places.ids]
        exact .inr (before.identify_passed definition)
      · exact .inl earlier
  keeps issued notLive := by
    rcases places.catalog with same | ⟨entry, inserted⟩
    · exact Catalog.keeps_of_entries same
    · have nameless : Definition.id definition = 0 := by
        by_cases nameless : Definition.id definition = 0
        · exact nameless
        · exact absurd (if_neg nameless) issued
      rw [identify_next before nameless] at inserted
      exact Catalog.keeps_insert inserted notLive

theorem add_issues (extensions : Extensions) (definition : δ) (shelf : Shelf δ γ) :
    shelf.Issues (shelf.issuedToAdd definition) (shelf.add extensions definition).2 := by
  unfold issuedToAdd add
  split
  · split
    next => exact issues_nothing rfl fun live => live
    next catalog replaced => exact issues_nothing rfl (Catalog.live_after_replace replaced)
  · apply Places.issues
    dsimp only
    split
    next => exact places_nothing definition shelf
    next installed catalog compiled => exact places_compiled compiled rfl rfl

-- A new definition gets no second id, since the first one is not zero.
theorem create_issues (extensions : Extensions) (marksNew : Bool) (definition : δ) {shelf : Shelf δ γ}
    (started : shelf.ids.next ≠ 0) :
    shelf.Issues (shelf.issuedToCreate definition) (shelf.create extensions marksNew definition).2 := by
  have issued : shelf.issuedToCreate definition = [shelf.ids.next] := by
    simp [issuedToCreate, issuedToIdentify, IdCounter.allocate, started]
  have places := create_and_persist_places extensions (Definition.withId shelf.ids.next definition)
    { shelf with ids := shelf.ids.allocate.2 }
  have named : Definition.id (Definition.withId shelf.ids.next definition) ≠ 0 := by
    rw [LawfulDefinition.id_withId]
    exact started
  obtain ⟨ids, catalog⟩ := places.named named
  rw [LawfulDefinition.id_withId] at ids catalog
  have entries : (shelf.create extensions marksNew definition).2.catalog.entries =
      (Shelf.createAndPersist extensions (Definition.withId shelf.ids.next definition)
        { shelf with ids := shelf.ids.allocate.2 }).2.catalog.entries := by
    unfold create
    dsimp only
    split
    · exact Catalog.mark_new_entries _ _
    · rfl
  refine ⟨?_, ?_, ?_⟩
  · rw [issued]
    apply IdCounter.issues_next
    intro early
    exact congrArg IdCounter.next (ids.trans (IdCounter.reserve_after_allocate early))
  · intro id live
    rw [Catalog.live_of_entries entries] at live
    exact places.issues.live live
  · intro _ notLive id entry found
    rw [entries]
    rcases catalog with same | ⟨placed, inserted⟩
    · exact Catalog.keeps_of_entries same id entry found
    · exact Catalog.keeps_insert inserted notLive id entry found

theorem carry_out_issues (extensions : Extensions) (marksNew : Bool) (change : Change) (definition : δ)
    {shelf : Shelf δ γ} (started : shelf.ids.next ≠ 0) :
    shelf.Issues (shelf.issuedToCarryOut change definition)
      (shelf.carryOut extensions marksNew change definition).2 := by
  cases change with
  | noop => exact issues_nothing rfl fun live => live
  | updateWithoutRecompile => exact update_issues definition shelf
  | update => exact (create_and_persist_places extensions definition shelf).issues
  | create => exact create_issues extensions marksNew definition started

end Shelf

namespace Loading

variable {δ γ : Type}

structure Counted (ids : IdCounter) (loading : Loading δ γ) : Prop where
  forward : ids.next ≤ loading.shelf.ids.next
  passed : ∀ {id : UInt32}, loading.shelf.catalog.isLive id = true → loading.shelf.ids.Passed id

variable {ids : IdCounter} {loading : Loading δ γ}

theorem Counted.reserve (counted : loading.Counted ids) (id : UInt32) : (loading.reserveThrough id).Counted ids := by
  have onwards := loading.shelf.ids.reserve_forward id
  exact ⟨UInt32.le_trans counted.forward onwards, fun live => (counted.passed live).mono onwards⟩

theorem Counted.note_skipped (counted : loading.Counted ids) (skipped : List Skipped) :
    (loading.noteSkipped skipped).Counted ids := by
  have folded : ∀ (reserved : List UInt32) {loading : Loading δ γ}, loading.Counted ids →
      (reserved.foldl reserveThrough loading).Counted ids := by
    intro reserved
    induction reserved with
    | nil => exact fun counted => counted
    | cons id rest ih => exact fun counted => ih (counted.reserve id)
  have reserved := folded (skipped.filterMap Skipped.id) counted
  exact ⟨reserved.forward, reserved.passed⟩

variable [Definition δ γ]

theorem make_way_ids (cleanUp : CleanUp) (definition : δ) (loading : Loading δ γ) :
    (loading.makeWay cleanUp definition).shelf.ids = loading.shelf.ids := by
  simp only [makeWay]
  split
  · rfl
  next earlier _ =>
    split
    · rfl
    · exact Shelf.remove_ids earlier loading.shelf

theorem live_after_make_way {cleanUp : CleanUp} {definition : δ} {id : UInt32}
    (live : (loading.makeWay cleanUp definition).shelf.catalog.isLive id = true) :
    loading.shelf.catalog.isLive id = true := by
  simp only [makeWay] at live
  split at live
  · exact live
  · split at live
    · exact live
    · exact Shelf.live_after_remove live

theorem Counted.make_way (counted : loading.Counted ids) (cleanUp : CleanUp) (definition : δ) :
    (loading.makeWay cleanUp definition).Counted ids where
  forward := by
    rw [make_way_ids]
    exact counted.forward
  passed live := by
    rw [make_way_ids]
    exact counted.passed (live_after_make_way live)

variable [LawfulDefinition δ γ]

theorem Counted.install (counted : loading.Counted ids) {definition : δ}
    (reserved : loading.shelf.ids.Passed (Definition.id definition)) (extensions : Extensions) :
    (loading.install extensions definition).Counted ids := by
  unfold Loading.install
  dsimp only
  split
  next installed catalog compiled =>
    refine ⟨counted.forward, fun live => ?_⟩
    obtain ⟨entry, inserted⟩ := Catalog.compile_into_entries compiled
    obtain ⟨_, _, rfl, _⟩ := Catalog.compile_into_ok compiled
    rcases Catalog.live_after_insert inserted live with same | before
    · rw [same, LawfulDefinition.id_fill]
      exact reserved
    · exact counted.passed before
  next => exact ⟨counted.forward, counted.passed⟩

theorem Counted.add (counted : loading.Counted ids) (extensions : Extensions) (cleanUp : CleanUp) (definition : δ) :
    (loading.add extensions cleanUp definition).Counted ids := by
  apply ((counted.reserve _).make_way cleanUp _).install
  rw [make_way_ids]
  exact loading.shelf.ids.reserve_passed _

theorem of_archive_counted {extensions : Extensions} {cleanUp : CleanUp} {archive : Archive} {storage : ResultStorage}
    (loaded : ofArchive extensions cleanUp ids archive storage = .ok loading) : loading.Counted ids := by
  obtain ⟨listing, _, rest⟩ := bind_ok loaded
  cases rest
  have folded : ∀ (definitions : List δ) {loading : Loading δ γ}, loading.Counted ids →
      (definitions.foldl (add extensions cleanUp) loading).Counted ids := by
    intro definitions
    induction definitions with
    | nil => exact fun counted => counted
    | cons definition rest ih => exact fun counted => ih (counted.add extensions cleanUp definition)
  have started : (start ids archive storage : Loading δ γ).Counted ids := by
    refine ⟨UInt32.le_refl _, fun live => ?_⟩
    cases live
  exact folded listing.definitions (started.note_skipped listing.skipped)

end Loading

end DocumentViews
