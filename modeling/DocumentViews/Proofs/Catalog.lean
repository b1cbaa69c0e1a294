import DocumentViews.Proofs.Definition
import DocumentViews.Proofs.SortedMap
import DocumentViews.Shelf
import Mathlib.Logic.Relation

set_option autoImplicit false

namespace DocumentViews.Catalog

variable {δ γ : Type}

theorem isLive_iff (catalog : Catalog δ γ) (id : UInt32) :
    catalog.isLive id = true ↔ ∃ entry, catalog.entries.get? id = some entry := by
  rw [isLive, SortedMap.contains, Option.isSome_iff_exists]

theorem mem_ids (catalog : Catalog δ γ) (id : UInt32) : id ∈ catalog.ids ↔ catalog.isLive id = true :=
  SortedMap.mem_keys_iff catalog.entries id

theorem mark_absent {catalog : Catalog δ γ} {id : UInt32} (absent : id ∉ catalog.ids) :
    (catalog.markNew id).2 = catalog := by
  have notLive : catalog.isLive id = false := by
    rw [mem_ids] at absent
    exact Bool.eq_false_iff.mpr absent
  rw [markNew, notLive]
  rfl

theorem mark_new_entries (catalog : Catalog δ γ) (id : UInt32) : (catalog.markNew id).2.entries = catalog.entries := by
  simp only [markNew]
  split <;> rfl

theorem find_by_id (catalog : Catalog δ γ) (id : UInt32) : catalog.find? (.id id) = catalog.entries.get? id := by
  rw [find?, resolve]
  by_cases live : catalog.isLive id = true
  · rw [if_pos live, Option.bind_some]
  · have absent : catalog.entries.get? id = none := by
      simpa [isLive, SortedMap.contains] using live
    rw [if_neg live, Option.bind_none, absent]

theorem find_by_name (catalog : Catalog δ γ) (name : String) :
    catalog.find? (.name name) = (catalog.names.get? (foldName name)).bind catalog.entries.get? := rfl

theorem live_of_id {catalog : Catalog δ γ} {id : UInt32} {definition : δ}
    (found : catalog.get? (.id id) = some definition) :
    ∃ entry, catalog.entries.get? id = some entry ∧ entry.definition = definition := by
  rwa [get?, find_by_id, Option.map_eq_some_iff] at found

theorem live_of_name {catalog : Catalog δ γ} {name : String} {definition : δ}
    (found : catalog.get? (.name name) = some definition) :
    ∃ id entry, catalog.resolve (.name name) = some id ∧ catalog.entries.get? id = some entry ∧
      entry.definition = definition := by
  obtain ⟨entry, present, rfl⟩ := Option.map_eq_some_iff.mp found
  obtain ⟨id, resolved, live⟩ := Option.bind_eq_some_iff.mp present
  exact ⟨id, entry, resolved, live, rfl⟩

theorem mem_definitions {catalog : Catalog δ γ} {id : UInt32} {definition : δ}
    (found : catalog.get? (.id id) = some definition) : definition ∈ catalog.definitions := by
  obtain ⟨entry, present, rfl⟩ := live_of_id found
  have member := (SortedMap.mem_entries_iff _ _ _).mpr present
  exact List.mem_map.mpr ⟨entry, List.mem_map.mpr ⟨(id, entry), member, rfl⟩, rfl⟩

variable [Definition δ γ]

theorem get_release_name (name folded : String) (id : UInt32) (names : TextMap UInt32) :
    (releaseName name id names).get? folded =
      if folded = foldName name ∧ names.get? folded = some id then none else names.get? folded := by
  simp only [releaseName]
  by_cases same : folded = foldName name
  · subst folded
    by_cases held : names.get? (foldName name) = some id <;> simp [held]
  · by_cases held : names.get? (foldName name) = some id <;> simp [same, held]

theorem check_name_free_ok {catalog : Catalog δ γ} {name : String} {id : UInt32} {displaced : Option UInt32}
    (passed : catalog.checkNameFree name id displaced = .ok ()) {holder : UInt32}
    (held : catalog.names.get? (foldName name) = some holder) : holder = id ∨ some holder = displaced := by
  rw [checkNameFree, held] at passed
  by_cases allowed : holder = id ∨ some holder = displaced
  · exact allowed
  · simp [allowed] at passed

theorem listing_of_same_names {catalog other : Catalog δ γ}
    (same : ∀ id, (catalog.entries.get? id).map (fun entry => Definition.name entry.definition) =
      (other.entries.get? id).map fun entry => Definition.name entry.definition) : catalog.listing = other.listing := by
  have named : catalog.entries.mapValues (fun entry => Definition.name entry.definition) =
      other.entries.mapValues fun entry => Definition.name entry.definition := by
    apply SortedMap.eq_of_get
    intro id
    rw [SortedMap.get_map_values, SortedMap.get_map_values, same]
  exact congrArg SortedMap.entries named

theorem install_ok {catalog next : Catalog δ γ} {definition : δ} {generator : γ}
    (installed : catalog.install definition generator = .ok next) :
    catalog.checkReplaceable (Definition.id definition) = .ok () ∧
      catalog.checkNameFree (Definition.name definition) (Definition.id definition) none = .ok () ∧
      next = catalog.place definition generator := by
  obtain ⟨_, replaceable, rest⟩ := bind_ok installed
  obtain ⟨_, free, rest⟩ := bind_ok rest
  cases rest
  exact ⟨replaceable, free, rfl⟩

theorem replace_definition_ok {catalog next : Catalog δ γ} {definition : δ}
    (replaced : catalog.replaceDefinition definition = .ok next) :
    ∃ entry, catalog.entries.get? (Definition.id definition) = some entry ∧
      catalog.checkReplaceable (Definition.id definition) = .ok () ∧
      catalog.checkNameFree (Definition.name definition) (Definition.id definition) none = .ok () ∧
      next = { catalog with
        entries := catalog.entries.insert (Definition.id definition) { entry with definition }
        names := (releaseName (Definition.name entry.definition) (Definition.id definition) catalog.names).insert
          (foldName (Definition.name definition)) (Definition.id definition) } := by
  dsimp only [replaceDefinition] at replaced
  split at replaced
  · cases replaced
  next entry found =>
    obtain ⟨_, replaceable, rest⟩ := bind_ok replaced
    obtain ⟨_, free, rest⟩ := bind_ok rest
    cases rest
    exact ⟨entry, found, replaceable, free, rfl⟩

def cleared (catalog : Catalog δ γ) : Option UInt32 → Catalog δ γ
  | some holder => catalog.remove holder
  | none => catalog

theorem install_displacing_ok {catalog next : Catalog δ γ} {definition : δ} {generator : γ} {displaced : Option UInt32}
    (installed : catalog.installDisplacing definition generator displaced = .ok next) :
    catalog.checkReplaceable (Definition.id definition) = .ok () ∧
      (∀ holder, displaced = some holder → catalog.checkReplaceable holder = .ok ()) ∧
      catalog.checkNameFree (Definition.name definition) (Definition.id definition) displaced = .ok () ∧
      next = (catalog.cleared displaced).place definition generator := by
  obtain ⟨_, replaceable, rest⟩ := bind_ok installed
  cases displaced with
  | none =>
      obtain ⟨_, _, rest⟩ := bind_ok rest
      obtain ⟨_, free, rest⟩ := bind_ok rest
      cases rest
      exact ⟨replaceable, by simp, free, rfl⟩
  | some holder =>
      obtain ⟨_, yielding, rest⟩ := bind_ok rest
      obtain ⟨_, free, rest⟩ := bind_ok rest
      cases rest
      refine ⟨replaceable, ?_, free, rfl⟩
      rintro _ ⟨⟩
      exact yielding

theorem compile_into_ok {extensions : Extensions} {catalog next : Catalog δ γ} {definition filled : δ}
    (compiled : catalog.compileInto extensions definition = .ok (filled, next)) :
    ∃ generator, Definition.compile extensions definition = .ok generator ∧
      filled = Definition.fill definition generator ∧ catalog.install filled generator = .ok next := by
  obtain ⟨generator, found, rest⟩ := bind_ok compiled
  obtain ⟨installed, accepted, rest⟩ := bind_ok rest
  cases rest
  exact ⟨generator, found, rfl, accepted⟩

theorem fill_cases (catalog : Catalog δ γ) (key : DefinitionKey) :
    (catalog.fill key).2 = catalog ∨ ∃ id entry, catalog.entries.get? id = some entry ∧
      (catalog.fill key).2 = { catalog with
        entries := catalog.entries.insert id { entry with
          definition := Definition.fill entry.definition entry.generator } } := by
  simp only [fill]
  split
  · exact .inl rfl
  next id _ =>
    split
    · exact .inl rfl
    next entry found => exact .inr ⟨id, entry, found, rfl⟩

variable [LawfulDefinition δ γ]

theorem fill_listing (catalog : Catalog δ γ) (key : DefinitionKey) : (catalog.fill key).2.listing = catalog.listing := by
  rcases catalog.fill_cases key with same | ⟨id, entry, found, filled⟩
  · rw [same]
  · rw [filled]
    apply listing_of_same_names
    intro other
    rw [SortedMap.get_insert]
    split
    next same => simp [same, found]
    next => rfl

-- Definitions and generators carry the id that they are stored under; the names are exactly
-- the folded names of the live definitions; only live ids are marked as new.
structure Consistent (catalog : Catalog δ γ) : Prop where
  definition_id : ∀ {id : UInt32} {entry : CatalogEntry δ γ},
    catalog.entries.get? id = some entry → Definition.id entry.definition = id
  generator_id : ∀ {id : UInt32} {entry : CatalogEntry δ γ},
    catalog.entries.get? id = some entry → LawfulDefinition.generatorId δ entry.generator = id
  names_exact : ∀ (folded : String) (id : UInt32), catalog.names.get? folded = some id ↔
    ∃ entry, catalog.entries.get? id = some entry ∧ foldName (Definition.name entry.definition) = folded
  new_live : ∀ {id : UInt32}, catalog.isNew id = true → catalog.isLive id = true

theorem consistent_empty : Consistent (empty : Catalog δ γ) where
  definition_id found := by cases found
  generator_id found := by cases found
  names_exact folded id := by simp [empty]
  new_live marked := by cases marked

namespace Consistent

variable {catalog next : Catalog δ γ}

theorem get_release_names (consistent : catalog.Consistent) (id : UInt32) (folded : String) :
    (catalog.releaseNames id).get? folded =
      if catalog.names.get? folded = some id then none else catalog.names.get? folded := by
  simp only [releaseNames]
  cases found : catalog.entries.get? id with
  | none =>
      have free : catalog.names.get? folded ≠ some id := by
        intro held
        obtain ⟨entry, present, _⟩ := (consistent.names_exact folded id).mp held
        rw [found] at present
        cases present
      rw [if_neg free]
  | some entry =>
      have own : catalog.names.get? folded = some id → folded = foldName (Definition.name entry.definition) := by
        intro held
        obtain ⟨other, present, sameName⟩ := (consistent.names_exact folded id).mp held
        rw [found] at present
        cases present
        exact sameName.symm
      rw [get_release_name, get_release_name]
      by_cases held : catalog.names.get? folded = some id
      · simp [held, ← own held]
      · simp [held]

theorem remove (consistent : catalog.Consistent) (id : UInt32) : (catalog.remove id).Consistent where
  definition_id found := SortedMap.erase_keeps (fun _ _ => consistent.definition_id) found
  generator_id found := SortedMap.erase_keeps (fun _ _ => consistent.generator_id) found
  names_exact folded other := by
    simp only [Catalog.remove, SortedMap.get_erase, consistent.get_release_names]
    by_cases same : other = id
    · subst other
      by_cases held : catalog.names.get? folded = some id <;> simp [held]
    · by_cases held : catalog.names.get? folded = some id
      · have elsewhere : ¬ ∃ entry, catalog.entries.get? other = some entry ∧
            foldName (Definition.name entry.definition) = folded := by
          rw [← consistent.names_exact, held]
          simpa using Ne.symm same
        simpa [held, same] using elsewhere
      · rw [if_neg held, if_neg same]
        exact consistent.names_exact folded other
  new_live {other} marked := by
    simp only [isNew, isLive, SortedMap.contains, Catalog.remove, SortedMap.get_erase] at marked ⊢
    by_cases same : other = id
    · simp [same] at marked
    · rw [if_neg same] at marked ⊢
      exact consistent.new_live marked

theorem place (consistent : catalog.Consistent) {definition : δ} {generator : γ}
    (compiledAs : LawfulDefinition.generatorId δ generator = Definition.id definition)
    (free : ∀ holder, catalog.names.get? (foldName (Definition.name definition)) = some holder →
      holder = Definition.id definition) : (catalog.place definition generator).Consistent where
  definition_id found := SortedMap.insert_keeps (fun _ _ => consistent.definition_id) found rfl
  generator_id found := SortedMap.insert_keeps (fun _ _ => consistent.generator_id) found compiledAs
  names_exact folded id := by
    simp only [Catalog.place, SortedMap.get_insert, consistent.get_release_names]
    -- Names lead to the placed id, to nobody where the id has given them up, or where they led.
    by_cases same : id = Definition.id definition
    · subst id
      by_cases named : folded = foldName (Definition.name definition)
      · simp [named]
      · by_cases held : catalog.names.get? folded = some (Definition.id definition) <;>
          simp [named, held, Ne.symm named]
    · rw [if_neg same]
      by_cases named : folded = foldName (Definition.name definition)
      · have elsewhere : ¬ ∃ entry, catalog.entries.get? id = some entry ∧
            foldName (Definition.name entry.definition) = folded := by
          rw [← consistent.names_exact, named]
          exact fun held => same (free id held)
        simpa [named, Ne.symm same] using elsewhere
      · rw [if_neg named]
        by_cases held : catalog.names.get? folded = some (Definition.id definition)
        · have elsewhere : ¬ ∃ entry, catalog.entries.get? id = some entry ∧
              foldName (Definition.name entry.definition) = folded := by
            rw [← consistent.names_exact, held]
            simpa using Ne.symm same
          simpa [held] using elsewhere
        · rw [if_neg held]
          exact consistent.names_exact folded id
  new_live marked := SortedMap.contains_insert (consistent.new_live marked) _ _

theorem install (consistent : catalog.Consistent) {definition : δ} {generator : γ}
    (compiledAs : LawfulDefinition.generatorId δ generator = Definition.id definition)
    (installed : catalog.install definition generator = .ok next) : next.Consistent := by
  obtain ⟨_, free, rfl⟩ := install_ok installed
  apply consistent.place compiledAs
  intro holder held
  simpa using check_name_free_ok free held

theorem install_displacing (consistent : catalog.Consistent) {definition : δ} {generator : γ}
    {displaced : Option UInt32} (compiledAs : LawfulDefinition.generatorId δ generator = Definition.id definition)
    (installed : catalog.installDisplacing definition generator displaced = .ok next) : next.Consistent := by
  obtain ⟨_, _, free, rfl⟩ := install_displacing_ok installed
  cases displaced with
  | none =>
      apply consistent.place compiledAs
      intro holder held
      simpa using check_name_free_ok free held
  | some other =>
      apply (consistent.remove other).place compiledAs
      intro holder held
      rw [Catalog.remove, consistent.get_release_names] at held
      split at held
      · cases held
      next kept =>
        rcases check_name_free_ok free held with same | given
        · exact same
        · exact absurd (held.trans given) kept

theorem replace_definition (consistent : catalog.Consistent) {definition : δ}
    (replaced : catalog.replaceDefinition definition = .ok next) : next.Consistent := by
  obtain ⟨entry, found, _, free, rfl⟩ := replace_definition_ok replaced
  -- The catalog differs from a placed one only in the generator, which is the old one.
  have placed : (catalog.place definition entry.generator).Consistent :=
    consistent.place (consistent.generator_id found) fun holder held => by simpa using check_name_free_ok free held
  have names : catalog.releaseNames (Definition.id definition) =
      releaseName (Definition.name entry.definition) (Definition.id definition) catalog.names := by
    apply SortedMap.eq_of_get
    intro folded
    rw [consistent.get_release_names, get_release_name]
    by_cases held : catalog.names.get? folded = some (Definition.id definition)
    · obtain ⟨other, present, sameName⟩ := (consistent.names_exact folded _).mp held
      rw [found] at present
      cases present
      simp [sameName.symm]
    · simp [held]
  have generatorId : LawfulDefinition.generatorId δ entry.generator = Definition.id definition :=
    consistent.generator_id found
  constructor
  · intro id other present
    exact SortedMap.insert_keeps (fun _ _ => consistent.definition_id) present rfl
  · intro id other present
    exact SortedMap.insert_keeps (fun _ _ => consistent.generator_id) present generatorId
  · intro folded id
    rw [← names]
    apply (placed.names_exact folded id).trans
    simp only [Catalog.place, SortedMap.get_insert]
    by_cases same : id = Definition.id definition <;> simp [same]
  · intro id marked
    exact SortedMap.contains_insert (consistent.new_live marked) _ _

theorem fill (consistent : catalog.Consistent) (key : DefinitionKey) : (catalog.fill key).2.Consistent := by
  rcases catalog.fill_cases key with same | ⟨id, entry, found, filled⟩
  · rw [same]
    exact consistent
  · rw [filled]
    have definitionId : Definition.id (Definition.fill entry.definition entry.generator) = id := by
      rw [LawfulDefinition.id_fill, consistent.definition_id found]
    have generatorId : LawfulDefinition.generatorId δ entry.generator = id := consistent.generator_id found
    constructor
    · intro other changed present
      exact SortedMap.insert_keeps (fun _ _ => consistent.definition_id) present definitionId
    · intro other changed present
      exact SortedMap.insert_keeps (fun _ _ => consistent.generator_id) present generatorId
    · intro folded other
      apply (consistent.names_exact folded other).trans
      simp only [SortedMap.get_insert]
      by_cases same : other = id
      · simp [same, found]
      · simp [same]
    · intro other marked
      exact SortedMap.contains_insert (consistent.new_live marked) _ _

theorem mark_new (consistent : catalog.Consistent) (id : UInt32) : (catalog.markNew id).2.Consistent := by
  simp only [markNew]
  by_cases fresh : (catalog.isLive id && !catalog.isNew id) = true
  · rw [if_pos fresh]
    refine ⟨consistent.definition_id, consistent.generator_id, consistent.names_exact, ?_⟩
    intro other marked
    simp only [isNew, SortedMap.contains, SortedMap.get_insert] at marked
    by_cases same : other = id
    · subst other
      exact (Bool.and_eq_true_iff.mp fresh).1
    · rw [if_neg same] at marked
      exact consistent.new_live marked
  · rw [if_neg fresh]
    exact consistent

theorem clear_new (consistent : catalog.Consistent) : catalog.clearNew.Consistent :=
  ⟨consistent.definition_id, consistent.generator_id, consistent.names_exact, fun marked => by cases marked⟩

end Consistent

namespace Consistent

variable {catalog : Catalog δ γ}

theorem names_distinct (consistent : catalog.Consistent) {one other : UInt32} {first second : δ}
    (firstFound : catalog.get? (.id one) = some first) (secondFound : catalog.get? (.id other) = some second)
    (sameName : foldName (Definition.name first) = foldName (Definition.name second)) : one = other := by
  obtain ⟨entry, present, rfl⟩ := live_of_id firstFound
  obtain ⟨otherEntry, otherPresent, rfl⟩ := live_of_id secondFound
  have held := (consistent.names_exact _ one).mpr ⟨entry, present, sameName⟩
  have otherHeld := (consistent.names_exact _ other).mpr ⟨otherEntry, otherPresent, rfl⟩
  exact Option.some.inj (held.symm.trans otherHeld)

theorem found_by_any_name (consistent : catalog.Consistent) {id : UInt32} {entry : CatalogEntry δ γ}
    (found : catalog.find? (.id id) = some entry) {name : String}
    (sameName : foldName name = foldName (Definition.name entry.definition)) : catalog.find? (.name name) = some entry := by
  rw [find_by_id] at found
  rw [find_by_name, (consistent.names_exact _ id).mpr ⟨entry, found, sameName.symm⟩, Option.bind_some, found]

theorem found_by_own_id (consistent : catalog.Consistent) {name : String} {entry : CatalogEntry δ γ}
    (found : catalog.find? (.name name) = some entry) :
    foldName (Definition.name entry.definition) = foldName name ∧
      catalog.find? (.id (Definition.id entry.definition)) = some entry := by
  rw [find_by_name, Option.bind_eq_some_iff] at found
  obtain ⟨id, held, found⟩ := found
  obtain ⟨other, present, sameName⟩ := (consistent.names_exact _ id).mp held
  rw [found] at present
  cases present
  rw [find_by_id, consistent.definition_id found]
  exact ⟨sameName, found⟩

end Consistent

inductive Changes (extensions : Extensions) (catalog : Catalog δ γ) : Catalog δ γ → Prop
  | installed {definition : δ} {generator : γ} {next : Catalog δ γ} :
      Definition.compile extensions definition = .ok generator →
        catalog.install (Definition.fill definition generator) generator = .ok next → Changes extensions catalog next
  | displacing {definition : δ} {generator : γ} {displaced : Option UInt32} {next : Catalog δ γ} :
      Definition.compile extensions definition = .ok generator →
        displaced ≠ some (Definition.id (Definition.fill definition generator)) →
          catalog.installDisplacing (Definition.fill definition generator) generator displaced = .ok next →
            Changes extensions catalog next
  | replaced {definition : δ} {next : Catalog δ γ} :
      catalog.replaceDefinition definition = .ok next → Changes extensions catalog next
  | removed (id : UInt32) : Changes extensions catalog (catalog.remove id)
  | filled (key : DefinitionKey) : Changes extensions catalog (catalog.fill key).2
  | marked (id : UInt32) : Changes extensions catalog (catalog.markNew id).2
  | unmarked : Changes extensions catalog catalog.clearNew

abbrev ComesFrom (extensions : Extensions) (before after : Catalog δ γ) : Prop :=
  Relation.ReflTransGen (Changes extensions) before after

theorem changes_consistent {extensions : Extensions} {catalog next : Catalog δ γ} (consistent : catalog.Consistent)
    (change : Changes extensions catalog next) : next.Consistent := by
  cases change with
  | installed compiled installed =>
      exact consistent.install ((LawfulDefinition.compiled_id compiled).trans (LawfulDefinition.id_fill _ _).symm) installed
  | displacing compiled _ installed =>
      exact consistent.install_displacing
        ((LawfulDefinition.compiled_id compiled).trans (LawfulDefinition.id_fill _ _).symm) installed
  | replaced replaced => exact consistent.replace_definition replaced
  | removed id => exact consistent.remove id
  | filled key => exact consistent.fill key
  | marked id => exact consistent.mark_new id
  | unmarked => exact consistent.clear_new

theorem comes_from_consistent {extensions : Extensions} {before after : Catalog δ γ} (consistent : before.Consistent)
    (chain : ComesFrom extensions before after) : after.Consistent := by
  induction chain with
  | refl => exact consistent
  | tail _ change ih => exact changes_consistent ih change

end DocumentViews.Catalog
