import DocumentViews.Proofs.Shelf

set_option autoImplicit false

namespace DocumentViews.Loading

variable {δ γ : Type} [Definition δ γ]

structure Free (catalog : Catalog δ γ) (definition : δ) : Prop where
  id : catalog.entries.get? (Definition.id definition) = none
  name : catalog.names.get? (foldName (Definition.name definition)) = none

def Apart (one other : δ) : Prop :=
  Definition.id one ≠ Definition.id other ∧ foldName (Definition.name one) ≠ foldName (Definition.name other)

variable {catalog : Catalog δ γ} {definition other : δ} {extensions : Extensions} {cleanUp : CleanUp}

theorem install_free (free : Free catalog definition) (generator : γ) :
    catalog.install definition generator = .ok (catalog.place definition generator) := by
  simp only [Catalog.install, Catalog.checkReplaceable, Catalog.checkNameFree, free.id, free.name]
  rfl

theorem free_after_place (free : Free catalog definition) (otherFree : Free catalog other) (apart : Apart definition other)
    (generator : γ) : Free (catalog.place definition generator) other where
  id := by
    rw [Catalog.place, SortedMap.get_insert, if_neg apart.1.symm]
    exact otherFree.id
  name := by
    have kept : catalog.releaseNames (Definition.id definition) = catalog.names := by
      rw [Catalog.releaseNames, free.id]
    rw [Catalog.place, SortedMap.get_insert, if_neg apart.2.symm, kept]
    exact otherFree.name

variable [LawfulDefinition δ γ] {loading : Loading δ γ}

theorem free_prepared (free : Free catalog definition) : Free catalog (Definition.prepare definition) := by
  constructor
  · rw [LawfulDefinition.id_prepare]
    exact free.id
  · rw [LawfulDefinition.name_prepare]
    exact free.name

theorem free_filled (free : Free catalog definition) (generator : γ) :
    Free catalog (Definition.fill definition generator) := by
  constructor
  · rw [LawfulDefinition.id_fill]
    exact free.id
  · rw [LawfulDefinition.name_fill]
    exact free.name

def admitted (extensions : Extensions) (definition : δ) (catalog : Catalog δ γ) : Catalog δ γ :=
  match Definition.compile extensions (Definition.prepare definition) with
  | .ok generator => catalog.place (Definition.fill (Definition.prepare definition) generator) generator
  | .error _ => catalog

theorem install_admitted (extensions : Extensions) (free : Free loading.shelf.catalog (Definition.prepare definition)) :
    (loading.install extensions (Definition.prepare definition)).shelf.archive = loading.shelf.archive ∧
      (loading.install extensions (Definition.prepare definition)).shelf.catalog =
        admitted extensions definition loading.shelf.catalog := by
  simp only [install, admitted, Catalog.compileInto]
  cases compiled : Definition.compile extensions (Definition.prepare definition) with
  | error error => exact ⟨rfl, rfl⟩
  | ok generator =>
      simp only [bind, Except.bind, install_free (free_filled free generator) generator, and_self]

theorem add_free (extensions : Extensions) (cleanUp : CleanUp) (free : Free loading.shelf.catalog definition) :
    (loading.add extensions cleanUp definition).shelf.archive = loading.shelf.archive ∧
      (loading.add extensions cleanUp definition).shelf.catalog =
        admitted extensions definition loading.shelf.catalog := by
  have prepared := free_prepared free
  have way : ((loading.reserveThrough (Definition.id (Definition.prepare definition))).makeWay cleanUp
      (Definition.prepare definition)) = loading.reserveThrough (Definition.id (Definition.prepare definition)) := by
    have nameless : (loading.reserveThrough (Definition.id (Definition.prepare definition))).shelf.catalog.resolve
        (.name (Definition.name (Definition.prepare definition))) = none := prepared.name
    rw [makeWay, nameless]
  have reserved : Free (loading.reserveThrough (Definition.id (Definition.prepare definition))).shelf.catalog
      (Definition.prepare definition) := prepared
  rw [add, way]
  exact install_admitted extensions reserved

theorem free_after_admitted (free : Free catalog definition) (otherFree : Free catalog other)
    (apart : Apart definition other) : Free (admitted extensions definition catalog) other := by
  simp only [admitted]
  split
  next generator _ =>
    refine free_after_place (free_filled (free_prepared free) generator) otherFree ?_ generator
    simpa [Apart] using apart
  · exact otherFree

theorem admitted_other {id : UInt32} (different : id ≠ Definition.id definition) :
    (admitted extensions definition catalog).entries.get? id = catalog.entries.get? id := by
  simp only [admitted]
  split
  · rw [Catalog.place, SortedMap.get_insert, if_neg (by simpa using different)]
  · rfl

structure Admits (extensions : Extensions) (catalog : Catalog δ γ) (definition : δ) : Prop where
  compiled : ∀ {generator : γ}, Definition.compile extensions (Definition.prepare definition) = .ok generator →
    ∃ entry, catalog.entries.get? (Definition.id definition) = some entry ∧ entry.generator = generator ∧
      entry.definition = Definition.fill (Definition.prepare definition) generator
  failed : ∀ {error : DefinitionError}, Definition.compile extensions (Definition.prepare definition) = .error error →
    catalog.entries.get? (Definition.id definition) = none

theorem admitted_admits (extensions : Extensions) (free : Free catalog definition) :
    Admits extensions (admitted extensions definition catalog) definition where
  compiled {generator} compiled := by
    refine ⟨⟨Definition.fill (Definition.prepare definition) generator, generator, catalog.installs⟩, ?_, rfl, rfl⟩
    rw [admitted, compiled]
    dsimp only
    rw [Catalog.place, SortedMap.get_insert, if_pos (by simp)]
  failed failed := by
    rw [admitted, failed]
    exact free.id

theorem load_all (extensions : Extensions) (cleanUp : CleanUp) {definitions : List δ} (apart : definitions.Pairwise Apart)
    (free : ∀ definition ∈ definitions, Free loading.shelf.catalog definition) :
    (definitions.foldl (add extensions cleanUp) loading).shelf.archive = loading.shelf.archive ∧
      (∀ definition ∈ definitions,
        Admits extensions (definitions.foldl (add extensions cleanUp) loading).shelf.catalog definition) ∧
      ∀ id, (∀ definition ∈ definitions, id ≠ Definition.id definition) →
        (definitions.foldl (add extensions cleanUp) loading).shelf.catalog.entries.get? id =
          loading.shelf.catalog.entries.get? id := by
  induction definitions generalizing loading with
  | nil => exact ⟨rfl, fun _ member => absurd member List.not_mem_nil, fun _ _ => rfl⟩
  | cons first others ih =>
      obtain ⟨firstApart, othersApart⟩ := List.pairwise_cons.mp apart
      have firstFree := free first (.head _)
      obtain ⟨sameArchive, catalog⟩ := add_free extensions cleanUp firstFree
      -- The later definitions stay free, since the first one has another id and another name.
      have othersFree : ∀ definition ∈ others,
          Free (loading.add extensions cleanUp first).shelf.catalog definition := by
        intro definition member
        rw [catalog]
        exact free_after_admitted firstFree (free definition (.tail _ member)) (firstApart definition member)
      obtain ⟨archive, admits, untouched⟩ := ih othersApart othersFree
      rw [List.foldl_cons]
      refine ⟨archive.trans sameArchive, ?_, ?_⟩
      · intro definition member
        rcases List.mem_cons.mp member with rfl | later
        · have kept := untouched (Definition.id definition) fun other member => (firstApart other member).1
          have admitted := admitted_admits extensions firstFree
          rw [← catalog] at admitted
          exact ⟨fun compiled => by rw [kept]; exact admitted.compiled compiled,
            fun failed => by rw [kept]; exact admitted.failed failed⟩
        · exact admits definition later
      · intro id different
        rw [untouched id fun definition member => different definition (.tail _ member), catalog,
          admitted_other (different first (.head _))]

end DocumentViews.Loading
