import DocumentViews.Proofs.Archive
import DocumentViews.Proofs.Loading

set_option autoImplicit false

namespace DocumentViews

variable {δ γ : Type} [Definition δ γ]

structure Newest (among : δ → Prop) (folded : String) (definition : δ) : Prop where
  member : among definition
  named : foldName (Definition.name definition) = folded
  last : ∀ other, among other → foldName (Definition.name other) = folded →
    Definition.id other ≤ Definition.id definition

def Compiles (extensions : Extensions) (definition : δ) : Prop :=
  ∃ generator, Definition.compile extensions (Definition.prepare definition) = .ok generator

structure Superseded (extensions : Extensions) (among : δ → Prop) (definition : δ) : Prop where
  compiles : Compiles extensions definition
  later : ∃ other, among other ∧ foldName (Definition.name other) = foldName (Definition.name definition) ∧
    Definition.id definition < Definition.id other

def NewestCompiles (extensions : Extensions) (among : δ → Prop) (name : String) : Prop :=
  (∃ definition, among definition ∧ foldName (Definition.name definition) = foldName name ∧
    Compiles extensions definition) →
    ∃ definition, Newest among (foldName name) definition ∧ Compiles extensions definition

section Append

variable {earlier : List δ} {definition : δ}

theorem newest_append_own (above : ∀ other ∈ earlier, Definition.id other < Definition.id definition) (candidate : δ) :
    Newest (· ∈ earlier ++ [definition]) (foldName (Definition.name definition)) candidate ↔ candidate = definition := by
  constructor
  · intro newest
    rcases List.mem_append.mp newest.member with before | own
    · have less := above candidate before
      have last := newest.last definition (by simp) rfl
      exact absurd less (UInt32.not_lt.mpr last)
    · exact List.mem_singleton.mp own
  · intro same
    subst same
    refine ⟨by simp, rfl, fun other member _ => ?_⟩
    rcases List.mem_append.mp member with before | own
    · exact UInt32.le_of_lt (above other before)
    · rw [List.mem_singleton.mp own]
      exact UInt32.le_refl _

theorem newest_append_other {folded : String} (different : folded ≠ foldName (Definition.name definition)) (candidate : δ) :
    Newest (· ∈ earlier ++ [definition]) folded candidate ↔ Newest (· ∈ earlier) folded candidate := by
  have among : ∀ other : δ, foldName (Definition.name other) = folded →
      (other ∈ earlier ++ [definition] ↔ other ∈ earlier) := by
    intro other named
    have notOwn : other ≠ definition := by
      intro same
      rw [same] at named
      exact different named.symm
    simp [notOwn]
  constructor
  · intro newest
    refine ⟨(among candidate newest.named).mp newest.member, newest.named, fun other member named => ?_⟩
    exact newest.last other ((among other named).mpr member) named
  · intro newest
    refine ⟨(among candidate newest.named).mpr newest.member, newest.named, fun other member named => ?_⟩
    exact newest.last other ((among other named).mp member) named

theorem Superseded.append {extensions : Extensions} {candidate : δ}
    (superseded : Superseded extensions (· ∈ earlier) candidate) :
    Superseded extensions (· ∈ earlier ++ [definition]) candidate where
  compiles := superseded.compiles
  later := by
    obtain ⟨other, member, named, less⟩ := superseded.later
    exact ⟨other, List.mem_append_left _ member, named, less⟩

end Append

namespace Shelf

theorem refresh_keeps (shelf : Shelf δ γ) : Archive.Keeps DefinitionKind.IsDefinitionName shelf.archive
    shelf.refreshListing.archive :=
  (shelf.archive.write_file_keeps _ _).mono fun _ holds => DefinitionKind.definition_name_ne_listing holds _

theorem relist_keeps (shelf : Shelf δ γ) (catalog : Catalog δ γ) : Archive.Keeps DefinitionKind.IsDefinitionName shelf.archive
    (shelf.relist catalog).archive := refresh_keeps ({ shelf with catalog } : Shelf δ γ)

theorem remove_keeps (id : UInt32) (shelf : Shelf δ γ) :
    Archive.Keeps (fun name => DefinitionKind.IsDefinitionName name ∧ name ≠ (Definition.kind δ).fileName id)
      shelf.archive (shelf.remove id).2.archive := by
  simp only [remove]
  split
  · have listed := shelf.relist_keeps (shelf.catalog.remove id)
    exact (listed.mono fun _ kept => kept.1).trans ((Archive.delete_keeps _ _ id).mono fun _ kept => kept.2)
  · exact Archive.keeps_all _ _

end Shelf

namespace Loading

structure LeavesFile (extensions : Extensions) (earlier : List δ) (name : String) : Prop where
  definition_name : DefinitionKind.IsDefinitionName name
  others : ∀ definition ∈ earlier, Superseded extensions (· ∈ earlier) definition →
    name ≠ (Definition.kind δ).fileName (Definition.id definition)

variable [LawfulDefinition δ γ]

structure Loaded (extensions : Extensions) (origin : Archive) (earlier : List δ) (loading : Loading δ γ) : Prop where
  consistent : loading.shelf.catalog.Consistent
  newest : ∀ folded id, loading.shelf.catalog.names.get? folded = some id ↔
    ∃ definition, Newest (· ∈ earlier) folded definition ∧ Compiles extensions definition ∧ Definition.id definition = id
  archive : Archive.Keeps (LeavesFile extensions earlier) origin loading.shelf.archive

variable {loading : Loading δ γ} {definition : δ}

-- Whoever holds the name is gone, and so is its file.
structure MakesWay (definition : δ) (before after : Loading δ γ) : Prop where
  consistent : after.shelf.catalog.Consistent
  free : Free after.shelf.catalog definition
  names : ∀ folded, folded ≠ foldName (Definition.name definition) →
    after.shelf.catalog.names.get? folded = before.shelf.catalog.names.get? folded
  archive : Archive.Keeps (fun name => DefinitionKind.IsDefinitionName name ∧
      ∀ holder, before.shelf.catalog.names.get? (foldName (Definition.name definition)) = some holder →
        name ≠ (Definition.kind δ).fileName holder) before.shelf.archive after.shelf.archive

theorem make_way_spec (cleanUp : CleanUp) (consistent : loading.shelf.catalog.Consistent)
    (notLive : loading.shelf.catalog.entries.get? (Definition.id definition) = none) :
    MakesWay definition loading (loading.makeWay cleanUp definition) := by
  simp only [makeWay, Catalog.resolve]
  split
  next free => exact ⟨consistent, ⟨notLive, free⟩, fun _ _ => rfl, Archive.keeps_all _ _⟩
  next holder held =>
    obtain ⟨entry, found, named⟩ := (consistent.names_exact _ _).mp held
    have different : holder ≠ Definition.id definition := by
      intro same
      rw [same, notLive] at found
      cases found
    have live : loading.shelf.catalog.isLive holder = true := (Catalog.isLive_iff _ _).mpr ⟨entry, found⟩
    have removed : (loading.shelf.remove holder).2.catalog = loading.shelf.catalog.remove holder := by
      rw [Shelf.remove_catalog, if_pos live]
    rw [if_neg different]
    constructor
    · exact removed ▸ consistent.remove holder
    · constructor
      · simp [discard, removed, Catalog.remove, notLive]
      · simp [discard, removed, Catalog.remove, consistent.get_release_names, held]
    · intro folded other
      have notHeld : loading.shelf.catalog.names.get? folded ≠ some holder := by
        intro heldThere
        obtain ⟨again, foundAgain, namedAgain⟩ := (consistent.names_exact _ _).mp heldThere
        rw [found] at foundAgain
        cases foundAgain
        exact other (namedAgain.symm.trans named)
      simp [discard, removed, Catalog.remove, consistent.get_release_names, notHeld]
    · exact (loading.shelf.remove_keeps holder).mono fun name kept => ⟨kept.1, kept.2 holder held⟩

section Admitted

variable {extensions : Extensions} {catalog : Catalog δ γ}

theorem admitted_consistent (consistent : catalog.Consistent) (free : Free catalog definition) :
    (admitted extensions definition catalog).Consistent := by
  simp only [admitted]
  split
  next generator compiled =>
    have freeThere := free_filled (free_prepared free) generator
    refine consistent.place ?_ fun holder held => ?_
    · rw [LawfulDefinition.compiled_id compiled, LawfulDefinition.id_fill]
    · rw [freeThere.name] at held
      cases held
  next => exact consistent

theorem admitted_names (free : Free catalog definition) (folded : String) (id : UInt32) :
    (admitted extensions definition catalog).names.get? folded = some id ↔
      if folded = foldName (Definition.name definition) then
        Compiles extensions definition ∧ Definition.id definition = id
      else catalog.names.get? folded = some id := by
  have freeThere := free_prepared free
  simp only [admitted]
  split
  next generator compiled =>
    have compiles : Compiles extensions definition := ⟨generator, compiled⟩
    have kept : catalog.releaseNames (Definition.id definition) = catalog.names := by
      rw [Catalog.releaseNames, free.id]
    simp only [Catalog.place, SortedMap.get_insert, LawfulDefinition.id_fill, LawfulDefinition.id_prepare,
      LawfulDefinition.name_fill, LawfulDefinition.name_prepare, kept]
    by_cases own : folded = foldName (Definition.name definition)
    · simp [own, compiles]
    · simp [own]
  next error failed =>
    have fails : ¬ Compiles extensions definition := by
      intro compiles
      obtain ⟨generator, compiled⟩ := compiles
      rw [failed] at compiled
      cases compiled
    by_cases own : folded = foldName (Definition.name definition)
    · simp [own, free.name, fails]
    · simp [own]

end Admitted

theorem loaded_start (extensions : Extensions) (consistent : loading.shelf.catalog.Consistent)
    (nothing : loading.shelf.catalog.names = .empty) : Loaded extensions loading.shelf.archive [] loading where
  consistent := consistent
  newest folded id := by
    rw [nothing]
    constructor
    · intro held
      cases held
    · intro found
      obtain ⟨definition, newest, _⟩ := found
      exact absurd newest.member List.not_mem_nil
  archive := Archive.keeps_all _ _

namespace Loaded

variable {extensions : Extensions} {origin : Archive} {earlier : List δ}

theorem reserve (loaded : Loaded extensions origin earlier loading) (id : UInt32) :
    Loaded extensions origin earlier (loading.reserveThrough id) :=
  ⟨loaded.consistent, loaded.newest, loaded.archive⟩

theorem not_live (loaded : Loaded extensions origin earlier loading)
    (above : ∀ other ∈ earlier, Definition.id other < Definition.id definition) :
    loading.shelf.catalog.entries.get? (Definition.id definition) = none := by
  cases found : loading.shelf.catalog.entries.get? (Definition.id definition) with
  | none => rfl
  | some entry =>
      have held := (loaded.consistent.names_exact _ _).mpr ⟨entry, found, rfl⟩
      obtain ⟨other, newest, _, same⟩ := (loaded.newest _ _).mp held
      have less := above other newest.member
      rw [same] at less
      exact absurd less (UInt32.lt_irrefl _)

theorem superseded (loaded : Loaded extensions origin earlier loading)
    (above : ∀ other ∈ earlier, Definition.id other < Definition.id definition) {holder : UInt32}
    (held : loading.shelf.catalog.names.get? (foldName (Definition.name definition)) = some holder) :
    ∃ other ∈ earlier, Definition.id other = holder ∧ Superseded extensions (· ∈ earlier ++ [definition]) other := by
  obtain ⟨other, newest, compiles, same⟩ := (loaded.newest _ _).mp held
  exact ⟨other, newest.member, same, compiles, definition, by simp, newest.named.symm, above other newest.member⟩

theorem install (loaded : Loaded extensions origin earlier loading) (cleanUp : CleanUp)
    (above : ∀ other ∈ earlier, Definition.id other < Definition.id definition) :
    Loaded extensions origin (earlier ++ [definition])
      ((loading.makeWay cleanUp (Definition.prepare definition)).install extensions (Definition.prepare definition)) := by
  have notLive : loading.shelf.catalog.entries.get? (Definition.id (Definition.prepare definition)) = none := by
    rw [LawfulDefinition.id_prepare]
    exact loaded.not_live above
  have way := make_way_spec cleanUp loaded.consistent notLive
  have free : Free (loading.makeWay cleanUp (Definition.prepare definition)).shelf.catalog definition := by
    have free := way.free
    exact ⟨by simpa using free.id, by simpa using free.name⟩
  obtain ⟨sameArchive, catalog⟩ := install_admitted extensions way.free
  constructor
  · rw [catalog]
    exact admitted_consistent way.consistent free
  · intro folded id
    rw [catalog, admitted_names free]
    by_cases own : folded = foldName (Definition.name definition)
    · subst own
      simp only [newest_append_own above, if_pos]
      simp
    · rw [if_neg own, way.names folded (by simpa using own), loaded.newest]
      simp only [newest_append_other own]
  · rw [sameArchive]
    refine (loaded.archive.mono fun name kept => ⟨kept.definition_name, fun other member superseded => ?_⟩).trans
      (way.archive.mono fun name kept => ⟨kept.definition_name, fun holder held => ?_⟩)
    · exact kept.others other (List.mem_append_left _ member) superseded.append
    · rw [LawfulDefinition.name_prepare] at held
      obtain ⟨other, member, same, superseded⟩ := loaded.superseded above held
      rw [← same]
      exact kept.others other (List.mem_append_left _ member) superseded

theorem add (loaded : Loaded extensions origin earlier loading) (cleanUp : CleanUp)
    (above : ∀ other ∈ earlier, Definition.id other < Definition.id definition) :
    Loaded extensions origin (earlier ++ [definition]) (loading.add extensions cleanUp definition) :=
  (loaded.reserve _).install cleanUp above

theorem add_all (loaded : Loaded extensions origin earlier loading) (cleanUp : CleanUp) {definitions : List δ}
    (ascending : (earlier ++ definitions).Pairwise fun one other => Definition.id one < Definition.id other) :
    Loaded extensions origin (earlier ++ definitions) (definitions.foldl (Loading.add extensions cleanUp) loading) := by
  induction definitions generalizing earlier loading with
  | nil =>
      rw [List.append_nil]
      exact loaded
  | cons definition rest ih =>
      have above : ∀ other ∈ earlier, Definition.id other < Definition.id definition := fun other member =>
        (List.pairwise_append.mp ascending).2.2 other member definition List.mem_cons_self
      have whole : earlier ++ definition :: rest = (earlier ++ [definition]) ++ rest := by simp
      rw [whole] at ascending ⊢
      exact ih (loaded.add cleanUp above) ascending

end Loaded

end Loading
end DocumentViews
