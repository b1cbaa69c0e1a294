import DocumentViews.ResultStorage
import DocumentViews.Shelf

set_option autoImplicit false

namespace DocumentViews

structure Replaced where
  kind : DefinitionKind
  name : String
  removedId : UInt32
  replacementId : UInt32
deriving DecidableEq, Repr

structure LoadReport where
  loadedIndexes : Nat
  loadedTransformers : Nat
  replaced : List Replaced
  skipped : List Skipped

namespace LoadReport

def isClean (report : LoadReport) : Bool := report.skipped.isEmpty && report.replaced.isEmpty

end LoadReport

abbrev CleanUp : Type := UInt32 → ResultStorage → ResultStorage

structure Loading (δ γ : Type) where
  shelf : Shelf δ γ
  storage : ResultStorage
  loaded : Nat
  replaced : List Replaced
  skipped : List Skipped

namespace Loading

variable {δ γ : Type} [Definition δ γ]

def start (ids : IdCounter) (archive : Archive) (storage : ResultStorage) : Loading δ γ :=
  ⟨⟨.empty, ids, archive⟩, storage, 0, [], []⟩

def reserveThrough (loading : Loading δ γ) (id : UInt32) : Loading δ γ :=
  { loading with shelf := { loading.shelf with ids := loading.shelf.ids.reserveThrough id } }

def noteSkipped (loading : Loading δ γ) (skipped : List Skipped) : Loading δ γ :=
  let reserved := (skipped.filterMap Skipped.id).foldl reserveThrough loading
  { reserved with skipped := reserved.skipped ++ skipped }

-- Removes an earlier definition of the same name. It is gone from the catalog even where
-- its file stays.
def discard (cleanUp : CleanUp) (earlier : UInt32) (definition : δ) (loading : Loading δ γ) : Loading δ γ :=
  { loading with
    shelf := (loading.shelf.remove earlier).2
    storage := cleanUp earlier loading.storage
    loaded := loading.loaded - 1
    replaced := loading.replaced ++
      [⟨Definition.kind δ, Definition.name definition, earlier, Definition.id definition⟩] }

def makeWay (cleanUp : CleanUp) (definition : δ) (loading : Loading δ γ) : Loading δ γ :=
  match loading.shelf.catalog.resolve (.name (Definition.name definition)) with
  | none => loading
  | some earlier =>
      if earlier = Definition.id definition then loading else loading.discard cleanUp earlier definition

def install (extensions : Extensions) (definition : δ) (loading : Loading δ γ) : Loading δ γ :=
  let id := Definition.id definition
  match loading.shelf.catalog.compileInto extensions definition with
  | .ok (_, catalog) => { loading with shelf := { loading.shelf with catalog }, loaded := loading.loaded + 1 }
  | .error error =>
      { loading with
        skipped := loading.skipped ++
          [⟨Definition.kind δ, (Definition.kind δ).fileName id, some id, some (Definition.name definition),
            .compile error⟩] }

def add (extensions : Extensions) (cleanUp : CleanUp) (loading : Loading δ γ) (definition : δ) : Loading δ γ :=
  let prepared := Definition.prepare definition
  ((loading.reserveThrough (Definition.id prepared)).makeWay cleanUp prepared).install extensions prepared

def ofArchive (extensions : Extensions) (cleanUp : CleanUp) (ids : IdCounter) (archive : Archive)
    (storage : ResultStorage) : Except DefinitionError (Loading δ γ) := do
  let listing : Listing δ ← archive.list
  .ok (listing.definitions.foldl (add extensions cleanUp) ((start ids archive storage).noteSkipped listing.skipped))

end Loading
end DocumentViews
