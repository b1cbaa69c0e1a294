import DocumentViews.Archive
import DocumentViews.Shelf.Catalog
import DocumentViews.Shelf.Change
import DocumentViews.Shelf.IdCounter

-- The catalog is changed before the files are, so a fault of a file is reported after the
-- catalog has changed; any other fault leaves both as they were.

set_option autoImplicit false

namespace DocumentViews

structure Shelf (δ γ : Type) where
  catalog : Catalog δ γ
  ids : IdCounter
  archive : Archive

structure PutOutcome where
  id : UInt32
  name : String
  change : Change
deriving DecidableEq, Repr

namespace Catalog

variable {δ γ : Type} [Definition δ γ]

def compileInto (extensions : Extensions) (definition : δ) (catalog : Catalog δ γ) :
    Except DefinitionError (δ × Catalog δ γ) := do
  let generator ← Definition.compile extensions definition
  let filled := Definition.fill definition generator
  let installed ← catalog.install filled generator
  .ok (filled, installed)

end Catalog

namespace Shelf

variable {δ γ : Type} [Definition δ γ]

-- The list is there for people to read, so nothing is reported if writing it fails.
def refreshListing (shelf : Shelf δ γ) : Shelf δ γ :=
  { shelf with archive := (shelf.archive.writeListing (Definition.kind δ) shelf.catalog.listing).2 }

def persist (definition : δ) (shelf : Shelf δ γ) : Except DefinitionError Unit × Shelf δ γ :=
  let (result, archive) := shelf.archive.write definition
  (result, { shelf with archive })

def identify (definition : δ) (shelf : Shelf δ γ) : δ × Shelf δ γ :=
  if Definition.id definition = 0 then
    let (id, ids) := shelf.ids.allocate
    (Definition.withId id definition, { shelf with ids })
  else (definition, { shelf with ids := shelf.ids.reserveThrough (Definition.id definition) })

def createAndPersist (extensions : Extensions) (definition : δ) (shelf : Shelf δ γ) :
    Except DefinitionError String × Shelf δ γ :=
  let (identified, shelf) := shelf.identify definition
  match shelf.catalog.compileInto extensions (Definition.prepare identified) with
  | .error error => (.error error, shelf)
  | .ok (installed, catalog) =>
      let (result, persisted) := { shelf with catalog }.refreshListing.persist installed
      (result.map fun _ => Definition.name installed, persisted)

-- Nothing is written to a file, and only an id that is not live is compiled.
def add (extensions : Extensions) (definition : δ) (shelf : Shelf δ γ) :
    Except DefinitionError Unit × Shelf δ γ :=
  if shelf.catalog.isLive (Definition.id definition) then
    match shelf.catalog.replaceDefinition definition with
    | .error error => (.error error, shelf)
    | .ok catalog => (.ok (), { shelf with catalog }.refreshListing)
  else
    let (identified, shelf) := shelf.identify definition
    match shelf.catalog.compileInto extensions (Definition.prepare identified) with
    | .error error => (.error error, shelf)
    | .ok (_, catalog) => (.ok (), { shelf with catalog }.refreshListing)

def remove (id : UInt32) (shelf : Shelf δ γ) : Except DefinitionError Bool × Shelf δ γ :=
  if shelf.catalog.isLive id then
    let listed := { shelf with catalog := shelf.catalog.remove id }.refreshListing
    let (result, archive) := listed.archive.delete (Definition.kind δ) id
    (result.map fun _ => true, { listed with archive })
  else (.ok false, shelf)

def classify (definition : δ) (shelf : Shelf δ γ) : Change × δ :=
  let prepared := Definition.prepare definition
  Change.classify (shelf.catalog.get? (.name (Definition.name prepared))) prepared

def updateWithoutRecompile (definition : δ) (shelf : Shelf δ γ) : Except DefinitionError Unit × Shelf δ γ :=
  match shelf.catalog.replaceDefinition definition with
  | .error error => (.error error, shelf)
  | .ok catalog => { shelf with catalog }.refreshListing.persist definition

def create (extensions : Extensions) (marksNew : Bool) (definition : δ) (shelf : Shelf δ γ) :
    Except DefinitionError UInt32 × Shelf δ γ :=
  let (id, ids) := shelf.ids.allocate
  let (result, created) := { shelf with ids }.createAndPersist extensions (Definition.withId id definition)
  let catalog := if marksNew then (created.catalog.markNew id).2 else created.catalog
  (result.map fun _ => id, { created with catalog })

def carryOut (extensions : Extensions) (marksNew : Bool) (change : Change) (definition : δ) (shelf : Shelf δ γ) :
    Except DefinitionError PutOutcome × Shelf δ γ :=
  let outcome (id : UInt32) : PutOutcome := ⟨id, Definition.name definition, change⟩
  match change with
  | .noop => (.ok (outcome (Definition.id definition)), shelf)
  | .updateWithoutRecompile =>
      let (result, updated) := shelf.updateWithoutRecompile definition
      (result.map fun _ => outcome (Definition.id definition), updated)
  | .update =>
      let (result, updated) := shelf.createAndPersist extensions definition
      (result.map fun _ => outcome (Definition.id definition), updated)
  | .create =>
      let (result, created) := shelf.create extensions marksNew definition
      (result.map outcome, created)

end Shelf
end DocumentViews
