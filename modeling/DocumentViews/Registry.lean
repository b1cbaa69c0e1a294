import DocumentViews.Admission.Traffic
import DocumentViews.Shelf.Loading

set_option autoImplicit false

namespace DocumentViews

structure Registry where
  settings : RegistrySettings
  extensions : Extensions
  archive : Archive
  storage : ResultStorage
  indexes : Catalog IndexDefinition IndexGenerator
  transformers : Catalog TransformerDefinition TransformerGenerator
  traffic : Traffic
  ids : IdCounter
  report : LoadReport

def checkName (name : String) : Except DefinitionError Unit :=
  if Blank.isBlankText name then .error .emptyName else .ok ()

namespace Registry

def cleanUpIndex : CleanUp := fun id storage => (storage.deleteIndex id).2

def cleanUpTransformer : CleanUp := fun _ storage => storage

def openOn (settings : RegistrySettings) (extensions : Extensions) (storage : ResultStorage) (disk : Disk) :
    Except DefinitionError Registry := do
  let archive ← Archive.openOn settings disk
  let indexes ← Loading.ofArchive extensions cleanUpIndex .initial archive storage
  let transformers ←
    Loading.ofArchive extensions cleanUpTransformer indexes.shelf.ids indexes.shelf.archive indexes.storage
  let listed := { indexes.shelf with archive := transformers.shelf.archive }.refreshListing
  let finished := { transformers.shelf with archive := listed.archive }.refreshListing
  .ok {
    settings
    extensions
    archive := finished.archive
    storage := transformers.storage
    indexes := indexes.shelf.catalog.clearNew
    transformers := transformers.shelf.catalog.clearNew
    traffic := .idle
    ids := finished.ids
    report := {
      loadedIndexes := indexes.loaded
      loadedTransformers := transformers.loaded
      replaced := indexes.replaced ++ transformers.replaced
      skipped := indexes.skipped ++ transformers.skipped } }

def indexShelf (registry : Registry) : Shelf IndexDefinition IndexGenerator :=
  ⟨registry.indexes, registry.ids, registry.archive⟩

def transformerShelf (registry : Registry) : Shelf TransformerDefinition TransformerGenerator :=
  ⟨registry.transformers, registry.ids, registry.archive⟩

def withIndexShelf (registry : Registry) (shelf : Shelf IndexDefinition IndexGenerator) : Registry :=
  { registry with indexes := shelf.catalog, ids := shelf.ids, archive := shelf.archive }

def withTransformerShelf (registry : Registry) (shelf : Shelf TransformerDefinition TransformerGenerator) : Registry :=
  { registry with transformers := shelf.catalog, ids := shelf.ids, archive := shelf.archive }

variable {α : Type}

def onIndexes
    (operation : Shelf IndexDefinition IndexGenerator →
      Except DefinitionError α × Shelf IndexDefinition IndexGenerator)
    (registry : Registry) : Except DefinitionError α × Registry :=
  let (result, shelf) := operation registry.indexShelf
  (result, registry.withIndexShelf shelf)

def onTransformers
    (operation : Shelf TransformerDefinition TransformerGenerator →
      Except DefinitionError α × Shelf TransformerDefinition TransformerGenerator)
    (registry : Registry) : Except DefinitionError α × Registry :=
  let (result, shelf) := operation registry.transformerShelf
  (result, registry.withTransformerShelf shelf)

def allocateId (registry : Registry) : UInt32 × Registry :=
  let (id, ids) := registry.ids.allocate
  (id, { registry with ids })

def administering (caller : Thread) (operation : Registry → Except DefinitionError α × Registry) (registry : Registry) :
    Except DefinitionError α × Registry :=
  if registry.traffic.gate.admits caller .administration then operation registry
  else (.error (.gateTimeout registry.settings.administrationTimeout.toNat), registry)

def createAndPersistIndex (definition : IndexDefinition) (registry : Registry) :
    Except DefinitionError String × Registry :=
  registry.onIndexes fun shelf => shelf.createAndPersist registry.extensions definition

def addIndex (definition : IndexDefinition) (registry : Registry) : Except DefinitionError Unit × Registry :=
  registry.onIndexes fun shelf => shelf.add registry.extensions definition

def removeIndex (id : UInt32) (registry : Registry) : Except DefinitionError Bool × Registry :=
  registry.onIndexes fun shelf => shelf.remove id

def classifyIndex (definition : IndexDefinition) (registry : Registry) : Change × IndexDefinition :=
  registry.indexShelf.classify definition

def updateIndexWithoutRecompile (definition : IndexDefinition) (registry : Registry) :
    Except DefinitionError Unit × Registry :=
  registry.onIndexes fun shelf => shelf.updateWithoutRecompile definition

def indexDefinition (key : DefinitionKey) (registry : Registry) : Option IndexDefinition × Registry :=
  let (definition, indexes) := registry.indexes.fill key
  (definition, { registry with indexes })

def registerNew (key : DefinitionKey) (registry : Registry) : Bool × Registry :=
  match registry.indexes.resolve key with
  | none => (false, registry)
  | some id =>
      let (marked, indexes) := registry.indexes.markNew id
      (marked, { registry with indexes })

-- Only what is compiled takes the role of the administrator.
def putIndex (caller : Thread) (definition : IndexDefinition) (registry : Registry) :
    Except DefinitionError PutOutcome × Registry :=
  match checkName definition.name with
  | .error error => (.error error, registry)
  | .ok () =>
      let (change, candidate) := registry.classifyIndex definition
      let carryOut (registry : Registry) :=
        registry.onIndexes fun shelf => shelf.carryOut registry.extensions true change candidate
      if change.requiresCompile then registry.administering caller carryOut else carryOut registry

-- What the storage holds of the index is deleted first.
def deleteIndex (caller : Thread) (name : String) (registry : Registry) : Except DefinitionError Bool × Registry :=
  registry.administering caller fun registry =>
    match registry.indexes.resolve (.name name) with
    | none => (.ok false, registry)
    | some id =>
        let (deleted, storage) := registry.storage.deleteIndex id
        let registry := { registry with storage }
        match deleted with
        | .error error => (.error error, registry)
        | .ok () => registry.removeIndex id

def promoted (newName : String) (definition : IndexDefinition) : IndexDefinition :=
  { definition with name := newName, isSideBySide := false, fields := [] }

def persistPromoted (displaced : Option UInt32) (definition : IndexDefinition)
    (shelf : Shelf IndexDefinition IndexGenerator) :
    Except DefinitionError Bool × Shelf IndexDefinition IndexGenerator :=
  let (deleted, archive) := match displaced with
    | some holder => shelf.archive.delete .index holder
    | none => (.ok (), shelf.archive)
  let shelf := { shelf with archive }
  match deleted with
  | .error error => (.error error, shelf)
  | .ok () =>
      let (result, written) := shelf.persist definition
      (result.map fun _ => true, written)

-- An index that holds the new name is removed in the same step; the storage is not told.
def replaceIndex (caller : Thread) (oldName newName : String) (registry : Registry) :
    Except DefinitionError Bool × Registry :=
  match checkName newName with
  | .error error => (.error error, registry)
  | .ok () => registry.administering caller fun registry =>
      match registry.indexes.get? (.name oldName) with
      | none => (.ok false, registry)
      | some definition =>
          let renamed := promoted newName definition
          let displaced := (registry.indexes.resolve (.name newName)).filter (· ≠ definition.id)
          match renamed.compile registry.extensions with
          | .error error => (.error error, registry)
          | .ok generator =>
              let filled := renamed.fillFields generator
              match registry.indexes.installDisplacing filled generator displaced with
              | .error error => (.error error, registry)
              | .ok catalog => registry.onIndexes fun shelf =>
                  persistPromoted displaced filled { shelf with catalog }.refreshListing

def createAndPersistTransformer (definition : TransformerDefinition) (registry : Registry) :
    Except DefinitionError String × Registry :=
  registry.onTransformers fun shelf => shelf.createAndPersist registry.extensions definition

def addTransformer (definition : TransformerDefinition) (registry : Registry) :
    Except DefinitionError Unit × Registry :=
  registry.onTransformers fun shelf => shelf.add registry.extensions definition

def removeTransformer (id : UInt32) (registry : Registry) : Except DefinitionError Bool × Registry :=
  registry.onTransformers fun shelf => shelf.remove id

def classifyTransformer (definition : TransformerDefinition) (registry : Registry) : Change × TransformerDefinition :=
  registry.transformerShelf.classify definition

def updateTransformerWithoutRecompile (definition : TransformerDefinition) (registry : Registry) :
    Except DefinitionError Unit × Registry :=
  registry.onTransformers fun shelf => shelf.updateWithoutRecompile definition

-- Indexing does not read transformers, so the gate is not asked.
def putTransformer (definition : TransformerDefinition) (registry : Registry) :
    Except DefinitionError PutOutcome × Registry :=
  match checkName definition.name with
  | .error error => (.error error, registry)
  | .ok () =>
      let (change, candidate) := registry.classifyTransformer definition
      registry.onTransformers fun shelf => shelf.carryOut registry.extensions false change candidate

def deleteTransformer (name : String) (registry : Registry) : Except DefinitionError Bool × Registry :=
  match registry.transformers.resolve (.name name) with
  | none => (.ok false, registry)
  | some id => registry.removeTransformer id

def describe (registry : Registry) : String :=
  let settings := registry.settings
  "DefinitionRegistry \x7b config: RegistryConfig \x7b data_directory: " ++
    String.ofList (quoted settings.dataDirectory) ++
    ", run_in_memory: " ++ toString settings.runInMemory ++
    ", administration_timeout_ms: " ++ toString settings.administrationTimeout.toNat ++
    " \x7d, indexes: " ++ toString registry.indexes.size ++
    ", transformers: " ++ toString registry.transformers.size ++
    ", next_id: " ++ toString registry.ids.next.toNat ++ " \x7d"

end Registry
end DocumentViews
