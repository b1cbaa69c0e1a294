import DocumentViews.Definition

set_option autoImplicit false

namespace DocumentViews

structure CatalogEntry (δ γ : Type) where
  definition : δ
  generator : γ
  -- Tells this generator from every other one that was ever installed.
  stamp : Nat

structure Catalog (δ γ : Type) where
  entries : SortedMap UInt32 (CatalogEntry δ γ)
  names : TextMap UInt32
  newIds : SortedSet UInt32
  installs : Nat

namespace Catalog

variable {δ γ : Type} [Definition δ γ]

def empty : Catalog δ γ := ⟨.empty, .empty, .empty, 0⟩

def isLive (catalog : Catalog δ γ) (id : UInt32) : Bool := catalog.entries.contains id

def resolve (catalog : Catalog δ γ) : DefinitionKey → Option UInt32
  | .id id => if catalog.isLive id then some id else none
  | .name name => catalog.names.get? (foldName name)

def find? (catalog : Catalog δ γ) (key : DefinitionKey) : Option (CatalogEntry δ γ) :=
  (catalog.resolve key).bind fun id => catalog.entries.get? id

def get? (catalog : Catalog δ γ) (key : DefinitionKey) : Option δ := (catalog.find? key).map CatalogEntry.definition

def generator? (catalog : Catalog δ γ) (key : DefinitionKey) : Option γ :=
  (catalog.find? key).map CatalogEntry.generator

def containsName (catalog : Catalog δ γ) (name : String) : Bool := catalog.names.contains (foldName name)

def isNew (catalog : Catalog δ γ) (id : UInt32) : Bool := catalog.newIds.contains id

def size (catalog : Catalog δ γ) : Nat := catalog.entries.size

def ids (catalog : Catalog δ γ) : List UInt32 := catalog.entries.keys

def definitions (catalog : Catalog δ γ) : List δ := catalog.entries.values.map CatalogEntry.definition

def listing (catalog : Catalog δ γ) : List (UInt32 × String) :=
  catalog.entries.entries.map fun (id, entry) => (id, Definition.name entry.definition)

def sortedNames (catalog : Catalog δ γ) : List String :=
  (catalog.definitions.map Definition.name).mergeSort fun left right => foldName left ≤ foldName right

def checkReplaceable (catalog : Catalog δ γ) (id : UInt32) : Except DefinitionError Unit :=
  match catalog.entries.get? id with
  | none => .ok ()
  | some entry =>
      if Definition.isCompiled entry.definition then
        .error (.compiledIsFixed (Definition.kind δ) id (Definition.name entry.definition))
      else .ok ()

-- A name belongs to one id, except that `displaced` gives it up.
def checkNameFree (catalog : Catalog δ γ) (name : String) (id : UInt32) (displaced : Option UInt32) :
    Except DefinitionError Unit :=
  match catalog.names.get? (foldName name) with
  | none => .ok ()
  | some holder =>
      if holder = id ∨ some holder = displaced then .ok ()
      else .error (.nameInUse (Definition.kind δ) name holder)

def releaseName (name : String) (id : UInt32) (names : TextMap UInt32) : TextMap UInt32 :=
  if names.get? (foldName name) = some id then names.erase (foldName name) else names

-- An id has the name of its definition and that under which it was compiled.
def releaseNames (catalog : Catalog δ γ) (id : UInt32) : TextMap UInt32 :=
  match catalog.entries.get? id with
  | none => catalog.names
  | some entry =>
      releaseName (Definition.name entry.definition) id
        (releaseName (Definition.generatorName δ entry.generator) id catalog.names)

def place (catalog : Catalog δ γ) (definition : δ) (generator : γ) : Catalog δ γ :=
  let id := Definition.id definition
  { catalog with
    entries := catalog.entries.insert id ⟨definition, generator, catalog.installs⟩
    names := (catalog.releaseNames id).insert (foldName (Definition.name definition)) id
    installs := catalog.installs + 1 }

def install (definition : δ) (generator : γ) (catalog : Catalog δ γ) : Except DefinitionError (Catalog δ γ) := do
  catalog.checkReplaceable (Definition.id definition)
  catalog.checkNameFree (Definition.name definition) (Definition.id definition) none
  .ok (catalog.place definition generator)

def replaceDefinition (definition : δ) (catalog : Catalog δ γ) : Except DefinitionError (Catalog δ γ) := do
  let id := Definition.id definition
  match catalog.entries.get? id with
  | none => .error (.notFound (Definition.kind δ) id (Definition.name definition))
  | some entry => do
      catalog.checkReplaceable id
      catalog.checkNameFree (Definition.name definition) id none
      let released := releaseName (Definition.name entry.definition) id catalog.names
      .ok { catalog with
        entries := catalog.entries.insert id { entry with definition }
        names := released.insert (foldName (Definition.name definition)) id }

def remove (catalog : Catalog δ γ) (id : UInt32) : Catalog δ γ :=
  { catalog with
    entries := catalog.entries.erase id
    names := catalog.releaseNames id
    newIds := catalog.newIds.erase id }

-- Nothing changes unless both definitions may be replaced.
def installDisplacing (definition : δ) (generator : γ) (displaced : Option UInt32) (catalog : Catalog δ γ) :
    Except DefinitionError (Catalog δ γ) := do
  let id := Definition.id definition
  catalog.checkReplaceable id
  match displaced with
  | some holder => catalog.checkReplaceable holder
  | none => .ok ()
  catalog.checkNameFree (Definition.name definition) id displaced
  let cleared := match displaced with
    | some holder => catalog.remove holder
    | none => catalog
  .ok (cleared.place definition generator)

def fill (catalog : Catalog δ γ) (key : DefinitionKey) : Option δ × Catalog δ γ :=
  match catalog.resolve key with
  | none => (none, catalog)
  | some id =>
      match catalog.entries.get? id with
      | none => (none, catalog)
      | some entry =>
          let definition := Definition.fill entry.definition entry.generator
          (some definition, { catalog with entries := catalog.entries.insert id { entry with definition } })

def markNew (catalog : Catalog δ γ) (id : UInt32) : Bool × Catalog δ γ :=
  if catalog.isLive id && !catalog.isNew id then (true, { catalog with newIds := catalog.newIds.insert id () })
  else (false, catalog)

def clearNew (catalog : Catalog δ γ) : Catalog δ γ := { catalog with newIds := .empty }

end Catalog
end DocumentViews
