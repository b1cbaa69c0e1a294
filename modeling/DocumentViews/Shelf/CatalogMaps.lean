import DocumentViews.Shelf.Catalog

set_option autoImplicit false

namespace DocumentViews

-- A catalog map by map. Definitions and generators are stored, looked up and dropped each for
-- themselves, so nothing but the operations keeps their ids in step.
structure CatalogMaps (δ γ : Type) where
  definitions : SortedMap UInt32 δ
  generators : SortedMap UInt32 γ
  names : TextMap UInt32
  newIds : SortedSet UInt32

namespace CatalogMaps

variable {δ γ : Type} [Definition δ γ]

def empty : CatalogMaps δ γ := ⟨.empty, .empty, .empty, .empty⟩

def resolve (maps : CatalogMaps δ γ) : DefinitionKey → Option UInt32
  | .id id => if maps.definitions.contains id then some id else none
  | .name name => maps.names.get? (foldName name)

def get? (maps : CatalogMaps δ γ) (key : DefinitionKey) : Option δ := (maps.resolve key).bind maps.definitions.get?

def generator? (maps : CatalogMaps δ γ) (key : DefinitionKey) : Option γ := (maps.resolve key).bind maps.generators.get?

def checkReplaceable (maps : CatalogMaps δ γ) (id : UInt32) : Except DefinitionError Unit :=
  match maps.definitions.get? id with
  | none => .ok ()
  | some definition =>
      if Definition.isCompiled definition then
        .error (.compiledIsFixed (Definition.kind δ) id (Definition.name definition))
      else .ok ()

def checkNameFree (maps : CatalogMaps δ γ) (name : String) (id : UInt32) (displaced : Option UInt32) :
    Except DefinitionError Unit :=
  match maps.names.get? (foldName name) with
  | none => .ok ()
  | some holder =>
      if holder = id ∨ some holder = displaced then .ok ()
      else .error (.nameInUse (Definition.kind δ) name holder)

def staleNames (maps : CatalogMaps δ γ) (id : UInt32) : List String :=
  (maps.generators.get? id).toList.map (Definition.generatorName δ) ++
    (maps.definitions.get? id).toList.map Definition.name

def releaseNames (maps : CatalogMaps δ γ) (id : UInt32) : TextMap UInt32 :=
  (maps.staleNames id).foldl (fun names name => Catalog.releaseName name id names) maps.names

def place (maps : CatalogMaps δ γ) (definition : δ) (generator : γ) : CatalogMaps δ γ :=
  let id := Definition.id definition
  { maps with
    names := (maps.releaseNames id).insert (foldName (Definition.name definition)) id
    generators := maps.generators.insert id generator
    definitions := maps.definitions.insert id definition }

def install (definition : δ) (generator : γ) (maps : CatalogMaps δ γ) : Except DefinitionError (CatalogMaps δ γ) := do
  maps.checkReplaceable (Definition.id definition)
  maps.checkNameFree (Definition.name definition) (Definition.id definition) none
  .ok (maps.place definition generator)

-- Only an id that has a generator can take another definition.
def replaceDefinition (definition : δ) (maps : CatalogMaps δ γ) : Except DefinitionError (CatalogMaps δ γ) := do
  let id := Definition.id definition
  if maps.generators.contains id then
    maps.checkReplaceable id
    maps.checkNameFree (Definition.name definition) id none
    let released := match maps.definitions.get? id with
      | some previous => Catalog.releaseName (Definition.name previous) id maps.names
      | none => maps.names
    .ok { maps with
      names := released.insert (foldName (Definition.name definition)) id
      definitions := maps.definitions.insert id definition }
  else .error (.notFound (Definition.kind δ) id (Definition.name definition))

def remove (maps : CatalogMaps δ γ) (id : UInt32) : CatalogMaps δ γ where
  names := maps.releaseNames id
  generators := maps.generators.erase id
  newIds := maps.newIds.erase id
  definitions := maps.definitions.erase id

def installDisplacing (definition : δ) (generator : γ) (displaced : Option UInt32) (maps : CatalogMaps δ γ) :
    Except DefinitionError (CatalogMaps δ γ) := do
  let id := Definition.id definition
  let displaced := displaced.filter (· ≠ id)
  maps.checkReplaceable id
  match displaced with
  | some holder => maps.checkReplaceable holder
  | none => .ok ()
  maps.checkNameFree (Definition.name definition) id displaced
  let cleared := match displaced with
    | some holder => maps.remove holder
    | none => maps
  .ok (cleared.place definition generator)

def fill (maps : CatalogMaps δ γ) (key : DefinitionKey) : Option δ × CatalogMaps δ γ :=
  match maps.resolve key with
  | none => (none, maps)
  | some id =>
      match maps.definitions.get? id with
      | none => (none, maps)
      | some definition =>
          match maps.generators.get? id with
          | none => (some definition, maps)
          | some generator =>
              let filled := Definition.fill definition generator
              (some filled, { maps with definitions := maps.definitions.insert id filled })

def markNew (maps : CatalogMaps δ γ) (id : UInt32) : Bool × CatalogMaps δ γ :=
  if maps.definitions.contains id && !maps.newIds.contains id then
    (true, { maps with newIds := maps.newIds.insert id () })
  else (false, maps)

def clearNew (maps : CatalogMaps δ γ) : CatalogMaps δ γ := { maps with newIds := .empty }

end CatalogMaps

inductive CatalogCall (δ γ : Type)
  | install (definition : δ) (generator : γ)
  | replaceDefinition (definition : δ)
  | installDisplacing (definition : δ) (generator : γ) (displaced : Option UInt32)
  | remove (id : UInt32)
  | fill (key : DefinitionKey)
  | markNew (id : UInt32)
  | clearNew

variable {δ γ : Type} [Definition δ γ]

def Catalog.answer (catalog : Catalog δ γ) : CatalogCall δ γ → Catalog δ γ
  | .install definition generator => (catalog.install definition generator).toOption.getD catalog
  | .replaceDefinition definition => (catalog.replaceDefinition definition).toOption.getD catalog
  | .installDisplacing definition generator displaced =>
      (catalog.installDisplacing definition generator (displaced.filter (· ≠ Definition.id definition))).toOption.getD catalog
  | .remove id => catalog.remove id
  | .fill key => (catalog.fill key).2
  | .markNew id => (catalog.markNew id).2
  | .clearNew => catalog.clearNew

def CatalogMaps.answer (maps : CatalogMaps δ γ) : CatalogCall δ γ → CatalogMaps δ γ
  | .install definition generator => (maps.install definition generator).toOption.getD maps
  | .replaceDefinition definition => (maps.replaceDefinition definition).toOption.getD maps
  | .installDisplacing definition generator displaced =>
      (maps.installDisplacing definition generator displaced).toOption.getD maps
  | .remove id => maps.remove id
  | .fill key => (maps.fill key).2
  | .markNew id => (maps.markNew id).2
  | .clearNew => maps.clearNew

def Catalog.after (catalog : Catalog δ γ) (calls : List (CatalogCall δ γ)) : Catalog δ γ :=
  calls.foldl Catalog.answer catalog

def CatalogMaps.after (maps : CatalogMaps δ γ) (calls : List (CatalogCall δ γ)) : CatalogMaps δ γ :=
  calls.foldl CatalogMaps.answer maps

end DocumentViews
