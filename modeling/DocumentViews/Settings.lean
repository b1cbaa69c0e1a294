import DocumentViews.Definition.Fault
import DocumentViews.Directory
import DocumentViews.Json.Record

set_option autoImplicit false

namespace DocumentViews

structure RegistrySettings where
  dataDirectory : String
  runInMemory : Bool
  administrationTimeout : UInt64
deriving DecidableEq, Repr

namespace RegistrySettings

def standard : RegistrySettings := ⟨"data", false, 60000⟩

def inMemory : RegistrySettings := { standard with runInMemory := true }

def withTimeout (settings : RegistrySettings) (administrationTimeout : UInt64) : RegistrySettings :=
  { settings with administrationTimeout }

def definitionsName : String := "definitions"

def definitionsPath (settings : RegistrySettings) : String :=
  if settings.dataDirectory.isEmpty || settings.dataDirectory.toList.getLast? == some '/' then
    settings.dataDirectory ++ definitionsName
  else settings.dataDirectory ++ "/" ++ definitionsName

def toValue (settings : RegistrySettings) : Value :=
  .object [
    ("administration_timeout_ms", .ofNat settings.administrationTimeout.toNat),
    ("data_directory", .string settings.dataDirectory),
    ("run_in_memory", .bool settings.runInMemory)]

def jsonFields : List (Json.RecordField RegistrySettings) := [
  .of "data_directory" Json.text fun dataDirectory settings => { settings with dataDirectory },
  .of "run_in_memory" Json.flag fun runInMemory settings => { settings with runInMemory },
  .of "administration_timeout_ms" (Json.natural (UInt64.size - 1)) fun timeout settings =>
    { settings with administrationTimeout := timeout.toUInt64 }]

def reader : Reader RegistrySettings := Json.record jsonFields standard

def load (name : String) : Option Node → Except DefinitionError RegistrySettings
  | none => .ok standard
  | some (.text content) =>
      match Json.document reader content with
      | .ok settings => .ok settings
      | .error fault => .error (.unreadableSettings fault)
  | some _ => .error (.persistence name)

end RegistrySettings
end DocumentViews
