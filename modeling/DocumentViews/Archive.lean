import DocumentViews.Archive.Listing
import DocumentViews.Settings

set_option autoImplicit false

namespace DocumentViews

structure Archive where
  isDurable : Bool
  disk : Disk
deriving DecidableEq

namespace Archive

def openOn (settings : RegistrySettings) (disk : Disk) : Except DefinitionError Archive :=
  if settings.runInMemory then .ok ⟨false, disk⟩
  else match disk.withDirectory? with
    | some disk => .ok ⟨true, disk⟩
    | none => .error (.persistence RegistrySettings.definitionsName)

def temporaryName (name : String) : String := name ++ ".tmp"

-- What cannot be put in place stays under the other name.
def writeFile (name content : String) (archive : Archive) : Except DefinitionError Unit × Archive :=
  if !archive.isDurable then (.ok (), archive)
  else match archive.disk.writeText? (temporaryName name) content with
    | none => (.error (.persistence (temporaryName name)), archive)
    | some written =>
        match written.rename? (temporaryName name) name with
        | none => (.error (.persistence name), { archive with disk := written })
        | some placed => (.ok (), { archive with disk := placed })

def delete (kind : DefinitionKind) (id : UInt32) (archive : Archive) : Except DefinitionError Unit × Archive :=
  if !archive.isDurable then (.ok (), archive)
  else match archive.disk.removeFile? (kind.fileName id) with
    | none => (.error (.persistence (kind.fileName id)), archive)
    | some disk => (.ok (), { archive with disk })

def listingText (entries : List (UInt32 × String)) : String :=
  String.join (entries.map fun entry => toString entry.1.toNat ++ " - " ++ entry.2 ++ "\n")

def writeListing (kind : DefinitionKind) (entries : List (UInt32 × String)) (archive : Archive) :
    Except DefinitionError Unit × Archive :=
  archive.writeFile kind.listingFile (listingText entries)

variable {δ γ : Type} [Definition δ γ]

def write (definition : δ) (archive : Archive) : Except DefinitionError Unit × Archive :=
  archive.writeFile ((Definition.kind δ).fileName (Definition.id definition)) (Definition.toValue definition).pretty

def list (archive : Archive) : Except DefinitionError (Listing δ) :=
  if !archive.isDurable then .ok .empty
  else match archive.disk with
    | .absent => .ok .empty
    | .blocked => .error (.persistence RegistrySettings.definitionsName)
    | .present directory => .ok (.ofDirectory directory)

end Archive
end DocumentViews
