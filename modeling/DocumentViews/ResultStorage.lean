import DocumentViews.Definition.Fault

set_option autoImplicit false

namespace DocumentViews

inductive StorageCall
  | prepareForDeletion (id : UInt32)
  | delete (id : UInt32)
deriving DecidableEq, Repr

structure ResultStorage where
  committed : List (List StorageCall)
  failsDeletes : Bool
deriving DecidableEq, Repr

namespace ResultStorage

def empty : ResultStorage := ⟨[], false⟩

def failDeletes (fails : Bool) (storage : ResultStorage) : ResultStorage := { storage with failsDeletes := fails }

abbrev Batch : Type := (failsDeletes : Bool) → (calls : List StorageCall) → Except DefinitionError (List StorageCall)

namespace Batch

def prepareForDeletion (id : UInt32) : Batch := fun _ calls => .ok (calls ++ [.prepareForDeletion id])

def delete (id : UInt32) : Batch := fun failsDeletes calls =>
  if failsDeletes then
    .error (.storage ("failed to delete indexing state of index " ++ toString id.toNat))
  else .ok (calls ++ [.delete id])

def abort : Batch := fun _ _ => .error (.storage "aborted")

def andThen (first second : Batch) : Batch := fun failsDeletes calls => do
  let earlier ← first failsDeletes calls
  second failsDeletes earlier

def nothing : Batch := fun _ calls => .ok calls

end Batch

def run (batch : Batch) (storage : ResultStorage) : Except DefinitionError Unit × ResultStorage :=
  match batch storage.failsDeletes [] with
  | .ok calls => (.ok (), { storage with committed := storage.committed ++ [calls] })
  | .error error => (.error error, storage)

def deleteIndex (id : UInt32) (storage : ResultStorage) : Except DefinitionError Unit × ResultStorage :=
  storage.run ((Batch.prepareForDeletion id).andThen (Batch.delete id))

end ResultStorage
end DocumentViews
