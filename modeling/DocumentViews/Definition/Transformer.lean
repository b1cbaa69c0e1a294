import DocumentViews.Definition.Kind

set_option autoImplicit false

namespace DocumentViews

inductive TransformerLockMode
  | unlock
  | lockedIgnore
deriving DecidableEq, Repr

namespace TransformerLockMode

def name : TransformerLockMode → String
  | unlock => "Unlock"
  | lockedIgnore => "LockedIgnore"

def all : List TransformerLockMode := [unlock, lockedIgnore]

end TransformerLockMode

structure TransformerDefinition where
  id : UInt32
  name : String
  transformResults : String
  lockMode : TransformerLockMode
  temporary : Bool
deriving DecidableEq

namespace TransformerDefinition

def empty : TransformerDefinition := ⟨0, "", "", .unlock, false⟩

def ofQuery (name transformResults : String) : TransformerDefinition := { empty with name, transformResults }

def equivalent (comparison : Comparison) (left right : TransformerDefinition) : Bool :=
  left.id == right.id && foldName left.name == foldName right.name && left.temporary == right.temporary &&
    comparison.sameText left.transformResults right.transformResults

end TransformerDefinition
end DocumentViews
