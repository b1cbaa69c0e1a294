import DocumentViews.Definition.Kind
import DocumentViews.Json.Reader
import DocumentViews.SortedMap

set_option autoImplicit false

namespace DocumentViews

inductive QueryPart
  | map (position : Nat)
  | reduce
  | transformResults
deriving DecidableEq, Repr

namespace QueryPart

def label : QueryPart → String
  | map position => "map #" ++ toString position
  | reduce => "reduce"
  | transformResults => "transform_results"

def wantedSource : QueryPart → String
  | map _ => "docs"
  | reduce => "results"
  | transformResults => "results"

end QueryPart

inductive CompileFault
  | noMap
  | noTransformResults
  | query (part : QueryPart) (error : QueryError)
  | wrongSource (part : QueryPart)
  | noObject (part : QueryPart)
  | otherFields (part : QueryPart) (fields reduced : TextSet)
  | unknownAnalyzer (analyzer field : String)

namespace CompileFault

def showNames (names : TextSet) : String :=
  "\x7b" ++ String.intercalate ", " (names.keys.map fun name => "\"" ++ name ++ "\"") ++ "\x7d"

def message : CompileFault → String
  | noMap => "index must have at least one map"
  | noTransformResults => "transformer must have a transform_results expression"
  | query part error => part.label ++ ": " ++ error.message
  | wrongSource part => part.label ++ " must read from " ++ part.wantedSource
  | noObject part => part.label ++ " must select an object (new \x7b ... \x7d)"
  | otherFields part fields reduced =>
      part.label ++ " produces fields " ++ showNames fields ++ " but reduce produces " ++ showNames reduced
  | unknownAnalyzer analyzer field => "unknown analyzer '" ++ analyzer ++ "' for field '" ++ field ++ "'"

end CompileFault

inductive DefinitionError
  | compile (kind : DefinitionKind) (id : UInt32) (name : String) (fault : CompileFault)
  | compiledIsFixed (kind : DefinitionKind) (id : UInt32) (name : String)
  | nameInUse (kind : DefinitionKind) (name : String) (holder : UInt32)
  | notFound (kind : DefinitionKind) (id : UInt32) (name : String)
  | gateTimeout (waited : Nat)
  | emptyName
  | storage (reason : String)
  | persistence (file : String)
  | unreadableSettings (fault : ReadFault)

namespace DefinitionError

def message? : DefinitionError → Option String
  | compile kind id name fault =>
      some ("failed to compile " ++ kind.label ++ " '" ++ name ++ "' (" ++ toString id.toNat ++ "): " ++ fault.message)
  | compiledIsFixed kind id name =>
      some ("Invariant violation: " ++ kind.label ++ " '" ++ name ++ "' (" ++ toString id.toNat ++
        ") is compiled and cannot be replaced")
  | nameInUse kind name holder =>
      some ("Invariant violation: " ++ kind.label ++ " name '" ++ name ++ "' is already used by id " ++
        toString holder.toNat)
  | notFound kind id name =>
      some ("Not found: " ++ kind.label ++ " with id " ++ toString id.toNat ++ " ('" ++ name ++ "')")
  | gateTimeout waited =>
      some ("Cannot modify indexes while indexing is in progress (already waited " ++ toString (waited / 1000) ++
        "s). Try again later")
  | emptyName => some "Invalid input: definition name must not be empty"
  | storage reason => some ("Storage error: " ++ reason)
  | persistence _ => none
  | unreadableSettings _ => none

-- Only after a timeout of the gate nothing has changed and the operation can simply be
-- tried again.
def isRetryable : DefinitionError → Bool
  | gateTimeout _ => true
  | _ => false

def isPersistence : DefinitionError → Bool
  | persistence _ => true
  | _ => false

end DefinitionError
end DocumentViews
