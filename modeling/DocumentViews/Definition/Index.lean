import DocumentViews.Definition.Kind
import DocumentViews.SortedMap
import DocumentViews.Text.Blank

set_option autoImplicit false

namespace DocumentViews

inductive FieldStorage
  | yes
  | no
  | compress
deriving DecidableEq, Repr

namespace FieldStorage

def name : FieldStorage → String
  | yes => "Yes"
  | no => "No"
  | compress => "Compress"

def all : List FieldStorage := [yes, no, compress]

end FieldStorage

inductive FieldIndexing
  | no
  | analyzed
  | notAnalyzed
  | default
deriving DecidableEq, Repr

namespace FieldIndexing

def name : FieldIndexing → String
  | no => "No"
  | analyzed => "Analyzed"
  | notAnalyzed => "NotAnalyzed"
  | default => "Default"

def all : List FieldIndexing := [no, analyzed, notAnalyzed, default]

end FieldIndexing

inductive TermVector
  | no
  | yes
  | withPositions
  | withOffsets
  | withPositionsAndOffsets
deriving DecidableEq, Repr

namespace TermVector

def name : TermVector → String
  | no => "No"
  | yes => "Yes"
  | withPositions => "WithPositions"
  | withOffsets => "WithOffsets"
  | withPositionsAndOffsets => "WithPositionsAndOffsets"

def all : List TermVector := [no, yes, withPositions, withOffsets, withPositionsAndOffsets]

end TermVector

inductive SortOption
  | none
  | string
  | int
  | float
  | long
  | double
  | short
  | custom
  | byte
  | stringVal
deriving DecidableEq, Repr

namespace SortOption

def name : SortOption → String
  | none => "None"
  | string => "String"
  | int => "Int"
  | float => "Float"
  | long => "Long"
  | double => "Double"
  | short => "Short"
  | custom => "Custom"
  | byte => "Byte"
  | stringVal => "StringVal"

def code : SortOption → Nat
  | none => 0
  | string => 3
  | int => 4
  | float => 5
  | long => 6
  | double => 7
  | short => 8
  | custom => 9
  | byte => 10
  | stringVal => 11

def all : List SortOption := [none, string, int, float, long, double, short, custom, byte, stringVal]

theorem mem_all (option : SortOption) : option ∈ all := by cases option <;> simp [all]

def named? (name : String) : Option SortOption := all.find? fun option => LetterCase.sameIgnoringCase option.name name

def coded? (code : Nat) : Option SortOption := all.find? fun option => option.code == code

end SortOption

inductive IndexLockMode
  | unlock
  | lockedIgnore
  | lockedError
  | sideBySide
deriving DecidableEq, Repr

namespace IndexLockMode

def name : IndexLockMode → String
  | unlock => "Unlock"
  | lockedIgnore => "LockedIgnore"
  | lockedError => "LockedError"
  | sideBySide => "SideBySide"

def all : List IndexLockMode := [unlock, lockedIgnore, lockedError, sideBySide]

end IndexLockMode

structure IndexDefinition where
  id : UInt32
  name : String
  maps : List String
  reduce : Option String
  fields : List String
  stores : TextMap FieldStorage
  indexes : TextMap FieldIndexing
  sortOptions : TextMap SortOption
  analyzers : TextMap String
  suggestions : TextSet
  termVectors : TextMap TermVector
  maxOutputsPerDocument : Option UInt32
  lockMode : IndexLockMode
  isCompiled : Bool
  isTest : Bool
  isSideBySide : Bool
deriving DecidableEq

namespace IndexDefinition

def empty : IndexDefinition :=
  ⟨0, "", [], none, [], .empty, .empty, .empty, .empty, .empty, .empty, none, .unlock, false, false, false⟩

def ofSingleMap (name map : String) : IndexDefinition := { empty with name, maps := [map] }

def withReduce (definition : IndexDefinition) (reduce : String) : IndexDefinition :=
  { definition with reduce := some reduce }

def reduceText? (definition : IndexDefinition) : Option String :=
  definition.reduce.filter fun text => !Blank.isBlankText text

def isMapReduce (definition : IndexDefinition) : Bool := definition.reduceText?.isSome

def mapTexts (definition : IndexDefinition) : List String :=
  definition.maps.filter fun text => !Blank.isBlankText text

-- Whether two definitions mean the same index under the same id. Fields and locks do not
-- matter, nor does the order of the maps.
def equivalent (comparison : Comparison) (left right : IndexDefinition) : Bool :=
  left.id == right.id && foldName left.name == foldName right.name &&
    comparison.sameTexts left.maps right.maps &&
    (match left.reduce, right.reduce with
      | none, none => true
      | some one, some other => comparison.sameText one other
      | _, _ => false) &&
    left.stores == right.stores && left.indexes == right.indexes && left.sortOptions == right.sortOptions &&
    left.analyzers == right.analyzers && left.suggestions == right.suggestions &&
    left.termVectors == right.termVectors &&
    (comparison.ignoreOutputLimit || left.maxOutputsPerDocument == right.maxOutputsPerDocument)

end IndexDefinition
end DocumentViews
