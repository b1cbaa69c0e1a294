import DocumentViews.Query.Lexeme
import DocumentViews.Text.LetterCase

set_option autoImplicit false

namespace DocumentViews

inductive DefinitionKind
  | index
  | transformer
deriving DecidableEq, Repr

namespace DefinitionKind

def label : DefinitionKind → String
  | index => "index"
  | transformer => "transformer"

def fileExtension : DefinitionKind → String
  | index => "index"
  | transformer => "transform"

def listingFile : DefinitionKind → String
  | index => "indexes.txt"
  | transformer => "transformers.txt"

end DefinitionKind

-- Names that differ in letter case only are the same name; this is the form that tells
-- names apart.
def foldName (name : String) : String := LetterCase.toLower name

inductive DefinitionKey
  | id (number : UInt32)
  | name (text : String)
deriving DecidableEq, Repr

def DefinitionKey.text : DefinitionKey → String
  | id number => "#" ++ toString number.toNat
  | name text => "'" ++ text ++ "'"

structure Comparison where
  ignoreFormatting : Bool
  ignoreOutputLimit : Bool
deriving DecidableEq, Repr

namespace Comparison

def exact : Comparison := ⟨false, false⟩

def relaxed : Comparison := ⟨true, true⟩

def sameText (comparison : Comparison) (left right : String) : Bool :=
  left == right || (comparison.ignoreFormatting && sameTokens left right)

def swapRemove (place : Nat) (texts : List String) : List String :=
  match texts.getLast? with
  | some last => (texts.set place last).dropLast
  | none => []

def findsEach (comparison : Comparison) : (texts free : List String) → Bool
  | [], _ => true
  | text :: texts, free =>
      match free.findIdx? (comparison.sameText text) with
      | some place => findsEach comparison texts (swapRemove place free)
      | none => false

def sameTexts (comparison : Comparison) (left right : List String) : Bool :=
  left.length == right.length && findsEach comparison left right

end Comparison
end DocumentViews
