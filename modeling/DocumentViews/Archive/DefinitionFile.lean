import DocumentViews.Definition
import DocumentViews.Directory

set_option autoImplicit false

namespace DocumentViews

namespace DefinitionKind

def fileName (kind : DefinitionKind) (id : UInt32) : String := toString id.toNat ++ "." ++ kind.fileExtension

end DefinitionKind

-- The parts of a file name before and after its last dot; a name that begins with its only
-- dot has none.
def splitExtension (name : String) : Option (List Char × List Char) :=
  let reversed := name.toList.reverse
  match reversed.dropWhile (· ≠ '.') with
  | _ :: char :: rest => some ((char :: rest).reverse, (reversed.takeWhile (· ≠ '.')).reverse)
  | _ => none

def parseId? (text : List Char) : Option UInt32 :=
  let digits := match text with
    | '+' :: rest => rest
    | _ => text
  if digits.isEmpty || !digits.all Char.isDigit then none
  else
    let number := Nat.ofDigitChars 10 digits 0
    if number < UInt32.size then some number.toUInt32 else none

inductive SkipReason
  | unreadable
  | malformed (fault : ReadFault)
  | unnamed
  | compile (error : DefinitionError)

namespace SkipReason

def label : SkipReason → String
  | unreadable => "Unreadable"
  | malformed _ => "Malformed"
  | unnamed => "Malformed"
  | compile _ => "Compile"

def message? : SkipReason → Option String
  | unreadable => none
  | malformed (.unsuitable reason) => reason
  | malformed _ => none
  | unnamed => some "definition has no name"
  | compile error => error.message?

end SkipReason

structure Skipped where
  kind : DefinitionKind
  file : String
  id : Option UInt32
  name : Option String
  reason : SkipReason

structure DefinitionFile where
  name : String
  id : Option UInt32
  node : Node
deriving DecidableEq

namespace DefinitionFile

def ofNode? (extension : String) (entry : String × Node) : Option DefinitionFile :=
  match splitExtension entry.1 with
  | none => none
  | some (stem, found) => if found = extension.toList then some ⟨entry.1, parseId? stem, entry.2⟩ else none

def rank (file : DefinitionFile) : UInt32 := file.id.getD (UInt32.size - 1).toUInt32

variable {δ γ : Type} [Definition δ γ]

def skip (file : DefinitionFile) (kind : DefinitionKind) (reason : SkipReason) : Skipped :=
  ⟨kind, file.name, file.id, none, reason⟩

def identify (file : DefinitionFile) (definition : δ) : δ :=
  if Definition.id definition = 0 then
    match file.id with
    | some id => Definition.withId id definition
    | none => definition
  else definition

def read (file : DefinitionFile) : Except Skipped δ :=
  match file.node.content? with
  | none => .error (file.skip (Definition.kind δ) .unreadable)
  | some content =>
      match Json.document Definition.reader content with
      | .error fault => .error (file.skip (Definition.kind δ) (.malformed fault))
      | .ok definition =>
          if Blank.isBlankText (Definition.name definition) then
            .error (file.skip (Definition.kind δ) .unnamed)
          else .ok (file.identify definition)

end DefinitionFile
end DocumentViews
