import DocumentViews.Definition.Index
import DocumentViews.Definition.Transformer
import DocumentViews.Json.Record

set_option autoImplicit false

namespace DocumentViews

namespace Encoding

def strings (texts : List String) : Value := .array (texts.map .string)

def ofMap {α : Type} (encode : α → Value) (map : TextMap α) : Value :=
  .object (map.mapValues encode).entries

def ofOption {α : Type} (encode : α → Value) : Option α → Value
  | some value => encode value
  | none => .null

def ofId (id : UInt32) : Value := .ofNat id.toNat

def readId : Reader UInt32 := fun text => do
  let number ← Json.natural (UInt32.size - 1) text
  .ok (number.map Nat.toUInt32)

def readNamed {α : Type} (all : List α) (name : α → String) : Reader α :=
  Json.choice fun text => all.find? fun option => name option == text

def mapsOf? : Value → Option (List String)
  | .null => some []
  | .string text => some (if Blank.isBlankText text then [] else [text])
  | .array items => items.mapM Value.text?
  | _ => none

def fieldLevels : Nat := 126

def readMaps : Reader (List String) := fun text => do
  let found ← Json.value fieldLevels text
  match mapsOf? found.value with
  | some maps => .ok (found.map fun _ => maps)
  | none => .error (.unsuitable none)

def readSortOption : Reader SortOption := fun input => do
  let first ← Json.significant input
  if first.value = '"' ∨ first.value = '-' ∨ first.value.isDigit then do
    let found ← Json.valueWith none input
    match found.value with
    | .string name =>
        match SortOption.named? name with
        | some option => .ok (found.map fun _ => option)
        | none => .error (.unsuitable (some ("unknown sort option: " ++ name)))
    | .number (.integer code _) =>
        if code < 0 then .error (.unsuitable (some ("negative sort option code: " ++ toString code)))
        else match SortOption.coded? code.toNat with
          | some option => .ok (found.map fun _ => option)
          | none => .error (.unsuitable (some ("unknown sort option code: " ++ toString code)))
    | _ => .error (.unsuitable none)
  else .error (Json.misfit input)

end Encoding

open Encoding Json

namespace IndexDefinition

def toValue (definition : IndexDefinition) : Value :=
  .object [
    ("id", ofId definition.id),
    ("name", .string definition.name),
    ("maps", strings definition.maps),
    ("reduce", ofOption .string definition.reduce),
    ("fields", strings definition.fields),
    ("stores", ofMap (fun option => .string option.name) definition.stores),
    ("indexes", ofMap (fun option => .string option.name) definition.indexes),
    ("sort_options", ofMap (fun option => .string option.name) definition.sortOptions),
    ("analyzers", ofMap .string definition.analyzers),
    ("suggestions", strings definition.suggestions.keys),
    ("term_vectors", ofMap (fun option => .string option.name) definition.termVectors),
    ("max_index_outputs_per_document", ofOption ofId definition.maxOutputsPerDocument),
    ("lock_mode", .string definition.lockMode.name),
    ("is_compiled", .bool definition.isCompiled),
    ("is_test_index", .bool definition.isTest),
    ("is_side_by_side_index", .bool definition.isSideBySide)]

def jsonFields : List (RecordField IndexDefinition) := [
  .of "id" readId fun id definition => { definition with id },
  .of "name" text fun name definition => { definition with name },
  (RecordField.of "maps" readMaps fun maps definition => { definition with maps }).orNamed "map",
  .of "reduce" (optional text) fun reduce definition => { definition with reduce },
  .of "fields" (list text) fun fields definition => { definition with fields },
  .of "stores" (textMap (readNamed FieldStorage.all FieldStorage.name)) fun stores definition =>
    { definition with stores },
  .of "indexes" (textMap (readNamed FieldIndexing.all FieldIndexing.name)) fun indexes definition =>
    { definition with indexes },
  .of "sort_options" (textMap readSortOption) fun sortOptions definition => { definition with sortOptions },
  .of "analyzers" (textMap text) fun analyzers definition => { definition with analyzers },
  .of "suggestions" textSet fun suggestions definition => { definition with suggestions },
  .of "term_vectors" (textMap (readNamed TermVector.all TermVector.name)) fun termVectors definition =>
    { definition with termVectors },
  .of "max_index_outputs_per_document" (optional readId) fun maxOutputsPerDocument definition =>
    { definition with maxOutputsPerDocument },
  .of "lock_mode" (readNamed IndexLockMode.all IndexLockMode.name) fun lockMode definition =>
    { definition with lockMode },
  .of "is_compiled" flag fun isCompiled definition => { definition with isCompiled },
  .of "is_test_index" flag fun isTest definition => { definition with isTest },
  .of "is_side_by_side_index" flag fun isSideBySide definition => { definition with isSideBySide }]

def reader : Reader IndexDefinition := record jsonFields empty

end IndexDefinition

namespace TransformerDefinition

def toValue (definition : TransformerDefinition) : Value :=
  .object [
    ("id", ofId definition.id),
    ("name", .string definition.name),
    ("transform_results", .string definition.transformResults),
    ("lock_mode", .string definition.lockMode.name),
    ("temporary", .bool definition.temporary)]

def jsonFields : List (RecordField TransformerDefinition) := [
  .of "id" readId fun id definition => { definition with id },
  .of "name" text fun name definition => { definition with name },
  .of "transform_results" text fun transformResults definition => { definition with transformResults },
  .of "lock_mode" (readNamed TransformerLockMode.all TransformerLockMode.name) fun lockMode definition =>
    { definition with lockMode },
  .of "temporary" flag fun temporary definition => { definition with temporary }]

def reader : Reader TransformerDefinition := record jsonFields empty

end TransformerDefinition
end DocumentViews
