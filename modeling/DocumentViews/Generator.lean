import DocumentViews.Query.Eval

set_option autoImplicit false

namespace DocumentViews

structure Document where
  id : String
  collection : Option String
  data : Value

def documentIdField : String := "__document_id"

namespace Document

def belongsTo (document : Document) : Source → Bool
  | .documents none => true
  | .documents (some wanted) =>
      match document.collection with
      | some collection => LetterCase.sameIgnoringCase collection wanted
      | none => false
  | .results => false

end Document

def tagOutput (id : String) : Value → Value
  | .object members => .object (SortedMap.insertEntry documentIdField (.string id) members)
  | other => other

structure IndexGenerator where
  id : UInt32
  name : String
  maps : List Query
  reducer : Option Query
  fields : List String

namespace IndexGenerator

def isMapReduce (generator : IndexGenerator) : Bool := generator.reducer.isSome

def text (generator : IndexGenerator) : String :=
  String.intercalate "\n\n" (generator.maps.map Query.text) ++
    match generator.reducer with
    | some query => "\n\n// reduce\n" ++ query.text
    | none => ""

def mapOne (extensions : Extensions) (generator : IndexGenerator) (query : Query) (document : Document) : List Value :=
  let outputs := query.run extensions [document.data]
  if generator.isMapReduce then outputs else outputs.map (tagOutput document.id)

def map (extensions : Extensions) (generator : IndexGenerator) (documents : List Document) : List Value :=
  generator.maps.flatMap fun query =>
    (documents.filter fun document => document.belongsTo query.source).flatMap (generator.mapOne extensions query)

def reduce (extensions : Extensions) (generator : IndexGenerator) (results : List Value) : List Value :=
  match generator.reducer with
  | some query => query.run extensions results
  | none => results

end IndexGenerator

structure TransformerGenerator where
  id : UInt32
  name : String
  query : Query
  fields : List String

namespace TransformerGenerator

def text (generator : TransformerGenerator) : String := generator.query.text

def transform (extensions : Extensions) (generator : TransformerGenerator) (results : List Value) : List Value :=
  generator.query.run extensions results

end TransformerGenerator
end DocumentViews
