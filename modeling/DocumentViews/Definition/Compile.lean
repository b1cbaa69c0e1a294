import DocumentViews.Definition.Analyzer
import DocumentViews.Definition.Fault
import DocumentViews.Definition.Transformer
import DocumentViews.Generator
import DocumentViews.Query.Parser

set_option autoImplicit false

namespace DocumentViews

namespace Compile

def readQuery (extensions : Extensions) (part : QueryPart) (text : String) : Except CompileFault Query :=
  match Query.parse extensions.isFunction text with
  | .ok query => .ok query
  | .error error => .error (.query part error)

def map (extensions : Extensions) (position : Nat) (text : String) : Except CompileFault Query := do
  let query ← readQuery extensions (.map position) text
  if query.source = .results then .error (.wrongSource (.map position))
  else if query.outputFields?.isNone then .error (.noObject (.map position))
  else .ok query

def maps (extensions : Extensions) (position : Nat) : List String → Except CompileFault (List Query)
  | [] => .ok []
  | text :: texts => do
      let query ← map extensions position text
      let others ← maps extensions (position + 1) texts
      .ok (query :: others)

def outputFields (query : Query) : List String := query.outputFields?.getD []

def checkFields (reduced : TextSet) (position : Nat) : List Query → Except CompileFault Unit
  | [] => .ok ()
  | query :: queries =>
      let fields := SortedSet.ofList (outputFields query)
      if fields = reduced then checkFields reduced (position + 1) queries
      else .error (.otherFields (.map position) fields reduced)

def reduce (extensions : Extensions) (maps : List Query) (text : String) : Except CompileFault Query := do
  let query ← readQuery extensions .reduce text
  if query.source ≠ .results then .error (.wrongSource .reduce)
  else match query.outputFields? with
    | none => .error (.noObject .reduce)
    | some fields => do
        checkFields (SortedSet.ofList fields) 0 maps
        .ok query

def distinct (names : List String) : List String :=
  names.foldl (fun kept name => if kept.contains name then kept else kept ++ [name]) []

def mappedFields (maps : List Query) : List String := distinct (maps.flatMap outputFields) ++ [documentIdField]

def checkAnalyzers (extensions : Extensions) : List (String × String) → Except CompileFault Unit
  | [] => .ok ()
  | (field, analyzer) :: others =>
      if Analyzer.isKnown extensions analyzer then checkAnalyzers extensions others
      else .error (.unknownAnalyzer analyzer field)

end Compile

namespace IndexDefinition

def generator (extensions : Extensions) (definition : IndexDefinition) : Except CompileFault IndexGenerator := do
  if definition.mapTexts.isEmpty then .error .noMap
  else do
    let maps ← Compile.maps extensions 0 definition.mapTexts
    let reducer ← match definition.reduceText? with
      | none => .ok none
      | some text => do
          let query ← Compile.reduce extensions maps text
          .ok (some query)
    Compile.checkAnalyzers extensions definition.analyzers.entries
    let fields := match reducer with
      | some query => Compile.outputFields query
      | none => Compile.mappedFields maps
    .ok ⟨definition.id, definition.name, maps, reducer, fields⟩

def compile (extensions : Extensions) (definition : IndexDefinition) : Except DefinitionError IndexGenerator :=
  match definition.generator extensions with
  | .ok generator => .ok generator
  | .error fault => .error (.compile .index definition.id definition.name fault)

def fillFields (definition : IndexDefinition) (generator : IndexGenerator) : IndexDefinition :=
  if definition.fields.isEmpty then { definition with fields := generator.fields } else definition

end IndexDefinition

namespace TransformerDefinition

def generator (extensions : Extensions) (definition : TransformerDefinition) :
    Except CompileFault TransformerGenerator := do
  if Blank.isBlankText definition.transformResults then .error .noTransformResults
  else do
    let query ← Compile.readQuery extensions .transformResults definition.transformResults
    if query.source ≠ .results then .error (.wrongSource .transformResults)
    else .ok ⟨definition.id, definition.name, query, Compile.outputFields query⟩

def compile (extensions : Extensions) (definition : TransformerDefinition) :
    Except DefinitionError TransformerGenerator :=
  match definition.generator extensions with
  | .ok generator => .ok generator
  | .error fault => .error (.compile .transformer definition.id definition.name fault)

end TransformerDefinition
end DocumentViews
