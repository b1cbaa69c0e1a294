import DocumentViews.Definition.Compile
import DocumentViews.Definition.Encoding

set_option autoImplicit false

namespace DocumentViews

class Definition (δ : Type) (γ : outParam Type) where
  kind : DefinitionKind
  id : δ → UInt32
  withId : UInt32 → δ → δ
  name : δ → String
  isCompiled : δ → Bool
  isTest : δ → Bool
  equivalent : Comparison → δ → δ → Bool
  prepare : δ → δ
  compile : Extensions → δ → Except DefinitionError γ
  fill : δ → γ → δ
  generatorName : γ → String
  reader : Reader δ
  toValue : δ → Value

instance : Definition IndexDefinition IndexGenerator where
  kind := .index
  id := IndexDefinition.id
  withId id definition := { definition with id }
  name := IndexDefinition.name
  isCompiled := IndexDefinition.isCompiled
  isTest := IndexDefinition.isTest
  equivalent := IndexDefinition.equivalent
  prepare := IndexDefinition.resolveAnalyzers
  compile := IndexDefinition.compile
  fill := IndexDefinition.fillFields
  generatorName := IndexGenerator.name
  reader := IndexDefinition.reader
  toValue := IndexDefinition.toValue

instance : Definition TransformerDefinition TransformerGenerator where
  kind := .transformer
  id := TransformerDefinition.id
  withId id definition := { definition with id }
  name := TransformerDefinition.name
  isCompiled _ := false
  isTest _ := false
  equivalent := TransformerDefinition.equivalent
  prepare definition := definition
  compile := TransformerDefinition.compile
  fill definition _ := definition
  generatorName := TransformerGenerator.name
  reader := TransformerDefinition.reader
  toValue := TransformerDefinition.toValue

end DocumentViews
