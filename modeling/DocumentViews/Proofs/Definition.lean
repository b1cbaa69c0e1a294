import DocumentViews.Definition
import DocumentViews.Proofs.Compile
import DocumentViews.Proofs.Encoding

set_option autoImplicit false

namespace DocumentViews

class LawfulDefinition (δ : Type) (γ : outParam Type) [Definition δ γ] where
  generatorId : γ → UInt32
  generatorFields : γ → List String
  bare : δ → δ
  id_withId : ∀ (id : UInt32) (definition : δ), Definition.id (Definition.withId id definition) = id
  withId_withId : ∀ (one other : UInt32) (definition : δ),
    Definition.withId one (Definition.withId other definition) = Definition.withId one definition
  withId_id : ∀ definition : δ, Definition.withId (Definition.id definition) definition = definition
  name_withId : ∀ (id : UInt32) (definition : δ), Definition.name (Definition.withId id definition) = Definition.name definition
  id_prepare : ∀ definition : δ, Definition.id (Definition.prepare definition) = Definition.id definition
  name_prepare : ∀ definition : δ, Definition.name (Definition.prepare definition) = Definition.name definition
  id_fill : ∀ (definition : δ) (generator : γ), Definition.id (Definition.fill definition generator) = Definition.id definition
  name_fill : ∀ (definition : δ) (generator : γ),
    Definition.name (Definition.fill definition generator) = Definition.name definition
  compiled_id : ∀ {extensions : Extensions} {definition : δ} {generator : γ},
    Definition.compile extensions definition = .ok generator → generatorId generator = Definition.id definition
  compiled_name : ∀ {extensions : Extensions} {definition : δ} {generator : γ},
    Definition.compile extensions definition = .ok generator →
      Definition.generatorName δ generator = Definition.name definition
  fill_fill : ∀ (definition : δ) (generator : γ),
    Definition.fill (Definition.fill definition generator) generator = Definition.fill definition generator
  bare_fill : ∀ (definition : δ) (generator : γ), bare (Definition.fill definition generator) = bare definition
  id_bare : ∀ definition : δ, Definition.id (bare definition) = Definition.id definition
  name_bare : ∀ definition : δ, Definition.name (bare definition) = Definition.name definition
  compile_bare : ∀ (extensions : Extensions) (definition : δ),
    Definition.compile extensions (bare definition) = Definition.compile extensions definition
  prepare_bare : ∀ definition : δ, Definition.prepare (bare definition) = bare (Definition.prepare definition)
  prepare_prepare : ∀ definition : δ, Definition.prepare (Definition.prepare definition) = Definition.prepare definition
  prepare_withId : ∀ (id : UInt32) (definition : δ),
    Definition.prepare (Definition.withId id definition) = Definition.withId id (Definition.prepare definition)
  prepare_fill : ∀ (definition : δ) (generator : γ),
    Definition.prepare (Definition.fill definition generator) = Definition.fill (Definition.prepare definition) generator
  round_trips : Json.RoundTrips (Definition.reader : Reader δ) Definition.toValue

attribute [simp] LawfulDefinition.id_withId LawfulDefinition.withId_withId LawfulDefinition.withId_id
  LawfulDefinition.name_withId LawfulDefinition.id_prepare LawfulDefinition.name_prepare LawfulDefinition.id_fill LawfulDefinition.name_fill
  LawfulDefinition.bare_fill LawfulDefinition.id_bare LawfulDefinition.name_bare LawfulDefinition.prepare_prepare

theorem Analyzer.resolve_resolve (name : String) : resolve (resolve name) = resolve name := by
  have qualified : ∀ name ∈ builtins, ¬ builtins.contains (qualify name) = true := by decide
  by_cases known : builtins.contains name = true
  · have resolved : resolve name = qualify name := if_pos known
    rw [resolved]
    exact if_neg (qualified name (List.contains_iff_mem.mp known))
  · have resolved : resolve name = name := if_neg known
    rw [resolved, resolved]

theorem IndexDefinition.resolve_analyzers_twice (definition : IndexDefinition) :
    definition.resolveAnalyzers.resolveAnalyzers = definition.resolveAnalyzers := by
  have analyzers : (definition.analyzers.mapValues Analyzer.resolve).mapValues Analyzer.resolve =
      definition.analyzers.mapValues Analyzer.resolve := by
    simp [SortedMap.mapValues, Function.comp_def, Analyzer.resolve_resolve]
  simp only [resolveAnalyzers, analyzers]

theorem IndexDefinition.resolve_analyzers_fill (definition : IndexDefinition) (generator : IndexGenerator) :
    (definition.fillFields generator).resolveAnalyzers = definition.resolveAnalyzers.fillFields generator := by
  by_cases unknown : definition.fields.isEmpty = true
  · have unknownThere : definition.resolveAnalyzers.fields.isEmpty = true := unknown
    rw [fillFields, fillFields, if_pos unknown, if_pos unknownThere]
    rfl
  · have knownThere : ¬ definition.resolveAnalyzers.fields.isEmpty = true := unknown
    rw [fillFields, fillFields, if_neg unknown, if_neg knownThere]

instance : LawfulDefinition IndexDefinition IndexGenerator where
  generatorId := IndexGenerator.id
  generatorFields := IndexGenerator.fields
  bare definition := { definition with fields := [] }
  id_withId _ _ := rfl
  withId_withId _ _ _ := rfl
  withId_id _ := rfl
  name_withId _ _ := rfl
  id_prepare _ := rfl
  name_prepare _ := rfl
  id_fill := IndexDefinition.fillFields_id
  name_fill := IndexDefinition.fillFields_name
  compiled_id compiled := (IndexDefinition.compile_ok_iff.mp compiled).2.2.2.2.1
  compiled_name compiled := (IndexDefinition.compile_ok_iff.mp compiled).2.2.2.2.2.1
  fill_fill := IndexDefinition.fillFields_twice
  bare_fill := IndexDefinition.fillFields_bare
  id_bare _ := rfl
  name_bare _ := rfl
  compile_bare _ _ := rfl
  prepare_bare _ := rfl
  prepare_prepare := IndexDefinition.resolve_analyzers_twice
  prepare_withId _ _ := rfl
  prepare_fill := IndexDefinition.resolve_analyzers_fill
  round_trips := IndexDefinition.round_trips

instance : LawfulDefinition TransformerDefinition TransformerGenerator where
  generatorId := TransformerGenerator.id
  generatorFields := TransformerGenerator.fields
  bare definition := definition
  id_withId _ _ := rfl
  withId_withId _ _ _ := rfl
  withId_id _ := rfl
  name_withId _ _ := rfl
  id_prepare _ := rfl
  name_prepare _ := rfl
  id_fill _ _ := rfl
  name_fill _ _ := rfl
  compiled_id compiled := (TransformerDefinition.compile_ok_iff.mp compiled).2.2.2.1
  compiled_name compiled := (TransformerDefinition.compile_ok_iff.mp compiled).2.2.2.2.1
  fill_fill _ _ := rfl
  bare_fill _ _ := rfl
  id_bare _ := rfl
  name_bare _ := rfl
  compile_bare _ _ := rfl
  prepare_bare _ := rfl
  prepare_prepare _ := rfl
  prepare_withId _ _ := rfl
  prepare_fill _ _ := rfl
  round_trips := TransformerDefinition.round_trips

-- Whether a definition is supplied by the program does not change when it is loaded.
class SuppliedDefinition (δ : Type) {γ : outParam Type} [Definition δ γ] : Prop where
  isCompiled_prepare : ∀ definition : δ,
    Definition.isCompiled (Definition.prepare definition) = Definition.isCompiled definition
  isCompiled_fill : ∀ (definition : δ) (generator : γ),
    Definition.isCompiled (Definition.fill definition generator) = Definition.isCompiled definition

instance : SuppliedDefinition IndexDefinition where
  isCompiled_prepare _ := rfl
  isCompiled_fill _ _ := by
    simp only [Definition.fill, IndexDefinition.fillFields]
    split <;> rfl

instance : SuppliedDefinition TransformerDefinition where
  isCompiled_prepare _ := rfl
  isCompiled_fill _ _ := rfl

end DocumentViews
