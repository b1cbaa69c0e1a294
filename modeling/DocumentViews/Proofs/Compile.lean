import DocumentViews.Definition.Compile
import Mathlib.Data.List.Perm.Basic

set_option autoImplicit false

namespace DocumentViews

theorem bind_ok {ε α β : Type} {first : Except ε α} {next : α → Except ε β} {result : β}
    (succeeded : first >>= next = .ok result) : ∃ value, first = .ok value ∧ next value = .ok result := by
  cases first with
  | error error => cases succeeded
  | ok value => exact ⟨value, rfl, succeeded⟩

theorem bind_of_ok {ε α β : Type} {first : Except ε α} {value : α} (next : α → Except ε β) (found : first = .ok value) :
    first >>= next = next value := by
  rw [found]
  rfl

theorem is_ok_exists {ε α : Type} {result : Except ε α} (succeeded : result.isOk = true) :
    ∃ value, result = .ok value := by
  cases result with
  | error error => cases succeeded
  | ok value => exact ⟨value, rfl⟩

theorem ok_of_to_option {ε α : Type} {result : Except ε α} {value : α} (found : result.toOption = some value) :
    result = .ok value := by
  cases result with
  | error error => cases found
  | ok other => rw [Option.some.inj found]

theorem ok_with_exists {ε α : Type} {result : Except ε α} {holds : α → Bool}
    (succeeded : result.toOption.any holds = true) : ∃ value, result = .ok value ∧ holds value = true := by
  cases result with
  | error error => cases succeeded
  | ok value => exact ⟨value, rfl, succeeded⟩

theorem bind_error {ε α β : Type} {first : Except ε α} {next : α → Except ε β} {error : ε}
    (failed : first >>= next = .error error) :
    first = .error error ∨ ∃ value, first = .ok value ∧ next value = .error error := by
  cases first with
  | error other => exact .inl (congrArg Except.error (Except.error.inj failed))
  | ok value => exact .inr ⟨value, rfl, failed⟩

theorem map_ok {ε α β : Type} {result : Except ε α} {change : α → β} {value : β}
    (done : result.map change = .ok value) : ∃ given, result = .ok given ∧ change given = value := by
  cases result with
  | error error => cases done
  | ok given => exact ⟨given, rfl, Except.ok.inj done⟩

theorem map_error {ε α β : Type} {result : Except ε α} {change : α → β} {error : ε}
    (failed : result.map change = .error error) : result = .error error := by
  cases result with
  | error other => exact congrArg Except.error (Except.error.inj failed)
  | ok value => cases failed

namespace Compile

def reducer (extensions : Extensions) (maps : List Query) : Option String → Except CompileFault (Option Query)
  | none => .ok none
  | some text => (reduce extensions maps text).map some

def fieldsOf (maps : List Query) : Option Query → List String
  | some query => outputFields query
  | none => mappedFields maps

variable {extensions : Extensions} {text : String} {query : Query}

theorem read_query_ok_iff {part : QueryPart} :
    readQuery extensions part text = .ok query ↔ Query.parse extensions.isFunction text = .ok query := by
  simp only [readQuery]
  cases Query.parse extensions.isFunction text <;> simp

structure IsMap (extensions : Extensions) (text : String) (query : Query) : Prop where
  parsed : Query.parse extensions.isFunction text = .ok query
  fromDocuments : query.source ≠ .results
  selectsObject : query.outputFields?.isSome = true

theorem map_ok_iff {position : Nat} : map extensions position text = .ok query ↔ IsMap extensions text query := by
  constructor
  · intro compiled
    obtain ⟨found, parsed, checked⟩ := bind_ok compiled
    split at checked
    · cases checked
    next fromDocuments =>
      split at checked
      · cases checked
      next selectsObject =>
        cases checked
        exact ⟨read_query_ok_iff.mp parsed, fromDocuments, by simpa [Option.isSome_iff_ne_none] using selectsObject⟩
  · rintro ⟨parsed, fromDocuments, selectsObject⟩
    have noObject : ¬ query.outputFields?.isNone = true := by
      simpa [Option.isSome_iff_ne_none] using selectsObject
    simp only [map]
    rw [bind_of_ok _ (read_query_ok_iff.mpr parsed), if_neg fromDocuments, if_neg noObject]

theorem maps_ok_iff {position : Nat} {texts : List String} {queries : List Query} :
    maps extensions position texts = .ok queries ↔ List.Forall₂ (IsMap extensions) texts queries := by
  induction texts generalizing position queries with
  | nil =>
      rw [List.forall₂_nil_left_iff, maps]
      exact ⟨fun same => by cases same; rfl, fun same => by rw [same]⟩
  | cons text texts ih =>
      constructor
      · intro compiled
        obtain ⟨query, mapped, compiled⟩ := bind_ok compiled
        obtain ⟨others, othersMapped, compiled⟩ := bind_ok compiled
        cases compiled
        exact .cons (map_ok_iff.mp mapped) (ih.mp othersMapped)
      · intro pairs
        cases pairs with
        | cons mapped others =>
            simp only [maps]
            rw [bind_of_ok _ (map_ok_iff.mpr mapped), bind_of_ok _ (ih.mpr others)]

theorem check_fields_ok_iff {reduced : TextSet} {position : Nat} {queries : List Query} :
    checkFields reduced position queries = .ok () ↔
      ∀ query ∈ queries, SortedSet.ofList (outputFields query) = reduced := by
  induction queries generalizing position with
  | nil => simp [checkFields]
  | cons query queries ih =>
      simp only [checkFields]
      split
      next same => simp [ih, same]
      next different => simp [different]

structure IsReduce (extensions : Extensions) (maps : List Query) (text : String) (query : Query) : Prop where
  parsed : Query.parse extensions.isFunction text = .ok query
  fromResults : query.source = .results
  selectsObject : query.outputFields?.isSome = true
  sameFields : ∀ map ∈ maps, SortedSet.ofList (outputFields map) = SortedSet.ofList (outputFields query)

theorem reduce_ok_iff {maps : List Query} :
    reduce extensions maps text = .ok query ↔ IsReduce extensions maps text query := by
  constructor
  · intro compiled
    obtain ⟨found, parsed, checked⟩ := bind_ok compiled
    split at checked
    · cases checked
    next fromResults =>
      split at checked
      · cases checked
      next fields selected =>
        obtain ⟨_, same, checked⟩ := bind_ok checked
        cases checked
        refine ⟨read_query_ok_iff.mp parsed, by simpa using fromResults, by simp [selected], ?_⟩
        rw [outputFields, selected]
        exact check_fields_ok_iff.mp same
  · rintro ⟨parsed, fromResults, selectsObject, sameFields⟩
    obtain ⟨fields, selected⟩ := Option.isSome_iff_exists.mp selectsObject
    have checked : checkFields (SortedSet.ofList fields) 0 maps = .ok () := by
      apply check_fields_ok_iff.mpr
      simpa only [outputFields, selected, Option.getD_some] using sameFields
    simp only [reduce]
    rw [bind_of_ok _ (read_query_ok_iff.mpr parsed), if_neg (not_not_intro fromResults), selected]
    exact bind_of_ok _ checked

theorem IsReduce.perm {maps others : List Query} (reduced : IsReduce extensions maps text query)
    (same : maps.Perm others) : IsReduce extensions others text query :=
  { reduced with sameFields := fun map member => reduced.sameFields map (same.mem_iff.mpr member) }

theorem reducer_ok_iff {maps : List Query} {text? : Option String} {reducer? : Option Query} :
    reducer extensions maps text? = .ok reducer? ↔ Option.Rel (IsReduce extensions maps) text? reducer? := by
  cases text? with
  | none =>
      constructor
      · rintro ⟨⟩
        exact .none
      · rintro ⟨⟩
        rfl
  | some text =>
      constructor
      · intro reduced
        rw [reducer] at reduced
        cases found : reduce extensions maps text with
        | error fault =>
            rw [found] at reduced
            cases reduced
        | ok query =>
            rw [found] at reduced
            cases reduced
            exact .some (reduce_ok_iff.mp found)
      · intro reduced
        cases reduced with
        | some reduced =>
            rw [reducer, reduce_ok_iff.mpr reduced]
            rfl

theorem mem_distinct {names : List String} {name : String} : name ∈ distinct names ↔ name ∈ names := by
  have onward : ∀ kept : List String,
      name ∈ names.foldl (fun kept name => if kept.contains name then kept else kept ++ [name]) kept ↔
        name ∈ kept ∨ name ∈ names := by
    induction names with
    | nil => simp
    | cons first others ih =>
        intro kept
        rw [List.foldl_cons, ih]
        split
        next known =>
          have present : first ∈ kept := List.contains_iff_mem.mp known
          constructor
          · rintro (here | there)
            · exact .inl here
            · exact .inr (.tail _ there)
          · rintro (here | there)
            · exact .inl here
            · rcases List.mem_cons.mp there with rfl | there
              · exact .inl present
              · exact .inr there
        · simp [or_assoc]
  rw [distinct, onward]
  simp

theorem mem_mapped_fields {maps : List Query} {field : String} :
    field ∈ mappedFields maps ↔ (∃ map ∈ maps, field ∈ outputFields map) ∨ field = documentIdField := by
  simp [mappedFields, mem_distinct]

end Compile

namespace IndexDefinition

theorem generator_eq (extensions : Extensions) (definition : IndexDefinition) :
    definition.generator extensions =
      if definition.mapTexts.isEmpty then .error .noMap
      else Compile.maps extensions 0 definition.mapTexts >>= fun maps =>
        Compile.reducer extensions maps definition.reduceText? >>= fun reducer =>
          Compile.checkAnalyzers extensions definition.analyzers.entries >>= fun _ =>
            .ok ⟨definition.id, definition.name, maps, reducer, Compile.fieldsOf maps reducer⟩ := by
  simp only [IndexDefinition.generator]
  split
  · rfl
  · congr 1
    funext maps
    cases definition.reduceText? with
    | none => rfl
    | some text =>
        simp only [Compile.reducer]
        cases Compile.reduce extensions maps text <;> rfl

theorem compile_ok_iff {extensions : Extensions} {definition : IndexDefinition} {generator : IndexGenerator} :
    definition.compile extensions = .ok generator ↔
      definition.mapTexts ≠ [] ∧ Compile.maps extensions 0 definition.mapTexts = .ok generator.maps ∧
        Compile.reducer extensions generator.maps definition.reduceText? = .ok generator.reducer ∧
        Compile.checkAnalyzers extensions definition.analyzers.entries = .ok () ∧
        generator.id = definition.id ∧ generator.name = definition.name ∧
        generator.fields = Compile.fieldsOf generator.maps generator.reducer := by
  have unfolded : definition.compile extensions = .ok generator ↔ definition.generator extensions = .ok generator := by
    simp only [compile]
    cases definition.generator extensions <;> simp
  rw [unfolded, generator_eq]
  constructor
  · intro compiled
    split at compiled
    · cases compiled
    next present =>
      obtain ⟨maps, mapped, compiled⟩ := bind_ok compiled
      obtain ⟨reducer, reduced, compiled⟩ := bind_ok compiled
      obtain ⟨_, known, compiled⟩ := bind_ok compiled
      cases compiled
      exact ⟨by simpa using present, mapped, reduced, known, rfl, rfl, rfl⟩
  · rintro ⟨present, mapped, reduced, known, sameId, sameName, fields⟩
    rw [if_neg (by simpa using present), bind_of_ok _ mapped, bind_of_ok _ reduced, bind_of_ok _ known,
      ← sameId, ← sameName, ← fields]

theorem fillFields_id (definition : IndexDefinition) (generator : IndexGenerator) :
    (definition.fillFields generator).id = definition.id := by
  simp only [fillFields]
  split <;> rfl

theorem fillFields_name (definition : IndexDefinition) (generator : IndexGenerator) :
    (definition.fillFields generator).name = definition.name := by
  simp only [fillFields]
  split <;> rfl

theorem fillFields_bare (definition : IndexDefinition) (generator : IndexGenerator) :
    { definition.fillFields generator with fields := [] } = { definition with fields := [] } := by
  simp only [fillFields]
  split <;> rfl

theorem fillFields_twice (definition : IndexDefinition) (generator : IndexGenerator) :
    (definition.fillFields generator).fillFields generator = definition.fillFields generator := by
  by_cases unknown : definition.fields.isEmpty = true
  · have filled : definition.fillFields generator = { definition with fields := generator.fields } := if_pos unknown
    rw [filled, fillFields]
    split <;> rfl
  · have filled : definition.fillFields generator = definition := if_neg unknown
    rw [filled, filled]

end IndexDefinition

namespace TransformerDefinition

theorem compile_ok_iff {extensions : Extensions} {definition : TransformerDefinition}
    {generator : TransformerGenerator} :
    definition.compile extensions = .ok generator ↔
      Blank.isBlankText definition.transformResults = false ∧
        Compile.readQuery extensions .transformResults definition.transformResults = .ok generator.query ∧
        generator.query.source = .results ∧ generator.id = definition.id ∧ generator.name = definition.name ∧
        generator.fields = Compile.outputFields generator.query := by
  have unfolded : definition.compile extensions = .ok generator ↔ definition.generator extensions = .ok generator := by
    simp only [compile]
    cases definition.generator extensions <;> simp
  rw [unfolded]
  simp only [TransformerDefinition.generator]
  constructor
  · intro compiled
    split at compiled
    · cases compiled
    next written =>
      obtain ⟨query, found, compiled⟩ := bind_ok compiled
      split at compiled
      · cases compiled
      next fromResults =>
        cases compiled
        exact ⟨by simpa using written, found, by simpa using fromResults, rfl, rfl, rfl⟩
  · rintro ⟨written, found, fromResults, sameId, sameName, fields⟩
    rw [if_neg (by simp [written]), bind_of_ok _ found, if_neg (by simp [fromResults]), ← sameId, ← sameName, ← fields]

end TransformerDefinition
end DocumentViews
