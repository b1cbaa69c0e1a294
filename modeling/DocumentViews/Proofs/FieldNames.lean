import DocumentViews.Proofs.Fields
import DocumentViews.Proofs.Query.QueryGrammar

set_option autoImplicit false

namespace DocumentViews

namespace Compile

theorem distinct_nodup (names : List String) : (distinct names).Nodup := by
  have onward : ∀ kept : List String, kept.Nodup →
      (names.foldl (fun kept name => if kept.contains name then kept else kept ++ [name]) kept).Nodup := by
    induction names with
    | nil => exact fun kept apart => apart
    | cons name names ih =>
        intro kept apart
        rw [List.foldl_cons]
        by_cases known : kept.contains name = true
        · rw [if_pos known]
          exact ih kept apart
        · rw [if_neg known]
          have new : name ∉ kept := fun member => known (List.contains_iff_mem.mpr member)
          refine ih _ ?_
          rw [← List.concat_eq_append]
          exact apart.concat new
  exact onward [] List.nodup_nil

theorem output_fields_nodup {isFunction : String → Bool} {text : String} {query : Query}
    (parsed : Query.parse isFunction text = .ok query) : (outputFields query).Nodup := by
  obtain ⟨_, _, _, fits⟩ := Query.parsed_derives parsed
  have selectFits := fits.select
  rw [outputFields, Query.outputFields?]
  cases selected : query.select with
  | object members =>
      rw [selected] at selectFits
      exact selectFits.1
  | _ => exact List.nodup_nil

def IdUnselected (maps : List Query) : Prop := ∀ map ∈ maps, documentIdField ∉ outputFields map

theorem distinct_id_iff (maps : List Query) :
    documentIdField ∉ distinct (maps.flatMap outputFields) ↔ IdUnselected maps := by
  rw [mem_distinct, List.mem_flatMap]
  exact ⟨fun absent map member selected => absent ⟨map, member, selected⟩,
    fun unselected ⟨map, member, selected⟩ => unselected map member selected⟩

theorem mapped_fields_nodup_iff (maps : List Query) : (mappedFields maps).Nodup ↔ IdUnselected maps := by
  rw [mappedFields, ← List.concat_eq_append, List.nodup_concat, ← distinct_id_iff]
  exact and_iff_left (distinct_nodup _)

theorem mapped_fields_count (maps : List Query) (name : String) :
    (mappedFields maps).count name ≤ if name = documentIdField then 2 else 1 := by
  have once := List.nodup_iff_count_le_one.mp (distinct_nodup (maps.flatMap outputFields)) name
  rw [mappedFields, List.count_append, List.count_singleton]
  by_cases isId : name = documentIdField
  · rw [if_pos isId]
    split <;> omega
  · rw [if_neg isId, if_neg (by simpa using Ne.symm isId)]
    exact once

end Compile

namespace IndexDefinition

variable {extensions : Extensions} {definition : IndexDefinition} {generator : IndexGenerator}

theorem compiled_reducer (compiled : definition.compile extensions = .ok generator) {query : Query}
    (isReducer : generator.reducer = some query) : ∃ text, Compile.IsReduce extensions generator.maps text query := by
  obtain ⟨_, _, reduced, _⟩ := compile_ok_iff.mp compiled
  rw [Compile.reducer_ok_iff, isReducer] at reduced
  generalize definition.reduceText? = text? at reduced
  cases reduced with
  | some isReduce => exact ⟨_, isReduce⟩

/-- The fields of a compiled index are distinct, and so are those that are filled into its
definition, exactly when it reduces or none of its maps selects the field for the id of a
document. That field is the only one that may be there more than once, and then it is there
twice. -/
theorem compiled_fields_distinct_iff (compiled : definition.compile extensions = .ok generator) :
    (generator.fields.Nodup ↔ generator.isMapReduce = true ∨ Compile.IdUnselected generator.maps) ∧
    (definition.fields = [] → (definition.fillFields generator).fields = generator.fields) ∧
    ∀ name, generator.fields.count name ≤ if name = documentIdField then 2 else 1 := by
  obtain ⟨_, _, _, _, _, _, fields⟩ := compile_ok_iff.mp compiled
  have filled : definition.fields = [] → (definition.fillFields generator).fields = generator.fields := by
    intro unknown
    rw [fillFields_fields, unknown]
    rfl
  rw [IndexGenerator.isMapReduce]
  cases isReducer : generator.reducer with
  | none =>
      rw [isReducer, Compile.fieldsOf] at fields
      rw [fields] at filled ⊢
      refine ⟨?_, filled, Compile.mapped_fields_count generator.maps⟩
      rw [Compile.mapped_fields_nodup_iff]
      simp
  | some query =>
      rw [isReducer, Compile.fieldsOf] at fields
      obtain ⟨text, isReduce⟩ := compiled_reducer compiled isReducer
      have apart := Compile.output_fields_nodup isReduce.parsed
      rw [fields] at filled ⊢
      refine ⟨⟨fun _ => .inl rfl, fun _ => apart⟩, filled, fun name => ?_⟩
      have once := List.nodup_iff_count_le_one.mp apart name
      split <;> omega

theorem compiled_fields_distinct_names :
    let definition := { ofSingleMap "Names" "" with maps := ["from d in docs.Users select new \x7b d.Name \x7d",
      "from d in docs let n = d.Id select new \x7b Code = n, d.Name \x7d"] }
    ∃ generator, definition.compile .builtins = .ok generator ∧ generator.fields.Nodup ∧
      (definition.fillFields generator).fields = generator.fields ∧ generator.fields.count "Name" ≤ 1 := by
  intro definition
  have accepted : (definition.compile .builtins).toOption.any (fun generator =>
      generator.maps.all fun map => !(Compile.outputFields map).contains documentIdField) = true := by decide +kernel
  obtain ⟨generator, compiled, holds⟩ := ok_with_exists accepted
  have unselected : Compile.IdUnselected generator.maps := by
    intro map member selected
    have other := List.all_eq_true.mp holds map member
    rw [List.contains_iff_mem.mpr selected] at other
    cases other
  obtain ⟨distinct_iff, filled, counts⟩ := compiled_fields_distinct_iff compiled
  exact ⟨generator, compiled, distinct_iff.mpr (.inr unselected), filled rfl, counts "Name"⟩

/-- A map may select the field for the id of a document under its own name. It is then among
the fields twice, and so it is in the definition that they are filled into. -/
theorem compiled_fields_repeat_id :
    let definition := ofSingleMap "A" "from d in docs select new \x7b __document_id = d.X \x7d"
    ∃ generator, definition.compile .builtins = .ok generator ∧
      generator.fields = ["__document_id", "__document_id"] ∧ ¬ generator.fields.Nodup ∧
      (definition.fillFields generator).fields = ["__document_id", "__document_id"] := by
  intro definition
  have accepted : (definition.compile .builtins).toOption.any (fun generator =>
      generator.fields == ["__document_id", "__document_id"]) = true := by decide +kernel
  obtain ⟨generator, compiled, holds⟩ := ok_with_exists accepted
  have fields := beq_iff_eq.mp holds
  refine ⟨generator, compiled, fields, ?_, ?_⟩
  · rw [fields]
    decide
  · rw [fillFields_fields, ← fields]
    rfl

end IndexDefinition
end DocumentViews
