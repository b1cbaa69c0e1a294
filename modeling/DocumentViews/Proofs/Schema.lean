import DocumentViews.Proofs.Compile
import DocumentViews.Proofs.Pairs
import DocumentViews.Proofs.SortedMap

set_option autoImplicit false

namespace DocumentViews

def Value.Keyed (names : List String) (value : Value) : Prop :=
  ∃ members : TextMap Value, value = .object members.entries ∧ ∀ name, name ∈ members.keys ↔ name ∈ names

variable {extensions : Extensions} {names : List String} {query : Query}

theorem Value.Keyed.congr {others : List String} {value : Value} (keyed : value.Keyed names)
    (same : ∀ name, name ∈ names ↔ name ∈ others) : value.Keyed others := by
  obtain ⟨members, isObject, keys⟩ := keyed
  exact ⟨members, isObject, fun name => (keys name).trans (same name)⟩

theorem of_members_keyed (members : List (String × Value)) : (Value.ofMembers members).Keyed (members.map Prod.fst) := by
  have entries : (SortedMap.ofList members).entries =
      members.foldl (fun sorted member => SortedMap.insertEntry member.1 member.2 sorted) [] :=
    (List.foldl_hom SortedMap.entries fun _ _ => rfl).symm
  exact ⟨SortedMap.ofList members, by rw [entries, Value.ofMembers], fun name => SortedMap.mem_keys_ofList⟩

theorem eval_members_names (scope : Scope) (members : List (String × Expr)) :
    (Expr.evalMembers extensions scope members).map Prod.fst = members.map Prod.fst := by
  induction members with
  | nil => rfl
  | cons member rest ih =>
      obtain ⟨name, expr⟩ := member
      rw [Expr.evalMembers, List.map_cons, ih, List.map_cons]

theorem eval_keyed {expr : Expr} (selects : expr.memberNames? = some names) (scope : Scope) :
    (expr.eval extensions scope).Keyed names := by
  cases expr with
  | object members =>
      cases selects
      rw [Expr.eval, ← eval_members_names scope members]
      exact of_members_keyed _
  | _ => cases selects

-- Whatever the clauses make of the input, and whether or not rows are grouped, each output
-- is a value of the selection.
theorem run_keyed (selects : query.outputFields? = some names) {input : List Value} {output : Value}
    (yields : output ∈ query.run extensions input) : output.Keyed names := by
  rw [Query.run] at yields
  cases grouped : query.group with
  | none =>
      rw [grouped] at yields
      obtain ⟨row, _, rfl⟩ := List.mem_map.mp yields
      exact eval_keyed selects row.scope
  | some group =>
      rw [grouped] at yields
      obtain ⟨grouping, _, rfl⟩ := List.mem_map.mp yields
      exact eval_keyed selects _

theorem lookup_insert_entry (key : String) (value : Value) (entries : List (String × Value)) :
    (SortedMap.insertEntry key value entries).lookup key = some value := by
  induction entries with
  | nil => simp [SortedMap.insertEntry]
  | cons entry rest ih =>
      obtain ⟨other, old⟩ := entry
      simp only [SortedMap.insertEntry]
      split
      · simp
      · split
        · simp
        next different => rw [List.lookup_cons, beq_false_of_ne different, ih]

theorem tag_output_keyed {output : Value} (keyed : output.Keyed names) (id : String) :
    (tagOutput id output).Keyed (documentIdField :: names) ∧
      (tagOutput id output).member documentIdField = .string id := by
  obtain ⟨members, rfl, keys⟩ := keyed
  refine ⟨⟨members.insert documentIdField (.string id), rfl, fun name => ?_⟩, ?_⟩
  · rw [SortedMap.mem_keys_insert, keys, List.mem_cons]
  · rw [tagOutput, Value.member, lookup_insert_entry]
    rfl

namespace IndexGenerator

variable {generator : IndexGenerator}

theorem mem_map {documents : List Document} {output : Value} (yields : output ∈ generator.map extensions documents) :
    ∃ query ∈ generator.maps, ∃ document ∈ documents, document.belongsTo query.source = true ∧
      output ∈ generator.mapOne extensions query document := by
  obtain ⟨query, mapped, yields⟩ := List.mem_flatMap.mp yields
  obtain ⟨document, kept, yields⟩ := List.mem_flatMap.mp yields
  obtain ⟨given, belongs⟩ := List.mem_filter.mp kept
  exact ⟨query, mapped, document, given, belongs, yields⟩

theorem mapped_keyed (reduces : generator.isMapReduce = true) (selects : query.outputFields? = some names)
    {document : Document} {output : Value} (yields : output ∈ generator.mapOne extensions query document) :
    output.Keyed names := by
  simp only [mapOne, reduces, if_true] at yields
  exact run_keyed selects yields

theorem mapped_tagged (plain : generator.isMapReduce = false) (selects : query.outputFields? = some names)
    {document : Document} {output : Value} (yields : output ∈ generator.mapOne extensions query document) :
    output.Keyed (documentIdField :: names) ∧ output.member documentIdField = .string document.id := by
  simp only [mapOne, plain, Bool.false_eq_true, if_false] at yields
  obtain ⟨raw, produced, rfl⟩ := List.mem_map.mp yields
  exact tag_output_keyed (run_keyed selects produced) document.id

end IndexGenerator

namespace Compile

theorem output_fields_eq (selects : query.outputFields? = some names) : outputFields query = names := by
  rw [outputFields, selects, Option.getD_some]

theorem mem_of_same_fields {left right : List String} (same : SortedSet.ofList left = SortedSet.ofList right)
    (name : String) : name ∈ left ↔ name ∈ right := by
  have keys : ∀ list : List String, name ∈ (SortedSet.ofList list).keys ↔ name ∈ list := by
    intro list
    rw [SortedSet.ofList, SortedMap.mem_keys_ofList, List.map_map]
    exact iff_of_eq (congrArg (name ∈ ·) (List.map_id list))
  rw [← keys left, same, keys right]

end Compile

namespace IndexDefinition

variable {definition : IndexDefinition} {generator : IndexGenerator}

theorem compiled_map (compiled : definition.compile extensions = .ok generator) (mapped : query ∈ generator.maps) :
    ∃ text, Compile.IsMap extensions text query := by
  obtain ⟨_, maps, _⟩ := compile_ok_iff.mp compiled
  obtain ⟨text, _, isMap⟩ := pair_of_right (Compile.maps_ok_iff.mp maps) mapped
  exact ⟨text, isMap⟩

/-- A compiled index yields what its fields say. Where nothing is reduced, an output of its maps is an
object with the members that one of the maps selects and the id of the document that this map was given,
all of them fields of the index. Where something is reduced, the outputs of the maps and of the reduce are
objects with just the fields of the index. -/
theorem compiled_outputs_keyed (compiled : definition.compile extensions = .ok generator) :
    (generator.reducer = none → ∀ documents, ∀ output ∈ generator.map extensions documents,
      ∃ query ∈ generator.maps, ∃ document ∈ documents, ∃ names, document.belongsTo query.source = true ∧
        output ∈ generator.mapOne extensions query document ∧ query.outputFields? = some names ∧
        output.Keyed (documentIdField :: names) ∧ (∀ name ∈ documentIdField :: names, name ∈ generator.fields) ∧
        output.member documentIdField = .string document.id) ∧
    (generator.reducer ≠ none →
      (∀ documents, ∀ output ∈ generator.map extensions documents, output.Keyed generator.fields) ∧
        ∀ results, ∀ output ∈ generator.reduce extensions results, output.Keyed generator.fields) := by
  obtain ⟨_, _, reduced, _, _, _, fields⟩ := compile_ok_iff.mp compiled
  constructor
  · intro plain documents output yields
    obtain ⟨query, mapped, document, given, belongs, yields⟩ := IndexGenerator.mem_map yields
    obtain ⟨text, isMap⟩ := compiled_map compiled mapped
    obtain ⟨names, selects⟩ := Option.isSome_iff_exists.mp isMap.selectsObject
    obtain ⟨keyed, tagged⟩ := IndexGenerator.mapped_tagged (by rw [IndexGenerator.isMapReduce, plain]; rfl) selects yields
    refine ⟨query, mapped, document, given, names, belongs, yields, selects, keyed, fun name listed => ?_, tagged⟩
    rw [fields, plain, Compile.fieldsOf, Compile.mem_mapped_fields]
    rcases List.mem_cons.mp listed with isId | selected
    · exact .inr isId
    · exact .inl ⟨query, mapped, Compile.output_fields_eq selects ▸ selected⟩
  · intro reduces
    obtain ⟨reducer, isReducer⟩ := Option.ne_none_iff_exists'.mp reduces
    rw [isReducer, Compile.reducer_ok_iff] at reduced
    generalize definition.reduceText? = text? at reduced
    cases reduced with
    | some isReduce =>
        obtain ⟨names, selects⟩ := Option.isSome_iff_exists.mp isReduce.selectsObject
        rw [isReducer, Compile.fieldsOf, Compile.output_fields_eq selects] at fields
        rw [fields]
        constructor
        · intro documents output yields
          obtain ⟨query, mapped, document, _, _, yields⟩ := IndexGenerator.mem_map yields
          obtain ⟨text, isMap⟩ := compiled_map compiled mapped
          obtain ⟨mapNames, mapSelects⟩ := Option.isSome_iff_exists.mp isMap.selectsObject
          have sameFields := isReduce.sameFields query mapped
          rw [Compile.output_fields_eq mapSelects, Compile.output_fields_eq selects] at sameFields
          have keyed := IndexGenerator.mapped_keyed (by rw [IndexGenerator.isMapReduce, isReducer]; rfl) mapSelects yields
          exact keyed.congr (Compile.mem_of_same_fields sameFields)
        · intro results output yields
          rw [IndexGenerator.reduce, isReducer] at yields
          exact run_keyed selects yields

theorem compiled_outputs_keyed_both :
    let plain := { IndexDefinition.ofSingleMap "Names" "" with
      maps := ["from d in docs.Users select new \x7b d.Name \x7d", "from d in docs let n = d.Id select new \x7b Code = n, d.Name \x7d"] }
    let reducing := { IndexDefinition.ofSingleMap "Counts" "from d in docs.Users select new \x7b d.Name, N = 1 \x7d" with
      reduce := some "from r in results group r by r.Name into g select new \x7b N = g.Sum(x => x.N), Name = g.Key \x7d" }
    let ada : Document := ⟨"users/1", some "Users", .object [("Name", .string "Ada")]⟩
    (∃ generator, plain.compile .builtins = .ok generator ∧ (generator.map .builtins [ada]).length = 2 ∧
      ∀ output ∈ generator.map .builtins [ada], output.member documentIdField = .string "users/1") ∧
    ∃ generator, reducing.compile .builtins = .ok generator ∧ generator.fields = ["N", "Name"] ∧
      (generator.map .builtins [ada]).length = 1 ∧ (generator.reduce .builtins (generator.map .builtins [ada])).length = 1 ∧
      (∀ output ∈ generator.map .builtins [ada], output.Keyed ["N", "Name"]) ∧
      ∀ output ∈ generator.reduce .builtins (generator.map .builtins [ada]), output.Keyed ["N", "Name"] := by
  intro plain reducing ada
  have accepted : (plain.compile .builtins).toOption.any (fun generator =>
      generator.reducer.isNone && (generator.map .builtins [ada]).length == 2) = true := by decide +kernel
  have alsoAccepted : (reducing.compile .builtins).toOption.any (fun generator =>
      generator.reducer.isSome && (generator.fields == ["N", "Name"] && ((generator.map .builtins [ada]).length == 1 &&
        (generator.reduce .builtins (generator.map .builtins [ada])).length == 1))) = true := by decide +kernel
  obtain ⟨mapper, compiled, holds⟩ := ok_with_exists accepted
  obtain ⟨reducer, alsoCompiled, alsoHolds⟩ := ok_with_exists alsoAccepted
  obtain ⟨noReduce, size⟩ := Bool.and_eq_true_iff.mp holds
  obtain ⟨reduces, fields, sizes⟩ := (Bool.and_eq_true_iff.trans (and_congr_right' Bool.and_eq_true_iff)).mp alsoHolds
  obtain ⟨mappedOne, reducedOne⟩ := Bool.and_eq_true_iff.mp sizes
  refine ⟨⟨mapper, compiled, beq_iff_eq.mp size, fun output yields => ?_⟩, reducer, alsoCompiled, beq_iff_eq.mp fields,
    beq_iff_eq.mp mappedOne, beq_iff_eq.mp reducedOne, ?_⟩
  · obtain ⟨_, _, document, given, _, _, _, _, _, _, tagged⟩ :=
      (compiled_outputs_keyed compiled).1 (Option.isNone_iff_eq_none.mp noReduce) [ada] output yields
    rw [tagged, List.mem_singleton.mp given]
  · obtain ⟨mapped, reduced⟩ := (compiled_outputs_keyed alsoCompiled).2 (Option.isSome_iff_ne_none.mp reduces)
    rw [← beq_iff_eq.mp fields]
    exact ⟨mapped [ada], reduced _⟩

end IndexDefinition
end DocumentViews
