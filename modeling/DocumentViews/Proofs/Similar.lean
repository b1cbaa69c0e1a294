import DocumentViews.Proofs.Comparison
import DocumentViews.Proofs.Definition
import DocumentViews.Proofs.Query.Hollow
import DocumentViews.Shelf.Change

set_option autoImplicit false

namespace DocumentViews

namespace IndexDefinition

-- A text of the definition counts as a query although it consists of comments.
def hasHollow (definition : IndexDefinition) : Bool :=
  (definition.maps ++ definition.reduce.toList).any isHollow

structure Similar (source stored : IndexDefinition) : Prop where
  id : source.id = stored.id
  name : foldName source.name = foldName stored.name
  maps : Matched TextsAlike source.maps stored.maps
  reduce : Option.Rel TextsAlike source.reduce stored.reduce
  analyzers : source.analyzers = stored.analyzers

variable {source stored : IndexDefinition} {extensions : Extensions} {generator : IndexGenerator}

theorem similar_of_equivalent {comparison : Comparison} (same : source.equivalent comparison stored = true) :
    source.Similar stored := by
  have equivalent := equivalent_iff.mp same
  refine ⟨equivalent.id, equivalent.name, matched_mono (fun _ _ => Comparison.alike_of_same) equivalent.maps, ?_,
    congrArg (fun options => options.2.2.2.1) equivalent.options⟩
  have reduces := equivalent.reduce
  generalize source.reduce = one, stored.reduce = other at reduces ⊢
  cases reduces with
  | none => exact .none
  | some first => exact .some (Comparison.alike_of_same first)

theorem similar_refl (definition : IndexDefinition) : definition.Similar definition where
  id := rfl
  name := rfl
  maps := (matched_equivalence texts_alike_equivalence).refl definition.maps
  reduce := (rel_equivalence texts_alike_equivalence).refl definition.reduce
  analyzers := rfl

theorem similar_trans {third : IndexDefinition} (first : source.Similar stored) (second : stored.Similar third) :
    source.Similar third where
  id := first.id.trans second.id
  name := first.name.trans second.name
  maps := (matched_equivalence texts_alike_equivalence).trans first.maps second.maps
  reduce := (rel_equivalence texts_alike_equivalence).trans first.reduce second.reduce
  analyzers := first.analyzers.trans second.analyzers

theorem map_of_alike {one other : String} {query : Query} (alike : TextsAlike one other)
    (mapped : Compile.IsMap extensions one query) : Compile.IsMap extensions other query :=
  { mapped with parsed := Query.parse_alike alike mapped.parsed }

theorem maps_of_alike {left right : List String} {queries : List Query} (alike : List.Forall₂ TextsAlike left right)
    (noHollow : ∀ text ∈ right, isHollow text = false)
    (mapped : List.Forall₂ (Compile.IsMap extensions) (left.filter fun text => !Blank.isBlankText text) queries) :
    List.Forall₂ (Compile.IsMap extensions) (right.filter fun text => !Blank.isBlankText text) queries := by
  induction alike generalizing queries with
  | nil => exact mapped
  | @cons one other ones others first _ ih =>
      have othersNotHollow : ∀ text ∈ others, isHollow text = false := fun text member =>
        noHollow text (.tail _ member)
      by_cases blank : Blank.isBlankText one = true
      · have otherBlank := blank_of_alike first (noHollow other (.head _)) blank
        rw [List.filter_cons_of_neg (by simp [blank])] at mapped
        rw [List.filter_cons_of_neg (by simp [otherBlank])]
        exact ih othersNotHollow mapped
      · rw [List.filter_cons_of_pos (by simp [blank])] at mapped
        cases mapped with
        | cons head tail =>
            have otherHead := map_of_alike first head
            rw [List.filter_cons_of_pos (by simp [parsed_not_blank otherHead.parsed])]
            exact .cons otherHead (ih othersNotHollow tail)

theorem reducer_of_alike {left right : Option String} {maps others : List Query} {reducer : Option Query}
    (alike : Option.Rel TextsAlike left right) (noHollow : ∀ text ∈ right, isHollow text = false)
    (sameMaps : maps.Perm others)
    (reduced : Option.Rel (Compile.IsReduce extensions maps) (left.filter fun text => !Blank.isBlankText text) reducer) :
    Option.Rel (Compile.IsReduce extensions others) (right.filter fun text => !Blank.isBlankText text) reducer := by
  cases alike with
  | none =>
      cases reduced
      exact .none
  | @some one other alike =>
      by_cases blank : Blank.isBlankText one = true
      · have otherBlank := blank_of_alike alike (noHollow other rfl) blank
        rw [Option.filter_some_neg (by simp [blank])] at reduced
        rw [Option.filter_some_neg (by simp [otherBlank])]
        cases reduced
        exact .none
      · rw [Option.filter_some_pos (by simp [blank])] at reduced
        cases reduced with
        | some reduced =>
            have parsed := Query.parse_alike alike reduced.parsed
            rw [Option.filter_some_pos (by simp [parsed_not_blank parsed])]
            exact .some { reduced.perm sameMaps with parsed }

theorem compiled_not_hollow (compiled : stored.compile extensions = .ok generator) : stored.hasHollow = false := by
  obtain ⟨_, mapped, reduced, _⟩ := compile_ok_iff.mp compiled
  apply List.any_eq_false.mpr
  intro text member hollow
  have written : Blank.isBlankText text = false := (hollow_iff.mp hollow).1
  rcases List.mem_append.mp member with inMaps | inReduce
  · have counted : text ∈ stored.mapTexts := List.mem_filter.mpr ⟨inMaps, by simp [written]⟩
    obtain ⟨query, _, isMap⟩ := pair_of_left (Compile.maps_ok_iff.mp mapped) counted
    exact Bool.eq_false_iff.mp (parsed_not_hollow isMap.parsed) hollow
  · have counted : stored.reduceText? = some text := by
      rw [reduceText?, Option.mem_toList.mp inReduce, Option.filter_some_pos (by simp [written])]
    rw [counted] at reduced
    generalize generator.reducer = reducer at reduced
    cases Compile.reducer_ok_iff.mp reduced with
    | some isReduce => exact Bool.eq_false_iff.mp (parsed_not_hollow isReduce.parsed) hollow

end IndexDefinition

namespace IndexGenerator

structure Agrees (one other : IndexGenerator) : Prop where
  maps : one.maps.Perm other.maps
  reducer : one.reducer = other.reducer
  fields : ∀ field, field ∈ one.fields ↔ field ∈ other.fields
  isMapReduce : one.isMapReduce = other.isMapReduce

end IndexGenerator

namespace IndexDefinition

variable {source stored : IndexDefinition} {extensions : Extensions} {generator : IndexGenerator}

theorem fields_of_perm {maps others : List Query} (same : maps.Perm others) (reducer : Option Query) (field : String) :
    field ∈ Compile.fieldsOf maps reducer ↔ field ∈ Compile.fieldsOf others reducer := by
  cases reducer with
  | some query => exact Iff.rfl
  | none =>
      rw [Compile.fieldsOf, Compile.fieldsOf, Compile.mem_mapped_fields, Compile.mem_mapped_fields]
      simp only [same.mem_iff]

theorem similar_compiles_iff (compiled : source.compile extensions = .ok generator) (similar : source.Similar stored) :
    (∃ fresh, stored.compile extensions = .ok fresh ∧ fresh.Agrees generator) ↔ stored.hasHollow = false := by
  constructor
  · rintro ⟨fresh, compiledAgain, _⟩
    exact compiled_not_hollow compiledAgain
  · intro noHollow
    obtain ⟨present, mapped, reduced, known, _, _, fields⟩ := compile_ok_iff.mp compiled
    obtain ⟨matched, alike, permuted⟩ := similar.maps
    have texts : ∀ text ∈ stored.maps ++ stored.reduce.toList, isHollow text = false := fun text member =>
      Bool.eq_false_iff.mpr (List.any_eq_false.mp noHollow text member)
    -- The source's maps are matched with stored ones that are only in another order; each pair
    -- parses to one query, so the compiled maps are permuted as the texts are.
    have mapsAgain := maps_of_alike alike
      (fun text member => texts text (List.mem_append_left _ (permuted.mem_iff.mp member))) (Compile.maps_ok_iff.mp mapped)
    obtain ⟨queries, freshMaps, sameMaps⟩ := List.perm_comp_forall₂ (permuted.symm.filter _) mapsAgain
    have freshReducer := reducer_of_alike similar.reduce
      (fun text member => texts text (List.mem_append_right _ (Option.mem_toList.mpr member))) sameMaps.symm
      (Compile.reducer_ok_iff.mp reduced)
    refine ⟨⟨stored.id, stored.name, queries, generator.reducer, Compile.fieldsOf queries generator.reducer⟩,
      compile_ok_iff.mpr ⟨?_, Compile.maps_ok_iff.mpr freshMaps, Compile.reducer_ok_iff.mpr freshReducer,
        similar.analyzers ▸ known, rfl, rfl, rfl⟩, sameMaps, rfl, ?_, rfl⟩
    · intro noTexts
      -- There are as many texts as queries on either side, so the stored definition has a map too.
      have sizes := (Compile.maps_ok_iff.mp mapped).length_eq.trans (sameMaps.length_eq.symm.trans freshMaps.length_eq.symm)
      change source.mapTexts.length = stored.mapTexts.length at sizes
      rw [noTexts] at sizes
      exact present (List.eq_nil_of_length_eq_zero sizes)
    · intro field
      rw [fields]
      exact fields_of_perm sameMaps generator.reducer field

end IndexDefinition

namespace Change

theorem between_kept {δ γ : Type} [Definition δ γ] {current candidate : δ}
    (kept : between current candidate = .noop ∨ between current candidate = .updateWithoutRecompile) :
    (between current candidate = .noop ∧ Definition.equivalent .exact current candidate = true) ∨
      (between current candidate = .updateWithoutRecompile ∧ Definition.equivalent .relaxed current candidate = true) := by
  simp only [between] at kept ⊢
  split
  next isTest =>
    rw [if_pos isTest] at kept
    rcases kept with kept | kept <;> cases kept
  next notTest =>
    rw [if_neg notTest] at kept
    split
    next same => exact .inl ⟨rfl, same⟩
    next different =>
      rw [if_neg different] at kept
      split
      next same => exact .inr ⟨rfl, same⟩
      next unlike =>
        rw [if_neg unlike] at kept
        rcases kept with kept | kept <;> cases kept

theorem kept_cases {δ γ : Type} [Definition δ γ] {current candidate adopted : δ} {change : Change}
    (classified : classify (some current) candidate = (change, adopted))
    (kept : change = .noop ∨ change = .updateWithoutRecompile) :
    (change = .noop ∧ Definition.equivalent .exact current adopted = true) ∨
      (change = .updateWithoutRecompile ∧ Definition.equivalent .relaxed current adopted = true) := by
  injection classified with decided sameAdopted
  subst decided sameAdopted
  exact between_kept kept

variable {extensions : Extensions} {current candidate adopted : IndexDefinition} {change : Change}

/-- The generator that an update keeps is the one that its definition compiles to, unless a comment has taken the place
of a blank text. -/
theorem kept_generator_agrees_iff {generator : IndexGenerator} (compiled : current.compile extensions = .ok generator)
    (classified : classify (some current) candidate = (change, adopted))
    (kept : change = .noop ∨ change = .updateWithoutRecompile) :
    (∃ fresh, adopted.compile extensions = .ok fresh ∧ fresh.Agrees generator) ↔ adopted.hasHollow = false := by
  have similar : current.Similar adopted := by
    rcases kept_cases classified kept with ⟨_, same⟩ | ⟨_, same⟩ <;> exact IndexDefinition.similar_of_equivalent same
  exact IndexDefinition.similar_compiles_iff compiled similar

theorem kept_generator_agrees_reordered :
    let current := { IndexDefinition.ofSingleMap "A" "" with
      maps := ["from d in docs select new \x7b d.X \x7d", " ", "from d in docs select new \x7b Y = d.Z \x7d"] }
    let stored := { current with
      maps := ["from d in docs select new \x7bY=d.Z\x7d // Y", "\t", "from d in docs select new \x7b d.X \x7d"] }
    ∃ generator, current.compile .builtins = .ok generator ∧
      classify (some current) stored = (.updateWithoutRecompile, stored) ∧
      ∃ fresh, stored.compile .builtins = .ok fresh ∧ fresh.Agrees generator := by
  intro current stored
  obtain ⟨generator, compiled⟩ := is_ok_exists (by decide +kernel : (current.compile .builtins).isOk = true)
  have classified : classify (some current) stored = (.updateWithoutRecompile, stored) := by decide +kernel
  have noHollow : stored.hasHollow = false := by decide +kernel
  exact ⟨generator, compiled, classified, (kept_generator_agrees_iff compiled classified (.inr rfl)).mpr noHollow⟩

theorem kept_generator_lost :
    let current := { IndexDefinition.ofSingleMap "A" "" with maps := ["from d in docs select new \x7b d.X \x7d", " "] }
    let candidate := { current with maps := ["from d in docs select new \x7b d.X \x7d", "// none"] }
    (∃ generator, current.compile .builtins = .ok generator) ∧
      classify (some current) candidate = (.updateWithoutRecompile, candidate) ∧
      ∀ fresh, candidate.compile .builtins ≠ .ok fresh := by
  intro current candidate
  have fails : (candidate.compile .builtins).isOk = false := by decide +kernel
  refine ⟨is_ok_exists (by decide +kernel), by decide +kernel, fun fresh compiled => ?_⟩
  rw [compiled] at fails
  cases fails

end Change
end DocumentViews
