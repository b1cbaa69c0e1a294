import DocumentViews.Definition.Index
import DocumentViews.Definition.Transformer
import DocumentViews.Proofs.Pairs
import DocumentViews.Proofs.Query.SameTokens

set_option autoImplicit false

namespace DocumentViews

theorem texts_alike_equivalence : Equivalence TextsAlike where
  refl _ := .inl rfl
  symm := by
    rintro one other (rfl | ⟨left, right, tokens, otherTokens, alike⟩)
    · exact .inl rfl
    · exact .inr ⟨right, left, otherTokens, tokens, Grammar.tokens_alike_iff.mpr (Grammar.tokens_alike_iff.mp alike).symm⟩
  trans := texts_alike_trans

theorem rel_equivalence {α : Type} {related : α → α → Prop} (equivalence : Equivalence related) :
    Equivalence (Option.Rel related) where
  refl
    | none => .none
    | some item => .some (equivalence.refl item)
  symm
    | .none => .none
    | .some first => .some (equivalence.symm first)
  trans
    | .none, .none => .none
    | .some first, .some second => .some (equivalence.trans first second)

namespace Comparison

variable {comparison : Comparison} {one other : String} {left right : List String}

def Same (comparison : Comparison) (one other : String) : Prop := comparison.sameText one other = true

theorem same_iff : comparison.Same one other ↔
    one = other ∨ comparison.ignoreFormatting = true ∧ TextsAlike one other := by
  simp only [Same, sameText, Bool.or_eq_true, beq_iff_eq, Bool.and_eq_true, same_tokens_iff]

theorem alike_of_same (same : comparison.Same one other) : TextsAlike one other := by
  rcases same_iff.mp same with rfl | ⟨_, alike⟩
  · exact .inl rfl
  · exact alike

theorem relaxed_of_exact (same : exact.Same one other) : relaxed.Same one other := by
  rcases same_iff.mp same with rfl | ⟨ignores, _⟩
  · exact same_iff.mpr (.inl rfl)
  · cases ignores

theorem same_equivalence (comparison : Comparison) : Equivalence comparison.Same where
  refl _ := same_iff.mpr (.inl rfl)
  symm same := same_iff.mpr ((same_iff.mp same).imp Eq.symm (And.imp_right texts_alike_equivalence.symm))
  trans := by
    intro one middle other first second
    rcases same_iff.mp first with rfl | ⟨ignores, alike⟩
    · exact second
    · exact same_iff.mpr (.inr ⟨ignores, texts_alike_trans alike (alike_of_same second)⟩)

theorem swap_remove_perm {place : Nat} (inside : place < left.length) :
    left.Perm (left[place] :: swapRemove place left) := by
  have present : left ≠ [] := List.ne_nil_of_length_pos (Nat.zero_lt_of_lt inside)
  have stillPresent : left.set place (left.getLast present) ≠ [] := by simpa using present
  have endsAlike : (left.set place (left.getLast present)).getLast stillPresent = left.getLast present := by
    simp only [List.getLast_eq_getElem, List.length_set, List.getElem_set]
    split <;> rfl
  have taken : swapRemove place left = (left.set place (left.getLast present)).dropLast := by
    rw [swapRemove, List.getLast?_eq_some_getLast present]
  have whole := List.dropLast_concat_getLast stillPresent
  rw [endsAlike, ← taken] at whole
  have rest : (swapRemove place left).Perm (left.eraseIdx place) := by
    apply List.Perm.cons_inv
    exact (List.perm_append_singleton _ _).symm.trans (whole ▸ List.set_perm_cons_eraseIdx inside _)
  exact (List.getElem_cons_eraseIdx_perm inside).symm.trans (rest.symm.cons _)

theorem finds_each_iff (sameLength : left.length = right.length) :
    comparison.findsEach left right = true ↔ Matched comparison.Same left right := by
  induction left generalizing right with
  | nil =>
      cases List.eq_nil_of_length_eq_zero sameLength.symm
      exact ⟨fun _ => ⟨[], .nil, .nil⟩, fun _ => rfl⟩
  | cons text texts ih =>
      rw [findsEach]
      split
      next place found =>
        obtain ⟨inside, same, _⟩ := List.findIdx?_eq_some_iff_getElem.mp found
        have swapped := swap_remove_perm inside
        have shorter : texts.length = (swapRemove place right).length :=
          Nat.succ.inj (sameLength.trans swapped.length_eq)
        rw [ih shorter]
        constructor
        · rintro ⟨matched, pairs, permuted⟩
          exact ⟨right[place] :: matched, .cons same pairs, (permuted.cons _).trans swapped.symm⟩
        · rintro ⟨matched, pairs, permuted⟩
          exact matched_behind comparison.same_equivalence same ⟨matched, pairs, permuted.trans swapped⟩
      next none =>
        refine ⟨fun impossible => (nomatch impossible), ?_⟩
        rintro ⟨_, pairs, permuted⟩
        cases pairs with
        | cons same _ =>
            have differs := List.findIdx?_eq_none_iff.mp none _ (permuted.subset List.mem_cons_self)
            exact absurd same (Bool.eq_false_iff.mp differs)

theorem same_texts_iff : comparison.sameTexts left right = true ↔ Matched comparison.Same left right := by
  rw [sameTexts, Bool.and_eq_true, beq_iff_eq]
  constructor
  · rintro ⟨sameLength, finds⟩
    exact (finds_each_iff sameLength).mp finds
  · intro matched
    obtain ⟨reordered, pairs, permuted⟩ := matched
    have sameLength := pairs.length_eq.trans permuted.length_eq
    exact ⟨sameLength, (finds_each_iff sameLength).mpr ⟨reordered, pairs, permuted⟩⟩

theorem rel_same_iff {reduce other : Option String} :
    (match reduce, other with
      | none, none => true
      | some one, some other => comparison.sameText one other
      | _, _ => false) = true ↔ Option.Rel comparison.Same reduce other := by
  cases reduce <;> cases other <;> simp [Same]

end Comparison

namespace IndexDefinition

variable {comparison : Comparison} {left right : IndexDefinition}

def options (definition : IndexDefinition) : TextMap FieldStorage × TextMap FieldIndexing × TextMap SortOption ×
    TextMap String × TextSet × TextMap TermVector :=
  (definition.stores, definition.indexes, definition.sortOptions, definition.analyzers, definition.suggestions,
    definition.termVectors)

structure Equivalent (comparison : Comparison) (left right : IndexDefinition) : Prop where
  id : left.id = right.id
  name : foldName left.name = foldName right.name
  maps : Matched comparison.Same left.maps right.maps
  reduce : Option.Rel comparison.Same left.reduce right.reduce
  options : left.options = right.options
  limit : comparison.ignoreOutputLimit = true ∨ left.maxOutputsPerDocument = right.maxOutputsPerDocument

theorem equivalent_iff : left.equivalent comparison right = true ↔ Equivalent comparison left right := by
  simp only [equivalent, Bool.and_eq_true, beq_iff_eq, Comparison.same_texts_iff, Bool.or_eq_true]
  constructor
  · rintro ⟨⟨⟨⟨⟨⟨⟨⟨⟨⟨id, name⟩, maps⟩, reduce⟩, stores⟩, indexes⟩, sortOptions⟩, analyzers⟩, suggestions⟩, termVectors⟩, limit⟩
    exact ⟨id, name, maps, Comparison.rel_same_iff.mp reduce,
      by simp only [options, stores, indexes, sortOptions, analyzers, suggestions, termVectors], limit⟩
  · rintro ⟨id, name, maps, reduce, same, limit⟩
    simp only [options, Prod.mk.injEq] at same
    obtain ⟨stores, indexes, sortOptions, analyzers, suggestions, termVectors⟩ := same
    exact ⟨⟨⟨⟨⟨⟨⟨⟨⟨⟨id, name⟩, maps⟩, Comparison.rel_same_iff.mpr reduce⟩, stores⟩, indexes⟩, sortOptions⟩,
      analyzers⟩, suggestions⟩, termVectors⟩, limit⟩

theorem equivalent_equivalence (comparison : Comparison) : Equivalence (Equivalent comparison) where
  refl _ :=
    { id := rfl
      name := rfl
      maps := (matched_equivalence comparison.same_equivalence).refl _
      reduce := (rel_equivalence comparison.same_equivalence).refl _
      options := rfl
      limit := .inr rfl }
  symm same :=
    { id := same.id.symm
      name := same.name.symm
      maps := (matched_equivalence comparison.same_equivalence).symm same.maps
      reduce := (rel_equivalence comparison.same_equivalence).symm same.reduce
      options := same.options.symm
      limit := same.limit.imp_right Eq.symm }
  trans first second :=
    { id := first.id.trans second.id
      name := first.name.trans second.name
      maps := (matched_equivalence comparison.same_equivalence).trans first.maps second.maps
      reduce := (rel_equivalence comparison.same_equivalence).trans first.reduce second.reduce
      options := first.options.trans second.options
      limit := first.limit.elim .inl fun same => second.limit.imp_right same.trans }

theorem Equivalent.relaxed (same : Equivalent .exact left right) : Equivalent .relaxed left right where
  id := same.id
  name := same.name
  maps := matched_mono (fun _ _ => Comparison.relaxed_of_exact) same.maps
  reduce := by
    have reduces := same.reduce
    generalize left.reduce = one, right.reduce = other at reduces ⊢
    cases reduces with
    | none => exact .none
    | some first => exact .some (Comparison.relaxed_of_exact first)
  options := same.options
  limit := .inl rfl

end IndexDefinition

namespace TransformerDefinition

variable {comparison : Comparison} {left right : TransformerDefinition}

structure Equivalent (comparison : Comparison) (left right : TransformerDefinition) : Prop where
  id : left.id = right.id
  name : foldName left.name = foldName right.name
  temporary : left.temporary = right.temporary
  query : comparison.Same left.transformResults right.transformResults

theorem equivalent_iff : left.equivalent comparison right = true ↔ Equivalent comparison left right := by
  simp only [equivalent, Bool.and_eq_true, beq_iff_eq]
  constructor
  · rintro ⟨⟨⟨id, name⟩, temporary⟩, query⟩
    exact ⟨id, name, temporary, query⟩
  · rintro ⟨id, name, temporary, query⟩
    exact ⟨⟨⟨id, name⟩, temporary⟩, query⟩

theorem equivalent_equivalence (comparison : Comparison) : Equivalence (Equivalent comparison) where
  refl _ := ⟨rfl, rfl, rfl, comparison.same_equivalence.refl _⟩
  symm same := ⟨same.id.symm, same.name.symm, same.temporary.symm, comparison.same_equivalence.symm same.query⟩
  trans first second :=
    ⟨first.id.trans second.id, first.name.trans second.name, first.temporary.trans second.temporary,
      comparison.same_equivalence.trans first.query second.query⟩

theorem Equivalent.relaxed (same : Equivalent .exact left right) : Equivalent .relaxed left right :=
  ⟨same.id, same.name, same.temporary, Comparison.relaxed_of_exact same.query⟩

end TransformerDefinition

/-- Comparing definitions of either kind is an equivalence, and what is the same word for word is the same without its
formatting. The maps of two indexes count as the same just when they can be paired one to one. -/
theorem Comparison.definitions_compared :
    (∀ comparison, Equivalence fun left right : IndexDefinition => left.equivalent comparison right = true) ∧
      (∀ comparison, Equivalence fun left right : TransformerDefinition => left.equivalent comparison right = true) ∧
      (∀ left right : IndexDefinition, left.equivalent .exact right = true → left.equivalent .relaxed right = true) ∧
      (∀ left right : TransformerDefinition,
        left.equivalent .exact right = true → left.equivalent .relaxed right = true) ∧
      ∀ (comparison : Comparison) (left right : IndexDefinition),
        comparison.sameTexts left.maps right.maps = true ↔
          ∃ pairing : Fin left.maps.length ≃ Fin right.maps.length,
            ∀ place, comparison.sameText left.maps[place] right.maps[pairing place] = true := by
  refine ⟨fun comparison => ?_, fun comparison => ?_, fun left right same => ?_, fun left right same => ?_,
    fun comparison left right => ?_⟩
  · simp only [IndexDefinition.equivalent_iff]
    exact IndexDefinition.equivalent_equivalence comparison
  · simp only [TransformerDefinition.equivalent_iff]
    exact TransformerDefinition.equivalent_equivalence comparison
  · exact IndexDefinition.equivalent_iff.mpr (IndexDefinition.equivalent_iff.mp same).relaxed
  · exact TransformerDefinition.equivalent_iff.mpr (TransformerDefinition.equivalent_iff.mp same).relaxed
  · exact same_texts_iff.trans matched_iff_pairing

end DocumentViews
