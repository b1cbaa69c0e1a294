import DocumentViews.Proofs.Query.QueryCompleteness

-- A word of tokens derives one query only: the parser, given enough levels, reads either of
-- two derivations from it.

set_option autoImplicit false

namespace DocumentViews.Grammar

variable {isFunction : String → Bool} {scope : List String} {left right : Expr}
  {first second following others : List Token}

theorem bare_injective : Function.Injective bare := fun _ _ same => congrArg Lexeme.token same

theorem spans_bare (word following : List Token) : Spans word ((word ++ following).map bare) (following.map bare) :=
  ⟨word.map bare, List.map_append, by rw [List.map_map]; exact List.map_id _⟩

theorem expression_alone {expr : Expr} {word whole : List Token} {levels : Nat} (derived : Derives (.expression expr) word)
    (fits : expr.Fits isFunction scope) (atKeyword : AtKeyword following) (splits : whole = word ++ following)
    (ample : word.length ≤ levels) :
    ∃ shorter, (staged ⟨isFunction, 0⟩ levels).conditional scope (whole.map bare) =
      .ok ⟨expr, following.map bare, shorter⟩ := by
  subst splits
  have reads : ReadsExpression ⟨isFunction, 0⟩ expr word := derives_read _ derived
  have behind : Spans following (following.map bare) [] := by
    simpa only [List.append_nil, List.map_nil] using spans_bare following []
  have uncalled : Uncalled word (following.map bare) := fun _ _ => mark_not_taken atKeyword behind .openParen
  rcases reads levels (spans_bare word following) fits uncalled (ends_at_keyword atKeyword behind) with read | ⟨scant, _⟩
  · exact read
  · exact absurd ample scant

theorem expression_unique (leftDerived : Derives (.expression left) first) (leftFits : left.Fits isFunction scope)
    (leftEnds : AtKeyword following) (rightDerived : Derives (.expression right) second)
    (rightFits : right.Fits isFunction scope) (rightEnds : AtKeyword others)
    (same : first ++ following = second ++ others) : left = right ∧ following = others := by
  obtain ⟨_, leftRead⟩ := expression_alone leftDerived leftFits leftEnds rfl (Nat.le_add_right _ second.length)
  obtain ⟨_, rightRead⟩ := expression_alone rightDerived rightFits rightEnds same (Nat.le_add_left _ first.length)
  rw [rightRead] at leftRead
  obtain ⟨rfl, sameRest⟩ := Parsed.mk.inj (Except.ok.inj leftRead)
  exact ⟨rfl, (List.map_injective_iff.mpr bare_injective sameRest).symm⟩

theorem binding_unique {keyword sign : Token} {name other : String} (leftDerived : Derives (.expression left) first)
    (leftFits : left.Fits isFunction scope) (leftEnds : AtKeyword following) (rightDerived : Derives (.expression right) second)
    (rightFits : right.Fits isFunction scope) (rightEnds : AtKeyword others)
    (same : keyword :: .identifier name :: sign :: (first ++ following) =
      keyword :: .identifier other :: sign :: (second ++ others)) :
    name = other ∧ left = right ∧ following = others := by
  simp only [List.cons.injEq, Token.identifier.injEq, true_and] at same
  obtain ⟨sameName, sameExpr⟩ := same
  exact ⟨sameName, expression_unique leftDerived leftFits leftEnds rightDerived rightFits rightEnds sameExpr⟩

theorem clause_not_at_end {clause : Clause} {list : List Clause} (derived : DerivesClauses (clause :: list) first)
    (same : others = first ++ following) : ¬ AtEnd others := by
  rintro ⟨keyword, _, isEnd, rfl⟩
  cases derived <;> rcases isEnd with rfl | rfl <;> cases same

theorem clauses_unique {list found : List Clause} (derived : DerivesClauses list first)
    (fits : ClausesFit isFunction scope list) (ends : AtEnd following) (foundDerived : DerivesClauses found second)
    (foundFits : ClausesFit isFunction scope found) (foundEnds : AtEnd others)
    (same : first ++ following = second ++ others) : list = found ∧ following = others := by
  induction derived generalizing scope found second with
  | none =>
      cases found with
      | nil =>
          cases foundDerived
          exact ⟨rfl, same⟩
      | cons => exact absurd ends (clause_not_at_end foundDerived same)
  | each derived behind ih =>
      cases foundDerived with
      | none => exact absurd foundEnds (clause_not_at_end (.each derived behind) same.symm)
      | each foundDerived foundBehind =>
          simp only [List.cons_append, List.append_assoc] at same
          obtain ⟨rfl, rfl, sameOthers⟩ := binding_unique derived fits.1.1 (clauses_at_keyword behind ends) foundDerived
            foundFits.1.1 (clauses_at_keyword foundBehind foundEnds) same
          obtain ⟨rfl, sameEnd⟩ := ih fits.2 foundBehind foundFits.2 sameOthers
          exact ⟨rfl, sameEnd⟩
      | define | filter => cases same
  | define derived behind ih =>
      cases foundDerived with
      | none => exact absurd foundEnds (clause_not_at_end (.define derived behind) same.symm)
      | define foundDerived foundBehind =>
          simp only [List.cons_append, List.append_assoc] at same
          obtain ⟨rfl, rfl, sameOthers⟩ := binding_unique derived fits.1.1 (clauses_at_keyword behind ends) foundDerived
            foundFits.1.1 (clauses_at_keyword foundBehind foundEnds) same
          obtain ⟨rfl, sameEnd⟩ := ih fits.2 foundBehind foundFits.2 sameOthers
          exact ⟨rfl, sameEnd⟩
      | each | filter => cases same
  | filter derived behind ih =>
      cases foundDerived with
      | none => exact absurd foundEnds (clause_not_at_end (.filter derived behind) same.symm)
      | filter foundDerived foundBehind =>
          simp only [List.cons_append, List.append_assoc, List.cons.injEq, true_and] at same
          obtain ⟨rfl, sameOthers⟩ := expression_unique derived fits.1 (clauses_at_keyword behind ends) foundDerived
            foundFits.1 (clauses_at_keyword foundBehind foundEnds) same
          obtain ⟨rfl, sameEnd⟩ := ih fits.2 foundBehind foundFits.2 sameOthers
          exact ⟨rfl, sameEnd⟩
      | each | define => cases same

theorem group_unique {clause found : Option GroupClause} (derived : DerivesGroup clause first)
    (fits : GroupFits isFunction scope clause) (foundDerived : DerivesGroup found second)
    (foundFits : GroupFits isFunction scope found)
    (same : first ++ .keyword .selectWord :: following = second ++ .keyword .selectWord :: others) :
    clause = found ∧ following = others := by
  cases derived with
  | none =>
      cases foundDerived with
      | none => exact ⟨rfl, List.tail_eq_of_cons_eq same⟩
      | group => cases same
  | group element key =>
      cases foundDerived with
      | none => cases same
      | group foundElement foundKey =>
          simp only [List.cons_append, List.append_assoc, List.nil_append, List.cons.injEq, true_and] at same
          obtain ⟨rfl, sameBy⟩ := expression_unique element fits.1 (at_keyword .byWord _) foundElement foundFits.1
            (at_keyword .byWord _) same
          obtain ⟨rfl, sameInto⟩ := expression_unique key fits.2 (at_keyword .intoWord _) foundKey foundFits.2
            (at_keyword .intoWord _) (List.tail_eq_of_cons_eq sameBy)
          simp only [List.cons.injEq, Token.identifier.injEq, true_and] at sameInto
          obtain ⟨rfl, sameRest⟩ := sameInto
          exact ⟨rfl, sameRest⟩

theorem source_unique {source found : Source} (ends : AtKeyword following) (foundEnds : AtKeyword others)
    (same : sourceWord source ++ following = sourceWord found ++ others) : source = found ∧ following = others := by
  have notDot : ∀ {word : List Token}, ¬ AtKeyword (.mark .dot :: word) := fun atKeyword =>
    (nomatch atKeyword _ rfl)
  match source, found with
  | .results, .results | .documents none, .documents none => exact ⟨rfl, List.tail_eq_of_cons_eq same⟩
  | .results, .documents none | .results, .documents (some _) | .documents none, .results | .documents (some _), .results =>
      simp [sourceWord] at same
  | .documents none, .documents (some _) =>
      obtain rfl := List.tail_eq_of_cons_eq same
      exact absurd ends notDot
  | .documents (some _), .documents none =>
      obtain rfl := List.tail_eq_of_cons_eq same
      exact absurd foundEnds notDot
  | .documents (some _), .documents (some _) =>
      simp only [sourceWord, List.cons_append, List.nil_append, List.cons.injEq, Token.identifier.injEq, true_and] at same
      obtain ⟨rfl, sameRest⟩ := same
      exact ⟨rfl, sameRest⟩

theorem query_unique {query found : Query} {word : List Token} (derived : DerivesQuery query word)
    (fits : query.Fits isFunction) (foundDerived : DerivesQuery found word) (foundFits : found.Fits isFunction) :
    query = found := by
  generalize whole : word = other at foundDerived
  cases derived with
  | query clausesDerived groupDerived selectDerived =>
      cases foundDerived with
      | query foundClauses foundGroup foundSelect =>
          obtain ⟨sameRange, sameSource⟩ := List.cons.inj (List.tail_eq_of_cons_eq whole)
          obtain rfl := Token.identifier.inj sameRange
          obtain ⟨rfl, sameClauses⟩ := source_unique (clauses_at_keyword clausesDerived (group_at_end groupDerived))
            (clauses_at_keyword foundClauses (group_at_end foundGroup)) (List.tail_eq_of_cons_eq sameSource)
          obtain ⟨rfl, sameGroup⟩ := clauses_unique clausesDerived fits.clauses (group_at_end groupDerived) foundClauses
            foundFits.clauses (group_at_end foundGroup) sameClauses
          obtain ⟨rfl, sameSelect⟩ := group_unique groupDerived fits.group foundGroup foundFits.group sameGroup
          obtain ⟨rfl, _⟩ := expression_unique selectDerived fits.select at_nothing foundSelect foundFits.select at_nothing
            (congrArg (· ++ []) sameSelect)
          rfl

end DocumentViews.Grammar
