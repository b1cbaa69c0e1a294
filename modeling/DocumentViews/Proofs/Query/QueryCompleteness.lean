import DocumentViews.Proofs.Query.Completeness
import DocumentViews.Proofs.Query.QueryGrammar

set_option autoImplicit false

namespace DocumentViews.Grammar

variable {α β : Type} {context : Context} {scope : List String} {tokens rest : List Lexeme} {expr : Expr}
  {word following : List Token} {links cost : Nat}

def Comes (result : Except QueryError α) (value : α) : Prop :=
  result = .ok value ∨ ∃ position, result = .error ⟨.nestedTooDeeply, position⟩

-- The outcome of a reader that refuses for nesting just when the levels are not ample.
def Depends (ample : Prop) (result : Except QueryError α) (value : α) : Prop :=
  (ample ∧ result = .ok value) ∨ (¬ ample ∧ ∃ position, result = .error ⟨.nestedTooDeeply, position⟩)

theorem Depends.comes {ample : Prop} {result : Except QueryError α} {value : α} (depends : Depends ample result value) :
    Comes result value := depends.imp And.right And.right

theorem depends_bind {ample needed : Prop} {first : Except QueryError α} {next : α → Except QueryError β} {value : α}
    {result : β} (depends : Depends needed first value) (needs : ample → needed)
    (goes : needed → Depends ample (next value) result) : Depends ample (first >>= next) result := by
  rcases depends with ⟨enough, rfl⟩ | ⟨scant, position, rfl⟩
  · exact goes enough
  · exact .inr ⟨fun enough => scant (needs enough), position, rfl⟩

theorem depends_after {ample : Prop} {first : Except QueryError α} {next : α → Except QueryError β} {value : α}
    {result : β} (done : first = .ok value) (goes : Depends ample (next value) result) :
    Depends ample (first >>= next) result := by
  rw [done]
  exact goes

theorem depends_behind {ample needed : Prop} {first : Except QueryError (Parsed tokens α)}
    {next : Parsed tokens α → Except QueryError β} {value : α} {result : β} (hinges : Hinges needed first value rest)
    (needs : ample → needed) (goes : needed → ∀ shorter, Depends ample (next ⟨value, rest, shorter⟩) result) :
    Depends ample (first >>= next) result := by
  rcases hinges with ⟨enough, shorter, rfl⟩ | ⟨scant, position, rfl⟩
  · exact goes enough shorter
  · exact .inr ⟨fun enough => scant (needs enough), position, rfl⟩

def AtKeyword (word : List Token) : Prop := ∀ token ∈ word.head?, ∃ keyword, token = .keyword keyword

theorem at_keyword (keyword : Keyword) (others : List Token) : AtKeyword (.keyword keyword :: others) := by
  rintro token ⟨⟩
  exact ⟨keyword, rfl⟩

theorem at_nothing : AtKeyword [] := by rintro token ⟨⟩

theorem mark_not_taken (atKeyword : AtKeyword following) (spans : Spans following tokens []) (mark : Mark) :
    takeMark? mark tokens = none := by
  cases following with
  | nil => rw [← spans_end spans]; rfl
  | cons token others =>
      obtain ⟨keyword, rfl⟩ := atKeyword token rfl
      exact not_taken (Token.mark_sign mark) (by simp) spans

theorem ends_at_keyword (atKeyword : AtKeyword following) (spans : Spans following tokens []) : ExpressionEnds tokens where
  dot := mark_not_taken atKeyword spans .dot
  operator := by
    intro level _
    cases following with
    | nil => rw [← spans_end spans]; rfl
    | cons token others =>
        obtain ⟨keyword, rfl⟩ := atKeyword token rfl
        obtain ⟨lexeme, behind, rfl, isToken, _⟩ := spans_uncons spans
        simp only [takeOperator?, isToken]
  coalesce := mark_not_taken atKeyword spans .coalesce
  question := mark_not_taken atKeyword spans .question

theorem expression_hinges (needs : Needs (.expression expr) word links cost) (fits : expr.Fits context.isFunction scope)
    (atKeyword : AtKeyword following) (spans : Spans (word ++ following) tokens []) :
    ∃ middle, Spans following middle [] ∧
      Hinges (cost ≤ maxDepth) (expression context scope tokens) expr middle := by
  obtain ⟨middle, exprSpans, behind⟩ := spans_split spans
  have costs : CostsExpression context expr word cost := needs_costs context needs
  refine ⟨middle, behind, ?_⟩
  rw [expression, stage_eq_staged]
  exact costs maxDepth exprSpans fits (fun _ _ => mark_not_taken atKeyword behind .openParen) (ends_at_keyword atKeyword behind)

theorem definition_hinges {name : String} {sign : Token} (isSign : sign.IsSign)
    (needs : Needs (.expression expr) word links cost) (fits : expr.Fits context.isFunction scope) (fresh : name ∉ scope)
    (atKeyword : AtKeyword following) (spans : Spans (.identifier name :: sign :: (word ++ following)) tokens []) :
    ∃ middle, Spans following middle [] ∧
      Hinges (cost ≤ maxDepth) (definition context scope sign tokens) (name, expr) middle := by
  obtain ⟨atSign, _, named, signSpans⟩ := identifier_of_spans context spans
  obtain ⟨atExpr, _, signed, exprSpans⟩ := expect_of_spans context isSign signSpans
  obtain ⟨middle, behind, hinges⟩ := expression_hinges needs fits atKeyword exprSpans
  refine ⟨middle, behind, ?_⟩
  refine hinges_behind named (hinges_behind signed (hinges_bind hinges id fun enough _ => ?_))
  simp only [List.contains_eq_mem, fresh, decide_false, Bool.false_eq_true, if_false]
  exact hinges_ok enough _

theorem keyword_taken (keyword : Keyword) (spans : Spans (.keyword keyword :: word) tokens rest) :
    ∃ others shorter, takeKeyword? keyword tokens = some ⟨(), others, shorter⟩ ∧ Spans word others rest :=
  take_of_spans (Token.keyword_sign keyword) spans

theorem keyword_not_taken {wanted found : Keyword} (differs : found ≠ wanted)
    (spans : Spans (.keyword found :: word) tokens rest) : takeKeyword? wanted tokens = none :=
  not_taken (Token.keyword_sign wanted) (fun same => differs (Token.keyword.inj same)) spans

def AtEnd (word : List Token) : Prop := ∃ keyword others, (keyword = .groupWord ∨ keyword = .selectWord) ∧
  word = .keyword keyword :: others

theorem no_clause (atEnd : AtEnd following) (spans : Spans following tokens []) :
    clause? context scope tokens = .ok none := by
  obtain ⟨keyword, others, isEnd, rfl⟩ := atEnd
  have noFrom : takeKeyword? .fromWord tokens = none := keyword_not_taken (by rcases isEnd with rfl | rfl <;> decide) spans
  have noLet : takeKeyword? .letWord tokens = none := keyword_not_taken (by rcases isEnd with rfl | rfl <;> decide) spans
  have noWhere : takeKeyword? .whereWord tokens = none :=
    keyword_not_taken (by rcases isEnd with rfl | rfl <;> decide) spans
  simp only [clause?, noFrom, noLet, noWhere]

theorem clauses_at_keyword {list : List Clause} (derived : DerivesClauses list word) (atEnd : AtEnd following) :
    AtKeyword (word ++ following) := by
  cases derived with
  | none =>
      obtain ⟨keyword, others, _, rfl⟩ := atEnd
      exact at_keyword keyword others
  | each | define | filter => exact at_keyword _ _

theorem group_at_end {clause : Option GroupClause} {others : List Token} (derived : DerivesGroup clause word) :
    AtEnd (word ++ .keyword .selectWord :: others) := by
  cases derived with
  | none => exact ⟨_, _, .inr rfl, rfl⟩
  | group => exact ⟨_, _, .inl rfl, rfl⟩

def CostsClause (context : Context) (scope : List String) (tokens : List Lexeme) (clause : Clause)
    (middle : List Lexeme) (cost : Nat) : Prop :=
  (cost ≤ maxDepth ∧
      ∃ shorter, clause? context scope tokens = .ok (some ⟨(clause, clause.binds scope), middle, shorter⟩)) ∨
    (¬ cost ≤ maxDepth ∧ ∃ position, clause? context scope tokens = .error ⟨.nestedTooDeeply, position⟩)

theorem each_costs {name : String} {source : Expr} (needs : Needs (.expression source) word links cost)
    (fits : source.Fits context.isFunction scope) (fresh : name ∉ scope) (atKeyword : AtKeyword following)
    (spans : Spans (.keyword .fromWord :: .identifier name :: .keyword .inWord :: (word ++ following)) tokens []) :
    ∃ middle, Spans following middle [] ∧ CostsClause context scope tokens (.each name source) middle cost := by
  obtain ⟨atName, less, taken, nameSpans⟩ := keyword_taken .fromWord spans
  obtain ⟨middle, behind, hinges⟩ :=
    definition_hinges (Token.keyword_sign .inWord) needs fits fresh atKeyword nameSpans
  refine ⟨middle, behind, ?_⟩
  simp only [CostsClause, clause?, taken]
  rcases hinges with ⟨enough, shorter, read⟩ | ⟨scant, position, failed⟩
  · rw [read]
    exact .inl ⟨enough, Nat.lt_trans shorter less, rfl⟩
  · rw [failed]
    exact .inr ⟨scant, position, rfl⟩

theorem define_costs {name : String} {value : Expr} (needs : Needs (.expression value) word links cost)
    (fits : value.Fits context.isFunction scope) (fresh : name ∉ scope) (atKeyword : AtKeyword following)
    (spans : Spans (.keyword .letWord :: .identifier name :: .mark .assign :: (word ++ following)) tokens []) :
    ∃ middle, Spans following middle [] ∧ CostsClause context scope tokens (.define name value) middle cost := by
  have noFrom : takeKeyword? .fromWord tokens = none := keyword_not_taken (by decide) spans
  obtain ⟨atName, less, taken, nameSpans⟩ := keyword_taken .letWord spans
  obtain ⟨middle, behind, hinges⟩ :=
    definition_hinges (Token.mark_sign .assign) needs fits fresh atKeyword nameSpans
  refine ⟨middle, behind, ?_⟩
  simp only [CostsClause, clause?, noFrom, taken]
  rcases hinges with ⟨enough, shorter, read⟩ | ⟨scant, position, failed⟩
  · rw [read]
    exact .inl ⟨enough, Nat.lt_trans shorter less, rfl⟩
  · rw [failed]
    exact .inr ⟨scant, position, rfl⟩

theorem filter_costs {condition : Expr} (needs : Needs (.expression condition) word links cost)
    (fits : condition.Fits context.isFunction scope) (atKeyword : AtKeyword following)
    (spans : Spans (.keyword .whereWord :: (word ++ following)) tokens []) :
    ∃ middle, Spans following middle [] ∧ CostsClause context scope tokens (.filter condition) middle cost := by
  have noFrom : takeKeyword? .fromWord tokens = none := keyword_not_taken (by decide) spans
  have noLet : takeKeyword? .letWord tokens = none := keyword_not_taken (by decide) spans
  obtain ⟨atCondition, less, taken, conditionSpans⟩ := keyword_taken .whereWord spans
  obtain ⟨middle, behind, hinges⟩ := expression_hinges needs fits atKeyword conditionSpans
  refine ⟨middle, behind, ?_⟩
  simp only [CostsClause, clause?, noFrom, noLet, taken]
  rcases hinges with ⟨enough, shorter, read⟩ | ⟨scant, position, failed⟩
  · rw [read]
    exact .inl ⟨enough, Nat.lt_trans shorter less, rfl⟩
  · rw [failed]
    exact .inr ⟨scant, position, rfl⟩

theorem clauses_step {clause : Clause} {list : List Clause} {middle : List Lexeme} {inner : List String} {more : Nat}
    (first : CostsClause context scope tokens clause middle cost)
    (others : Depends (more ≤ maxDepth) (clauses context (clause.binds scope) middle) (list, inner, rest)) :
    Depends (max cost more ≤ maxDepth) (clauses context scope tokens) (clause :: list, inner, rest) := by
  rw [clauses]
  rcases first with ⟨enough, shorter, read⟩ | ⟨scant, position, failed⟩
  · rw [read]
    refine depends_after rfl (depends_bind others (by omega) fun othersFit => ?_)
    exact .inl ⟨Nat.max_le.mpr ⟨enough, othersFit⟩, rfl⟩
  · rw [failed]
    exact .inr ⟨by omega, position, rfl⟩

theorem clauses_depend {list : List Clause} (needs : NeedsClauses list word cost)
    (fits : ClausesFit context.isFunction scope list) (atEnd : AtEnd following)
    (spans : Spans (word ++ following) tokens []) :
    ∃ middle, Spans following middle [] ∧ Depends (cost ≤ maxDepth) (clauses context scope tokens)
      (list, list.foldl Clause.binds scope, middle) := by
  induction needs generalizing scope tokens with
  | none =>
      refine ⟨tokens, spans, ?_⟩
      rw [clauses, no_clause atEnd spans]
      exact .inl ⟨Nat.zero_le _, rfl⟩
  | each needs othersNeed ih =>
      simp only [List.cons_append, List.append_assoc] at spans
      obtain ⟨behind, behindSpans, first⟩ :=
        each_costs needs fits.1.1 fits.1.2 (clauses_at_keyword othersNeed.derives atEnd) spans
      obtain ⟨middle, middleSpans, depends⟩ := ih fits.2 behindSpans
      exact ⟨middle, middleSpans, clauses_step first depends⟩
  | define needs othersNeed ih =>
      simp only [List.cons_append, List.append_assoc] at spans
      obtain ⟨behind, behindSpans, first⟩ :=
        define_costs needs fits.1.1 fits.1.2 (clauses_at_keyword othersNeed.derives atEnd) spans
      obtain ⟨middle, middleSpans, depends⟩ := ih fits.2 behindSpans
      exact ⟨middle, middleSpans, clauses_step first depends⟩
  | filter needs othersNeed ih =>
      simp only [List.cons_append, List.append_assoc] at spans
      obtain ⟨behind, behindSpans, first⟩ :=
        filter_costs needs fits.1 (clauses_at_keyword othersNeed.derives atEnd) spans
      obtain ⟨middle, middleSpans, depends⟩ := ih fits.2 behindSpans
      exact ⟨middle, middleSpans, clauses_step first depends⟩

theorem group_depends {clause : Option GroupClause} {others : List Token} (needs : NeedsGroup clause word cost)
    (fits : GroupFits context.isFunction scope clause)
    (spans : Spans (word ++ .keyword .selectWord :: others) tokens []) :
    ∃ middle, Spans (.keyword .selectWord :: others) middle [] ∧
      Depends (cost ≤ maxDepth) (group context scope tokens) (clause, scopeBehind scope clause, middle) := by
  cases needs with
  | none =>
      have noGroup : takeKeyword? .groupWord tokens = none := keyword_not_taken (by decide) spans
      refine ⟨tokens, spans, ?_⟩
      rw [group, noGroup]
      exact .inl ⟨Nat.zero_le _, rfl⟩
  | group elementNeeds keyNeeds =>
      simp only [List.cons_append, List.append_assoc, List.nil_append] at spans
      obtain ⟨atElement, _, taken, elementSpans⟩ := keyword_taken .groupWord spans
      obtain ⟨atBy, bySpans, elementHinges⟩ :=
        expression_hinges elementNeeds fits.1 (at_keyword .byWord _) elementSpans
      obtain ⟨atKey, _, byTaken, keySpans⟩ := expect_of_spans context (Token.keyword_sign .byWord) bySpans
      obtain ⟨atInto, intoSpans, keyHinges⟩ := expression_hinges keyNeeds fits.2 (at_keyword .intoWord _) keySpans
      obtain ⟨atName, _, intoTaken, nameSpans⟩ := expect_of_spans context (Token.keyword_sign .intoWord) intoSpans
      obtain ⟨middle, _, named, behind⟩ := identifier_of_spans context nameSpans
      refine ⟨middle, behind, ?_⟩
      rw [group, taken]
      refine depends_behind elementHinges (by omega) fun elementFits _ => depends_after byTaken ?_
      refine depends_behind keyHinges (by omega) fun keyFits _ => depends_after intoTaken (depends_after named ?_)
      exact .inl ⟨Nat.max_le.mpr ⟨elementFits, keyFits⟩, rfl⟩

theorem source_hinges (context : Context) {origin : Source} (spans : Spans (sourceWord origin ++ following) tokens [])
    (notDot : ∀ {middle : List Lexeme}, Spans following middle [] → takeMark? .dot middle = none) :
    ∃ middle, Spans following middle [] ∧ Hinges True (source context tokens) origin middle := by
  match origin with
  | .documents none =>
      obtain ⟨middle, _, named, behind⟩ := identifier_of_spans context spans
      refine ⟨middle, behind, hinges_behind named ?_⟩
      simp only [notDot behind]
      exact hinges_ok trivial _
  | .documents (some collection) =>
      obtain ⟨atDot, _, named, dotSpans⟩ := identifier_of_spans context spans
      obtain ⟨atName, _, dot, nameSpans⟩ := take_of_spans (Token.mark_sign .dot) dotSpans
      obtain ⟨middle, _, collected, behind⟩ := identifier_of_spans context nameSpans
      refine ⟨middle, behind, hinges_behind named ?_⟩
      simp only [takeMark?, dot]
      exact hinges_behind collected (hinges_ok trivial _)
  | .results =>
      obtain ⟨middle, _, named, behind⟩ := identifier_of_spans context spans
      exact ⟨middle, behind, hinges_behind named (hinges_ok trivial _)⟩

theorem query_depends (context : Context) {found : Query} (needs : NeedsQuery found word cost)
    (fits : found.Fits context.isFunction) (spans : Spans word tokens []) :
    Depends (cost ≤ maxDepth) (query context tokens) (found, []) := by
  cases needs with
  | @query range origin list clause select first second third _ _ _ _ clausesNeed groupNeeds selectNeeds =>
      have atEnd : AtEnd (second ++ .keyword .selectWord :: third) := group_at_end groupNeeds.derives
      obtain ⟨atRange, _, fromTaken, rangeSpans⟩ := expect_of_spans context (Token.keyword_sign .fromWord) spans
      obtain ⟨atIn, _, named, inSpans⟩ := identifier_of_spans context rangeSpans
      obtain ⟨atSource, _, inTaken, sourceSpans⟩ := expect_of_spans context (Token.keyword_sign .inWord) inSpans
      obtain ⟨atClauses, clausesSpans, sourceHinges⟩ := source_hinges context sourceSpans fun behind =>
        mark_not_taken (clauses_at_keyword clausesNeed.derives atEnd) behind .dot
      obtain ⟨atGroup, groupSpans, clausesDepend⟩ := clauses_depend clausesNeed fits.clauses atEnd clausesSpans
      obtain ⟨atSelect, selectSpans, groupDepends⟩ := group_depends groupNeeds fits.group groupSpans
      obtain ⟨atExpr, _, selectTaken, exprSpans⟩ := expect_of_spans context (Token.keyword_sign .selectWord) selectSpans
      rw [← List.append_nil third] at exprSpans
      obtain ⟨middle, behind, hinges⟩ := expression_hinges selectNeeds fits.select at_nothing exprSpans
      obtain rfl := spans_end behind
      refine depends_after fromTaken (depends_after named (depends_after inTaken ?_))
      refine depends_behind sourceHinges (fun _ => trivial) fun _ _ => ?_
      refine depends_bind clausesDepend (by omega) fun clausesFit => ?_
      refine depends_bind groupDepends (by omega) fun groupFits => depends_after selectTaken ?_
      refine depends_behind hinges (by omega) fun selectFits _ => ?_
      exact .inl ⟨Nat.max_le.mpr ⟨clausesFit, Nat.max_le.mpr ⟨groupFits, selectFits⟩⟩, rfl⟩

end DocumentViews.Grammar

namespace DocumentViews

open Grammar

/-- A text whose tokens derive a query that fits is parsed to just that query when there are as many
levels as the query needs, and otherwise refused for nesting. -/
theorem Query.parse_depends {isFunction : String → Bool} {text : String} {lexemes : List Lexeme} {found : Query}
    {cost : Nat} (split : tokenize text = .ok lexemes) (needs : NeedsQuery found (lexemes.map Lexeme.token) cost)
    (fits : found.Fits isFunction) : Depends (cost ≤ maxDepth) (Query.parse isFunction text) found := by
  have present : lexemes.isEmpty = false := by
    cases lexemes with
    | nil => cases needs
    | cons => rfl
  have depends := query_depends ⟨isFunction, text.utf8ByteSize⟩ needs fits ⟨lexemes, (List.append_nil _).symm, rfl⟩
  rw [Query.parse, split]
  refine depends_after rfl ?_
  rw [if_neg (by simp [present])]
  exact depends_bind depends id fun enough => .inl ⟨enough, rfl⟩

theorem Query.parse_comes {isFunction : String → Bool} {text : String} {lexemes : List Lexeme} {found : Query}
    (split : tokenize text = .ok lexemes) (derived : DerivesQuery found (lexemes.map Lexeme.token))
    (fits : found.Fits isFunction) : Comes (Query.parse isFunction text) found := by
  obtain ⟨cost, needs⟩ := derived.needs
  exact (Query.parse_depends split needs fits).comes

end DocumentViews
