import DocumentViews.Proofs.Query.Derivation
import DocumentViews.Proofs.Query.SameTokens

set_option autoImplicit false

namespace DocumentViews

namespace Clause

def binds (scope : List String) : Clause → List String
  | each name _ => name :: scope
  | define name _ => name :: scope
  | filter _ => scope

def Fits (isFunction : String → Bool) (scope : List String) : Clause → Prop
  | each name source => source.Fits isFunction scope ∧ name ∉ scope
  | define name value => value.Fits isFunction scope ∧ name ∉ scope
  | filter condition => condition.Fits isFunction scope

end Clause

def ClausesFit (isFunction : String → Bool) : List String → List Clause → Prop
  | _, [] => True
  | scope, clause :: rest => clause.Fits isFunction scope ∧ ClausesFit isFunction (clause.binds scope) rest

def GroupFits (isFunction : String → Bool) (scope : List String) : Option GroupClause → Prop
  | none => True
  | some group => group.element.Fits isFunction scope ∧ group.key.Fits isFunction scope

def scopeBehind (scope : List String) : Option GroupClause → List String
  | none => scope
  | some group => [group.into]

namespace Query

def rowScope (query : Query) : List String := query.clauses.foldl Clause.binds [query.range]

def selectScope (query : Query) : List String := scopeBehind query.rowScope query.group

structure Fits (isFunction : String → Bool) (query : Query) : Prop where
  clauses : ClausesFit isFunction [query.range] query.clauses
  group : GroupFits isFunction query.rowScope query.group
  select : query.select.Fits isFunction query.selectScope

end Query

section

variable {isFunction : String → Bool} {scope : List String} (change : Expr → Expr)

def Clause.onExpr : Clause → Clause
  | each name source => each name (change source)
  | define name value => define name (change value)
  | filter condition => filter (change condition)

def GroupClause.onExprs (group : GroupClause) : GroupClause :=
  { group with element := change group.element, key := change group.key }

def Query.onExprs (query : Query) : Query :=
  { query with
    clauses := query.clauses.map (Clause.onExpr change)
    group := query.group.map (GroupClause.onExprs change)
    select := change query.select }

theorem Clause.on_expr_binds (clause : Clause) (scope : List String) :
    (clause.onExpr change).binds scope = clause.binds scope := by cases clause <;> rfl

theorem clauses_on_expr_bind (clauses : List Clause) (scope : List String) :
    (clauses.map (Clause.onExpr change)).foldl Clause.binds scope = clauses.foldl Clause.binds scope := by
  induction clauses generalizing scope with
  | nil => rfl
  | cons clause rest ih => simp only [List.map_cons, List.foldl_cons, Clause.on_expr_binds, ih]

variable {change}

theorem clauses_on_expr_fit (keeps : ∀ {scope : List String} {expr : Expr}, expr.Fits isFunction scope →
    (change expr).Fits isFunction scope) {clauses : List Clause} (fits : ClausesFit isFunction scope clauses) :
    ClausesFit isFunction scope (clauses.map (Clause.onExpr change)) := by
  induction clauses generalizing scope with
  | nil => trivial
  | cons clause rest ih =>
      refine ⟨?_, ?_⟩
      · cases clause with
        | each | define => exact ⟨keeps fits.1.1, fits.1.2⟩
        | filter => exact keeps fits.1
      · rw [Clause.on_expr_binds]
        exact ih fits.2

theorem Query.on_exprs_fit (keeps : ∀ {scope : List String} {expr : Expr}, expr.Fits isFunction scope →
    (change expr).Fits isFunction scope) {query : Query} (fits : query.Fits isFunction) :
    (query.onExprs change).Fits isFunction := by
  obtain ⟨range, source, clauses, group, select⟩ := query
  have rows : rowScope (onExprs change ⟨range, source, clauses, group, select⟩) =
      rowScope ⟨range, source, clauses, group, select⟩ := clauses_on_expr_bind change _ _
  have selects : selectScope (onExprs change ⟨range, source, clauses, group, select⟩) =
      selectScope ⟨range, source, clauses, group, select⟩ := by
    rw [selectScope, rows]
    cases group <;> rfl
  refine ⟨clauses_on_expr_fit keeps fits.clauses, ?_, ?_⟩
  · rw [rows]
    cases group with
    | none => trivial
    | some group => exact ⟨keeps fits.group.1, keeps fits.group.2⟩
  · rw [selects]
    exact keeps fits.select

end

namespace Grammar

def sourceWord : Source → List Token
  | .documents none => [.identifier "docs"]
  | .documents (some collection) => [.identifier "docs", .mark .dot, .identifier collection]
  | .results => [.identifier "results"]

inductive DerivesClauses : List Clause → List Token → Prop
  | none : DerivesClauses [] []
  | each {name : String} {source : Expr} {clauses : List Clause} {word others : List Token} :
      Derives (.expression source) word → DerivesClauses clauses others →
      DerivesClauses (.each name source :: clauses)
        (.keyword .fromWord :: .identifier name :: .keyword .inWord :: (word ++ others))
  | define {name : String} {value : Expr} {clauses : List Clause} {word others : List Token} :
      Derives (.expression value) word → DerivesClauses clauses others →
      DerivesClauses (.define name value :: clauses)
        (.keyword .letWord :: .identifier name :: .mark .assign :: (word ++ others))
  | filter {condition : Expr} {clauses : List Clause} {word others : List Token} :
      Derives (.expression condition) word → DerivesClauses clauses others →
      DerivesClauses (.filter condition :: clauses) (.keyword .whereWord :: (word ++ others))

inductive DerivesGroup : Option GroupClause → List Token → Prop
  | none : DerivesGroup none []
  | group {element key : Expr} {into : String} {first second : List Token} :
      Derives (.expression element) first → Derives (.expression key) second →
      DerivesGroup (some ⟨element, key, into⟩)
        (.keyword .groupWord :: (first ++ .keyword .byWord :: (second ++ [.keyword .intoWord, .identifier into])))

inductive DerivesQuery : Query → List Token → Prop
  | query {range : String} {source : Source} {clauses : List Clause} {group : Option GroupClause} {select : Expr}
      {first second third : List Token} : DerivesClauses clauses first → DerivesGroup group second →
      Derives (.expression select) third →
      DerivesQuery ⟨range, source, clauses, group, select⟩
        (.keyword .fromWord :: .identifier range :: .keyword .inWord ::
          (sourceWord source ++ (first ++ (second ++ .keyword .selectWord :: third))))

variable {context : Context} {scope : List String} {tokens : List Lexeme}

theorem source_spans {found : Parsed tokens Source} (read : source context tokens = .ok found) :
    Spans (sourceWord found.value) tokens found.rest := by
  obtain ⟨name, isName, read⟩ := bind_ok read
  have named := identifier_spans isName
  split at read
  next isDocs =>
    rw [isDocs] at named
    split at read
    next dot dotted =>
      obtain ⟨collection, isCollection, read⟩ := bind_ok read
      cases read
      exact spans_cons named (spans_cons (take_spans (Token.mark_sign _) dotted) (identifier_spans isCollection))
    next =>
      cases read
      exact named
  next =>
    split at read
    next isResults =>
      rw [isResults] at named
      cases read
      exact named
    next => cases read

theorem definition_reads {sign : Token} (isSign : sign.IsSign) {found : Parsed tokens (String × Expr)}
    (read : definition context scope sign tokens = .ok found) :
    ∃ word, Derives (.expression found.value.2) word ∧
      Spans (.identifier found.value.1 :: sign :: word) tokens found.rest ∧
      found.value.2.Fits context.isFunction scope ∧ found.value.1 ∉ scope := by
  obtain ⟨name, isName, read⟩ := bind_ok read
  obtain ⟨mark, signed, read⟩ := bind_ok read
  obtain ⟨value, parsed, read⟩ := bind_ok read
  split at read
  next => cases read
  next fresh =>
    cases read
    obtain ⟨word, derived, spans, fits⟩ := expression_reads parsed
    refine ⟨word, derived, ?_, fits, by simpa [Parsed.after, Parsed.within, Parsed.map] using fresh⟩
    exact spans_cons (identifier_spans isName) (spans_cons (expect_spans isSign signed) spans)

theorem clauses_read {inner : List String} {list : List Clause} {rest : List Lexeme}
    (read : clauses context scope tokens = .ok (list, inner, rest)) :
    ∃ word, DerivesClauses list word ∧ Spans word tokens rest ∧ ClausesFit context.isFunction scope list ∧
      inner = list.foldl Clause.binds scope := by
  induction size : tokens.length using Nat.strongRecOn generalizing scope tokens list with
  | ind size ih =>
      rw [clauses] at read
      obtain ⟨clause, parsed, read⟩ := bind_ok read
      simp only [clause?, takeKeyword?] at parsed
      split at parsed
      next word begins =>
        obtain ⟨found, defined, parsed⟩ := bind_ok parsed
        cases parsed
        obtain ⟨⟨others, last, left⟩, parsedOthers, read⟩ := bind_ok read
        cases read
        have shorter := word.shorter
        have less := found.shorter
        obtain ⟨first, derived, spans, fits, fresh⟩ := definition_reads (Token.keyword_sign _) defined
        obtain ⟨second, othersDerived, othersSpan, othersFit, rfl⟩ := ih found.rest.length (by omega) parsedOthers rfl
        refine ⟨_, .each derived othersDerived, ?_, ⟨⟨fits, fresh⟩, othersFit⟩, rfl⟩
        exact spans_cons (take_spans (Token.keyword_sign _) begins) (spans_append spans othersSpan)
      next =>
        split at parsed
        next word begins =>
          obtain ⟨found, defined, parsed⟩ := bind_ok parsed
          cases parsed
          obtain ⟨⟨others, last, left⟩, parsedOthers, read⟩ := bind_ok read
          cases read
          have shorter := word.shorter
          have less := found.shorter
          obtain ⟨first, derived, spans, fits, fresh⟩ := definition_reads (Token.mark_sign _) defined
          obtain ⟨second, othersDerived, othersSpan, othersFit, rfl⟩ := ih found.rest.length (by omega) parsedOthers rfl
          refine ⟨_, .define derived othersDerived, ?_, ⟨⟨fits, fresh⟩, othersFit⟩, rfl⟩
          exact spans_cons (take_spans (Token.keyword_sign _) begins) (spans_append spans othersSpan)
        next =>
          split at parsed
          next word begins =>
            obtain ⟨found, condition, parsed⟩ := bind_ok parsed
            cases parsed
            obtain ⟨⟨others, last, left⟩, parsedOthers, read⟩ := bind_ok read
            cases read
            have shorter := word.shorter
            have less := found.shorter
            obtain ⟨first, derived, spans, fits⟩ := expression_reads condition
            obtain ⟨second, othersDerived, othersSpan, othersFit, rfl⟩ :=
              ih found.rest.length (by omega) parsedOthers rfl
            refine ⟨_, .filter derived othersDerived, ?_, ⟨fits, othersFit⟩, rfl⟩
            exact spans_cons (take_spans (Token.keyword_sign _) begins) (spans_append spans othersSpan)
          next =>
            cases parsed
            cases read
            exact ⟨[], .none, spans_nil, trivial, rfl⟩

theorem group_reads {inner : List String} {clause : Option GroupClause} {rest : List Lexeme}
    (read : group context scope tokens = .ok (clause, inner, rest)) :
    ∃ word, DerivesGroup clause word ∧ Spans word tokens rest ∧ GroupFits context.isFunction scope clause ∧
      inner = scopeBehind scope clause := by
  simp only [group, takeKeyword?] at read
  split at read
  next =>
    cases read
    exact ⟨[], .none, spans_nil, trivial, rfl⟩
  next groupWord begins =>
    obtain ⟨element, parsedElement, read⟩ := bind_ok read
    obtain ⟨byWord, isBy, read⟩ := bind_ok read
    obtain ⟨key, parsedKey, read⟩ := bind_ok read
    obtain ⟨intoWord, isInto, read⟩ := bind_ok read
    obtain ⟨name, isName, read⟩ := bind_ok read
    cases read
    obtain ⟨first, derived, spans, fits⟩ := expression_reads parsedElement
    obtain ⟨second, keyDerived, keySpans, keyFits⟩ := expression_reads parsedKey
    refine ⟨_, .group derived keyDerived, ?_, ⟨fits, keyFits⟩, rfl⟩
    have behindKey := spans_cons (expect_spans (Token.keyword_sign _) isInto) (identifier_spans isName)
    have behindElement := spans_cons (expect_spans (Token.keyword_sign _) isBy) (spans_append keySpans behindKey)
    exact spans_cons (take_spans (Token.keyword_sign _) begins) (spans_append spans behindElement)

theorem query_reads {found : Query} {rest : List Lexeme} (read : query context tokens = .ok (found, rest)) :
    ∃ word, DerivesQuery found word ∧ Spans word tokens rest ∧ found.Fits context.isFunction := by
  obtain ⟨fromWord, isFrom, read⟩ := bind_ok read
  obtain ⟨range, isRange, read⟩ := bind_ok read
  obtain ⟨inWord, isIn, read⟩ := bind_ok read
  obtain ⟨source, parsedSource, read⟩ := bind_ok read
  obtain ⟨⟨clauses, rowScope, behindClauses⟩, parsedClauses, read⟩ := bind_ok read
  obtain ⟨⟨group, selectScope, behindGroup⟩, parsedGroup, read⟩ := bind_ok read
  obtain ⟨selectWord, isSelect, read⟩ := bind_ok read
  obtain ⟨select, parsedSelect, read⟩ := bind_ok read
  cases read
  obtain ⟨first, clausesDerived, clausesSpan, clausesFit, rfl⟩ := clauses_read parsedClauses
  obtain ⟨second, groupDerived, groupSpans, groupFits, rfl⟩ := group_reads parsedGroup
  obtain ⟨third, selectDerived, selectSpans, selectFits⟩ := expression_reads parsedSelect
  refine ⟨_, .query clausesDerived groupDerived selectDerived, ?_, clausesFit, groupFits, selectFits⟩
  have behindSource := spans_append clausesSpan
    (spans_append groupSpans (spans_cons (expect_spans (Token.keyword_sign _) isSelect) selectSpans))
  have behindIn := spans_append (source_spans parsedSource) behindSource
  exact spans_cons (expect_spans (Token.keyword_sign _) isFrom)
    (spans_cons (identifier_spans isRange) (spans_cons (expect_spans (Token.keyword_sign _) isIn) behindIn))

end Grammar

open Grammar

theorem Query.parsed_derives {isFunction : String → Bool} {text : String} {found : Query}
    (parsed : Query.parse isFunction text = .ok found) :
    ∃ tokens, tokenize text = .ok tokens ∧ DerivesQuery found (tokens.map Lexeme.token) ∧ found.Fits isFunction := by
  obtain ⟨tokens, split, _, read⟩ := Query.parse_ok_iff.mp parsed
  obtain ⟨word, derived, ⟨consumed, rfl, rfl⟩, fits⟩ := query_reads read
  exact ⟨_, split, by simpa using derived, fits⟩

end DocumentViews
