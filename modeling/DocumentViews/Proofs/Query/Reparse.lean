import DocumentViews.Proofs.Query.QueryCompleteness
import DocumentViews.Proofs.Query.Reread
import DocumentViews.Proofs.Query.Settled

set_option autoImplicit false

namespace DocumentViews

def Value.reread : Value → Value
  | .string content => .string (Lexeme.reread content)
  | value => value

theorem Value.of_float_cases (value : Float) : Value.ofFloat value = .null ∨ ∃ number, Value.ofFloat value = .number number := by
  rw [Value.ofFloat]
  split
  · exact .inl rfl
  · split
    · split <;> exact .inr ⟨_, rfl⟩
    · exact .inr ⟨_, rfl⟩

theorem Value.float_reread (value : Float) : (Value.ofFloat value).reread = Value.ofFloat value := by
  rcases Value.of_float_cases value with isNull | ⟨number, isNumber⟩
  · rw [isNull]
    rfl
  · rw [isNumber]
    rfl

namespace Expr

def Plain : Expr → Prop
  | .literal (.number number) => 'e' ∉ number.chars
  | _ => True

theorem plain_on_literals : OnLiterals Plain := by
  intro expr noLiteral
  cases expr with
  | literal => cases noLiteral
  | _ => trivial

instance : DecidablePred Plain
  | .literal (.number number) => inferInstanceAs (Decidable ('e' ∉ number.chars))
  | .literal .null | .literal (.bool _) | .literal (.string _) | .literal (.array _) | .literal (.object _) =>
    .isTrue trivial
  | .var _ | .member _ _ | .unary _ _ | .binary _ _ _ | .conditional _ _ _ | .method _ _ _ | .aggregate _ _ |
    .aggregateOf _ _ _ _ | .call _ _ | .object _ => .isTrue trivial

mutual

def reread : Expr → Expr
  | .literal value => .literal value.reread
  | .var name => .var name
  | .member target name => .member (reread target) name
  | .unary op operand => .unary op (reread operand)
  | .binary op left right => .binary op (reread left) (reread right)
  | .conditional test consequent alternative => .conditional (reread test) (reread consequent) (reread alternative)
  | .method target asked arguments => .method (reread target) asked (rereadAll arguments)
  | .aggregate source function => .aggregate (reread source) function
  | .aggregateOf source function parameter body => .aggregateOf (reread source) function parameter (reread body)
  | .call function arguments => .call function (rereadAll arguments)
  | .object members => .object (rereadMembers members)

def rereadAll : List Expr → List Expr
  | [] => []
  | expr :: rest => reread expr :: rereadAll rest

def rereadMembers : List (String × Expr) → List (String × Expr)
  | [] => []
  | (name, expr) :: rest => (name, reread expr) :: rereadMembers rest

end

theorem reread_all_length (list : List Expr) : (rereadAll list).length = list.length := by
  induction list with
  | nil => rfl
  | cons expr rest ih => rw [rereadAll, List.length_cons, ih, List.length_cons]

theorem reread_members_names (members : List (String × Expr)) :
    (rereadMembers members).map Prod.fst = members.map Prod.fst := by
  induction members with
  | nil => rfl
  | cons member rest ih => rw [rereadMembers, List.map_cons, ih, List.map_cons]

variable {isFunction : String → Bool}

mutual

theorem reread_fits : (expr : Expr) → {scope : List String} → expr.Fits isFunction scope →
    expr.reread.Fits isFunction scope
  | .literal _, _, _ => trivial
  | .var _, _, fits => fits
  | .member target _, _, fits | .unary _ target, _, fits | .aggregate target _, _, fits => reread_fits target fits
  | .binary _ left right, _, fits => ⟨reread_fits left fits.1, reread_fits right fits.2⟩
  | .conditional test consequent alternative, _, fits =>
      ⟨reread_fits test fits.1, reread_fits consequent fits.2.1, reread_fits alternative fits.2.2⟩
  | .method target _ arguments, _, fits =>
      ⟨reread_fits target fits.1, (reread_all_length arguments).trans fits.2.1, reread_all_fit arguments fits.2.2⟩
  | .aggregateOf source _ _ body, _, fits => ⟨reread_fits source fits.1, reread_fits body fits.2⟩
  | .call _ arguments, _, fits => ⟨fits.1, reread_all_fit arguments fits.2⟩
  | .object members, _, fits => ⟨(reread_members_names members).symm ▸ fits.1, reread_members_fit members fits.2⟩

theorem reread_all_fit : (list : List Expr) → {scope : List String} → AllFit isFunction scope list →
    AllFit isFunction scope (rereadAll list)
  | [], _, _ => trivial
  | expr :: rest, _, fits => ⟨reread_fits expr fits.1, reread_all_fit rest fits.2⟩

theorem reread_members_fit : (members : List (String × Expr)) → {scope : List String} →
    MembersFit isFunction scope members → MembersFit isFunction scope (rereadMembers members)
  | [], _, _ => trivial
  | (_, expr) :: rest, _, fits => ⟨reread_fits expr fits.1, reread_members_fit rest fits.2⟩

end

end Expr

def Query.reread (query : Query) : Query := query.onExprs Expr.reread

namespace Grammar

def Phrase.reread : Phrase → Phrase
  | expression expr => expression expr.reread
  | coalesce expr => coalesce expr.reread
  | chain levels expr => chain levels expr.reread
  | unary expr => unary expr.reread
  | suffixed expr => suffixed expr.reread
  | primary expr => primary expr.reread
  | arguments list => arguments (Expr.rereadAll list)
  | moreArguments list => moreArguments (Expr.rereadAll list)
  | member name value => member name value.reread
  | members list => members (Expr.rereadMembers list)
  | moreMembers list => moreMembers (Expr.rereadMembers list)

theorem reread_implied (value : Expr) : impliedName? value.reread = impliedName? value := by cases value <;> rfl

variable {phrase : Phrase} {word : List Token} {links cost : Nat}

theorem needs_reread (needs : Needs phrase word links cost) : Needs phrase.reread (word.map Token.reread) links cost := by
  induction needs with
  | plainTest _ ih => exact .plainTest ih
  | conditional _ _ _ test consequent alternative =>
      rw [List.map_append, List.map_cons, List.map_append, List.map_cons]
      exact .conditional test consequent alternative
  | plainChain _ ih => exact .plainChain ih
  | coalesce _ _ left right =>
      rw [List.map_append, List.map_cons]
      exact .coalesce left right
  | plainUnary _ ih => exact .plainUnary ih
  | operand _ ih => exact .operand ih
  | operator known _ _ left right =>
      rw [List.map_append, List.map_cons]
      exact .operator known left right
  | plainSuffixed _ ih => exact .plainSuffixed ih
  | sign _ ih => exact .sign ih
  | plainPrimary _ ih => exact .plainPrimary ih
  | access _ ih =>
      rw [List.map_append]
      exact .access ih
  | method _ _ target list =>
      simp only [List.map_append, List.map_cons]
      exact .method target list
  | aggregate _ ih =>
      rw [List.map_append]
      exact .aggregate ih
  | aggregateOf _ _ source body =>
      simp only [List.map_append, List.map_cons]
      exact .aggregateOf source body
  | number value =>
      have same := Value.float_reread value
      simp only [Phrase.reread, Expr.reread, same]
      exact .number value
  | text content => exact .text _
  | true => exact .true
  | false => exact .false
  | null => exact .null
  | var name => exact .var name
  | call _ ih =>
      simp only [List.map_append, List.map_cons]
      exact .call ih
  | parenthesized _ ih =>
      simp only [List.map_append, List.map_cons]
      exact .parenthesized ih
  | object _ ih =>
      simp only [List.map_append, List.map_cons]
      exact .object ih
  | noArguments => exact .noArguments
  | arguments _ _ argument others =>
      rw [List.map_append]
      exact .arguments argument others
  | noMoreArguments => exact .noMoreArguments
  | moreArguments _ _ argument others =>
      rw [List.map_cons, List.map_append]
      exact .moreArguments argument others
  | named _ ih => exact .named ih
  | implied implied _ ih => exact .implied ((reread_implied _).trans implied) ih
  | noMembers => exact .noMembers
  | members _ _ member others =>
      rw [List.map_append]
      exact .members member others
  | noMoreMembers => exact .noMoreMembers
  | trailingComma => exact .trailingComma
  | moreMembers _ _ member others =>
      rw [List.map_cons, List.map_append]
      exact .moreMembers member others

theorem clauses_need_reread {clauses : List Clause} (needs : NeedsClauses clauses word cost) :
    NeedsClauses (clauses.map (Clause.onExpr Expr.reread)) (word.map Token.reread) cost := by
  induction needs with
  | none => exact .none
  | each needs _ ih =>
      simp only [List.map_append, List.map_cons]
      exact .each (needs_reread needs) ih
  | define needs _ ih =>
      simp only [List.map_append, List.map_cons]
      exact .define (needs_reread needs) ih
  | filter needs _ ih =>
      simp only [List.map_append, List.map_cons]
      exact .filter (needs_reread needs) ih

theorem group_needs_reread {group : Option GroupClause} (needs : NeedsGroup group word cost) :
    NeedsGroup (group.map (GroupClause.onExprs Expr.reread)) (word.map Token.reread) cost := by
  cases needs with
  | none => exact .none
  | group element key =>
      simp only [List.map_append, List.map_cons]
      exact .group (needs_reread element) (needs_reread key)

theorem source_reread (source : Source) : (sourceWord source).map Token.reread = sourceWord source := by
  match source with
  | .documents none | .documents (some _) | .results => rfl

theorem query_needs_reread {query : Query} (needs : NeedsQuery query word cost) :
    NeedsQuery query.reread (word.map Token.reread) cost := by
  cases needs with
  | query clauses group select =>
      simp only [List.map_append, List.map_cons, source_reread]
      exact .query (clauses_need_reread clauses) (group_needs_reread group) (needs_reread select)

def Phrase.Plain : Phrase → Prop
  | expression expr | coalesce expr | chain _ expr | unary expr | suffixed expr | primary expr | member _ expr =>
      expr.Every Expr.Plain
  | arguments list | moreArguments list => Expr.EveryOf Expr.Plain list
  | members list | moreMembers list => Expr.EveryMember Expr.Plain list

theorem float_plain_iff (value : Float) : Expr.Plain (.literal (.ofFloat value)) ↔ (Token.number value).Plain := by
  rw [Token.Plain]
  rcases Value.of_float_cases value with isNull | ⟨number, isNumber⟩
  · rw [isNull]
    exact ⟨fun _ => by decide, fun _ => trivial⟩
  · rw [isNumber]
    exact Iff.rfl

theorem derives_plain_iff (derived : Derives phrase word) : phrase.Plain ↔ ∀ token ∈ word, token.Plain := by
  induction derived with
  | plainTest _ ih | plainChain _ ih | plainUnary _ ih | operand _ ih | plainSuffixed _ ih | plainPrimary _ ih
    | implied _ _ ih => exact ih
  | conditional _ _ _ test consequent alternative =>
      simp only [Phrase.Plain, Expr.Every, Expr.Plain, List.forall_mem_append, List.forall_mem_cons, Token.mark_plain,
        true_and, ← test, ← consequent, ← alternative]
  | number value =>
      rw [List.forall_mem_singleton]
      exact float_plain_iff value
  | text | true | false | null | var =>
      rw [List.forall_mem_singleton]
      exact Iff.rfl
  | sign _ ih | access _ ih | aggregate _ ih | call _ ih | parenthesized _ ih | object _ ih | named _ ih =>
      simp only [Phrase.Plain, Expr.Every, Expr.Plain, List.forall_mem_append, List.forall_mem_cons, List.not_mem_nil,
        false_imp_iff, implies_true, Token.mark_plain, Token.identifier_plain, Token.keyword_plain, true_and, and_true, ← ih]
  | coalesce _ _ first second | operator _ _ _ first second | method _ _ first second | aggregateOf _ _ first second
    | arguments _ _ first second | moreArguments _ _ first second | members _ _ first second
    | moreMembers _ _ first second =>
      simp only [Phrase.Plain, Expr.Every, Expr.EveryOf, Expr.EveryMember, Expr.Plain, List.forall_mem_append,
        List.forall_mem_cons, List.not_mem_nil, false_imp_iff, implies_true, Token.mark_plain, Token.identifier_plain,
        true_and, and_true, ← first, ← second]
  | noArguments | noMoreArguments | noMembers | noMoreMembers => exact ⟨fun _ => List.forall_mem_nil _, fun _ => trivial⟩
  | trailingComma =>
      rw [List.forall_mem_singleton]
      exact Iff.rfl

theorem clauses_plain_iff {clauses : List Clause} (derived : DerivesClauses clauses word) :
    (∀ clause ∈ clauses, clause.Every Expr.Plain) ↔ ∀ token ∈ word, token.Plain := by
  induction derived with
  | none => exact ⟨fun _ => List.forall_mem_nil _, fun _ => List.forall_mem_nil _⟩
  | each derived _ ih | define derived _ ih | filter derived _ ih =>
      have expr := derives_plain_iff derived
      simp only [Phrase.Plain] at expr
      simp only [Clause.Every, List.forall_mem_append, List.forall_mem_cons, Token.mark_plain, Token.identifier_plain,
        Token.keyword_plain, true_and, ← expr, ← ih]

theorem group_plain_iff {clause : Option GroupClause} (derived : DerivesGroup clause word) :
    (∀ group ∈ clause, group.Every Expr.Plain) ↔ ∀ token ∈ word, token.Plain := by
  cases derived with
  | none => exact ⟨fun _ => List.forall_mem_nil _, fun _ => by rintro _ ⟨⟩⟩
  | group element key =>
      have first := derives_plain_iff element
      have second := derives_plain_iff key
      simp only [Phrase.Plain] at first second
      simp only [Option.mem_def, Option.some.injEq, forall_eq', GroupClause.Every, List.forall_mem_append,
        List.forall_mem_cons, List.not_mem_nil, false_imp_iff, implies_true, Token.identifier_plain, Token.keyword_plain,
        true_and, and_true, ← first, ← second]

theorem source_plain (source : Source) : ∀ token ∈ sourceWord source, token.Plain := by
  match source with
  | .documents none | .documents (some _) | .results => simp [sourceWord]

theorem query_plain_iff {query : Query} (derived : DerivesQuery query word) :
    query.Every Expr.Plain ↔ ∀ token ∈ word, token.Plain := by
  cases derived with
  | query clauses group select =>
      have selected := derives_plain_iff select
      simp only [Phrase.Plain] at selected
      simp only [List.forall_mem_append, List.forall_mem_cons, Token.identifier_plain, Token.keyword_plain, true_and,
        ← clauses_plain_iff clauses, ← group_plain_iff group, ← selected]
      refine ⟨fun plain => ⟨source_plain _, plain.clauses, plain.group, plain.select⟩, ?_⟩
      rintro ⟨_, clauses, group, select⟩
      exact ⟨clauses, group, select⟩

end Grammar

namespace Query

open Grammar

variable {isFunction : String → Bool}

-- What the canonical text is parsed to: the signs stand in front of the suffixes behind them,
-- and literal texts are as they come back.
theorem parsed_text_parsed_iff {text : String} {query again : Query} (parsed : Query.parse isFunction text = .ok query) :
    Query.parse isFunction query.text = .ok again ↔
      (query.Every Expr.Plain ∧ query.settled.levels ≤ maxDepth) ∧ again = query.settled.reread := by
  obtain ⟨_, _, _, fits⟩ := Query.parsed_derives parsed
  obtain ⟨word, needs, spells⟩ :=
    query_needed (settled_lexed (Query.parsed_lexed parsed)) query.settled_unsigned False.elim
  obtain ⟨tokens, splits, rereads⟩ := Lexeme.spells_rereads spells
  obtain ⟨lexemes, split, rfl⟩ := splits 0
  rw [settled_text] at split
  rw [← settled_every_iff Expr.plain_on_literals, query_plain_iff needs.derives]
  rcases rereads with ⟨plain, isWord⟩ | ⟨⟨token, member, notPlain⟩, notApart⟩
  · have rereadNeeds := query_needs_reread needs
    rw [← isWord] at rereadNeeds
    have rereadFits : query.settled.reread.Fits isFunction := on_exprs_fit (Expr.reread_fits _) (settled_fits fits)
    rcases Query.parse_depends split rereadNeeds rereadFits with ⟨enough, read⟩ | ⟨scant, _, refused⟩
    · rw [read, Except.ok.injEq]
      exact ⟨fun same => ⟨⟨plain, enough⟩, same.symm⟩, fun holds => holds.2.symm⟩
    · rw [refused]
      exact ⟨fun impossible => (nomatch impossible), fun holds => absurd holds.1.2 scant⟩
  · refine ⟨fun read => ?_, fun holds => absurd (holds.1.1 token member) notPlain⟩
    obtain ⟨others, splitAgain, derived, _⟩ := Query.parsed_derives read
    cases split.symm.trans splitAgain
    exact absurd (derives_query_apart derived) notApart

/-- The canonical text of a parsed query can be parsed just when all its numbers are written without an
exponent and its parentheses, with the signs in front of the suffixes behind them, do not take more levels
than there are. -/
theorem parsed_text_parses_iff {text : String} {query : Query} (parsed : Query.parse isFunction text = .ok query) :
    (∃ again, Query.parse isFunction query.text = .ok again) ↔
      query.Every Expr.Plain ∧ query.settled.levels ≤ maxDepth := by
  simp only [parsed_text_parsed_iff parsed, exists_and_left, exists_eq, and_true]

theorem parsed_text_parses_iff_signed :
    let text := "from d in docs let t = '\x01' where (-d.A).B > 0.00001 select new \x7b d.C, t \x7d"
    ∃ query, Query.parse Extensions.builtins.isFunction text = .ok query ∧
      ((∃ again, Query.parse Extensions.builtins.isFunction query.text = .ok again) ↔
        query.Every Expr.Plain ∧ query.settled.levels ≤ maxDepth) ∧
      ∃ again, Query.parse Extensions.builtins.isFunction query.text = .ok again := by
  intro text
  have accepted : (Query.parse Extensions.builtins.isFunction text).toOption.any
      (fun query => query.Every Expr.Plain ∧ query.settled.levels ≤ maxDepth) = true := by decide +kernel
  obtain ⟨query, parsed, holds⟩ := ok_with_exists accepted
  have parses := parsed_text_parses_iff parsed
  exact ⟨query, parsed, parses, parses.mpr (of_decide_eq_true holds)⟩

-- The number is written back as `1e+25`.
theorem parsed_text_unparsed_exponent :
    let text := "from d in docs select 10000000000000000000000000"
    ∃ query, Query.parse Extensions.builtins.isFunction text = .ok query ∧
      ¬ ∃ again, Query.parse Extensions.builtins.isFunction query.text = .ok again := by
  intro text
  have accepted : (Query.parse Extensions.builtins.isFunction text).toOption.any (fun query =>
      (Query.parse Extensions.builtins.isFunction query.text).toOption.isNone) = true := by decide +kernel
  obtain ⟨query, parsed, refused⟩ := ok_with_exists accepted
  refine ⟨query, parsed, ?_⟩
  rintro ⟨again, read⟩
  rw [read] at refused
  cases refused

end Query
end DocumentViews
