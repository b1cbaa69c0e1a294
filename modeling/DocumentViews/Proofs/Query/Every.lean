import DocumentViews.Proofs.Query.QueryGrammar
import DocumentViews.Proofs.Query.Spells

set_option autoImplicit false

namespace DocumentViews

namespace Expr

mutual

def Every (holds : Expr → Prop) : Expr → Prop
  | .literal value => holds (.literal value)
  | .var name => holds (.var name)
  | .member target name => holds (.member target name) ∧ Every holds target
  | .unary op operand => holds (.unary op operand) ∧ Every holds operand
  | .binary op left right => holds (.binary op left right) ∧ Every holds left ∧ Every holds right
  | .conditional test consequent alternative =>
      holds (.conditional test consequent alternative) ∧ Every holds test ∧ Every holds consequent ∧
        Every holds alternative
  | .method target asked arguments =>
      holds (.method target asked arguments) ∧ Every holds target ∧ EveryOf holds arguments
  | .aggregate source function => holds (.aggregate source function) ∧ Every holds source
  | .aggregateOf source function parameter body =>
      holds (.aggregateOf source function parameter body) ∧ Every holds source ∧ Every holds body
  | .call function arguments => holds (.call function arguments) ∧ EveryOf holds arguments
  | .object members => holds (.object members) ∧ EveryMember holds members

def EveryOf (holds : Expr → Prop) : List Expr → Prop
  | [] => True
  | expr :: rest => Every holds expr ∧ EveryOf holds rest

def EveryMember (holds : Expr → Prop) : List (String × Expr) → Prop
  | [] => True
  | (_, expr) :: rest => Every holds expr ∧ EveryMember holds rest

end

theorem Every.here {holds : Expr → Prop} {expr : Expr} (every : expr.Every holds) : holds expr := by
  cases expr <;> simp only [Every] at every <;> first | exact every | exact every.1

def isSigned : Expr → Bool
  | .unary _ _ => true
  | _ => false

def SuffixesUnsigned : Expr → Prop
  | .member target _ | .method target _ _ | .aggregate target _ | .aggregateOf target _ _ _ => target.isSigned = false
  | _ => True

def Readable : Expr → Prop
  | .literal (.string content) => Lexeme.IsReadable content
  | .literal (.number number) => 'e' ∉ number.chars
  | _ => True

def Lexed : Expr → Prop
  | .literal value =>
      value = .null ∨ (∃ flag, value = .bool flag) ∨ (∃ content, value = .string content) ∨
        ∃ numerator denominator, value = .ofFloat (Dyadic.nearest false numerator denominator)
  | .var name | .member _ name | .aggregateOf _ _ name _ | .call name _ => IsName name
  | .object members => ∀ member ∈ members, IsName member.1
  | _ => True

section

variable (holds : Expr → Prop) [DecidablePred holds]

mutual

def decideEvery : (expr : Expr) → Decidable (expr.Every holds)
  | .literal value => inferInstanceAs (Decidable (holds (.literal value)))
  | .var name => inferInstanceAs (Decidable (holds (.var name)))
  | .member target name =>
      have := decideEvery target
      inferInstanceAs (Decidable (holds (.member target name) ∧ target.Every holds))
  | .unary op operand =>
      have := decideEvery operand
      inferInstanceAs (Decidable (holds (.unary op operand) ∧ operand.Every holds))
  | .binary op left right =>
      have := decideEvery left
      have := decideEvery right
      inferInstanceAs (Decidable (holds (.binary op left right) ∧ left.Every holds ∧ right.Every holds))
  | .conditional test consequent alternative =>
      have := decideEvery test
      have := decideEvery consequent
      have := decideEvery alternative
      inferInstanceAs (Decidable (holds (.conditional test consequent alternative) ∧ test.Every holds ∧
        consequent.Every holds ∧ alternative.Every holds))
  | .method target asked arguments =>
      have := decideEvery target
      have := decideEveryOf arguments
      inferInstanceAs (Decidable (holds (.method target asked arguments) ∧ target.Every holds ∧
        EveryOf holds arguments))
  | .aggregate source function =>
      have := decideEvery source
      inferInstanceAs (Decidable (holds (.aggregate source function) ∧ source.Every holds))
  | .aggregateOf source function parameter body =>
      have := decideEvery source
      have := decideEvery body
      inferInstanceAs (Decidable (holds (.aggregateOf source function parameter body) ∧ source.Every holds ∧
        body.Every holds))
  | .call function arguments =>
      have := decideEveryOf arguments
      inferInstanceAs (Decidable (holds (.call function arguments) ∧ EveryOf holds arguments))
  | .object members =>
      have := decideEveryMember members
      inferInstanceAs (Decidable (holds (.object members) ∧ EveryMember holds members))

def decideEveryOf : (list : List Expr) → Decidable (EveryOf holds list)
  | [] => .isTrue trivial
  | expr :: rest =>
      have := decideEvery expr
      have := decideEveryOf rest
      inferInstanceAs (Decidable (expr.Every holds ∧ EveryOf holds rest))

def decideEveryMember : (members : List (String × Expr)) → Decidable (EveryMember holds members)
  | [] => .isTrue trivial
  | (_, expr) :: rest =>
      have := decideEvery expr
      have := decideEveryMember rest
      inferInstanceAs (Decidable (expr.Every holds ∧ EveryMember holds rest))

end

instance (expr : Expr) : Decidable (expr.Every holds) := decideEvery holds expr

end

instance : DecidablePred SuffixesUnsigned
  | .member target _ => inferInstanceAs (Decidable (target.isSigned = false))
  | .method target _ _ => inferInstanceAs (Decidable (target.isSigned = false))
  | .aggregate source _ => inferInstanceAs (Decidable (source.isSigned = false))
  | .aggregateOf source _ _ _ => inferInstanceAs (Decidable (source.isSigned = false))
  | .literal _ | .var _ | .unary _ _ | .binary _ _ _ | .conditional _ _ _ | .call _ _ | .object _ => .isTrue trivial

instance : DecidablePred Readable
  | .literal (.string content) => inferInstanceAs (Decidable (Lexeme.IsReadable content))
  | .literal (.number number) => inferInstanceAs (Decidable ('e' ∉ number.chars))
  | .literal .null | .literal (.bool _) | .literal (.array _) | .literal (.object _) => .isTrue trivial
  | .var _ | .member _ _ | .unary _ _ | .binary _ _ _ | .conditional _ _ _ | .method _ _ _ | .aggregate _ _ |
    .aggregateOf _ _ _ _ | .call _ _ | .object _ => .isTrue trivial

end Expr

namespace Clause

def Every (holds : Expr → Prop) : Clause → Prop
  | each _ expr | define _ expr | filter expr => expr.Every holds

instance (holds : Expr → Prop) [DecidablePred holds] : DecidablePred (Every holds)
  | each _ expr | define _ expr | filter expr => inferInstanceAs (Decidable (expr.Every holds))

def Lexed : Clause → Prop
  | each name expr | define name expr => IsName name ∧ expr.Every Expr.Lexed
  | filter expr => expr.Every Expr.Lexed

end Clause

def GroupClause.Every (holds : Expr → Prop) (group : GroupClause) : Prop :=
  group.element.Every holds ∧ group.key.Every holds

instance (holds : Expr → Prop) [DecidablePred holds] : DecidablePred (GroupClause.Every holds) := fun group =>
  inferInstanceAs (Decidable (group.element.Every holds ∧ group.key.Every holds))

structure GroupClause.Lexed (group : GroupClause) : Prop where
  exprs : group.Every Expr.Lexed
  into : IsName group.into

namespace Query

structure Every (holds : Expr → Prop) (query : Query) : Prop where
  clauses : ∀ clause ∈ query.clauses, clause.Every holds
  group : ∀ group ∈ query.group, group.Every holds
  select : query.select.Every holds

instance (holds : Expr → Prop) [DecidablePred holds] : DecidablePred (Every holds) := fun query =>
  decidable_of_iff ((∀ clause ∈ query.clauses, clause.Every holds) ∧ (∀ group ∈ query.group, group.Every holds) ∧
      query.select.Every holds)
    ⟨fun ⟨clauses, group, select⟩ => ⟨clauses, group, select⟩,
      fun ⟨clauses, group, select⟩ => ⟨clauses, group, select⟩⟩

section

variable {change : Expr → Expr} {holds kept : Expr → Prop}

theorem on_exprs_every_iff (same : ∀ expr, (change expr).Every holds ↔ expr.Every kept) (query : Query) :
    (query.onExprs change).Every holds ↔ query.Every kept := by
  obtain ⟨range, source, clauses, group, select⟩ := query
  have sameClause : ∀ clause : Clause, (clause.onExpr change).Every holds ↔ clause.Every kept := by
    rintro (⟨_, expr⟩ | ⟨_, expr⟩ | expr) <;> exact same expr
  have sameClauses : (∀ clause ∈ clauses.map (Clause.onExpr change), clause.Every holds) ↔
      ∀ clause ∈ clauses, clause.Every kept := by simp only [List.forall_mem_map, sameClause]
  have sameGroup : (∀ clause ∈ group.map (GroupClause.onExprs change), clause.Every holds) ↔
      ∀ clause ∈ group, clause.Every kept := by
    cases group with
    | none => exact iff_of_true (by rintro _ ⟨⟩) (by rintro _ ⟨⟩)
    | some group =>
        simp only [Option.map_some, Option.mem_def, Option.some.injEq, forall_eq', GroupClause.Every,
          GroupClause.onExprs, same]
  exact ⟨fun every => ⟨sameClauses.mp every.clauses, sameGroup.mp every.group, (same select).mp every.select⟩,
    fun every => ⟨sameClauses.mpr every.clauses, sameGroup.mpr every.group, (same select).mpr every.select⟩⟩

theorem on_exprs_eq_iff (same : ∀ expr, change expr = expr ↔ expr.Every holds) (query : Query) :
    query.onExprs change = query ↔ query.Every holds := by
  obtain ⟨range, source, clauses, group, select⟩ := query
  have sameClause : ∀ clause : Clause, clause.onExpr change = clause ↔ clause.Every holds := by
    rintro (⟨_, expr⟩ | ⟨_, expr⟩ | expr) <;> simp only [Clause.onExpr, Clause.Every, ← same, Clause.each.injEq,
      Clause.define.injEq, Clause.filter.injEq, true_and]
  have sameClauses : clauses.map (Clause.onExpr change) = clauses ↔ ∀ clause ∈ clauses, clause.Every holds := by
    induction clauses with
    | nil => exact iff_of_true rfl (List.forall_mem_nil _)
    | cons clause rest ih => rw [List.map_cons, List.cons.injEq, sameClause, ih, List.forall_mem_cons]
  have sameGroup : group.map (GroupClause.onExprs change) = group ↔ ∀ clause ∈ group, clause.Every holds := by
    cases group with
    | none => exact iff_of_true rfl (by rintro _ ⟨⟩)
    | some group =>
        obtain ⟨element, key, into⟩ := group
        simp only [Option.map_some, Option.mem_def, Option.some.injEq, forall_eq', GroupClause.Every,
          GroupClause.onExprs, ← same, GroupClause.mk.injEq, and_true]
  simp only [onExprs, Query.mk.injEq, true_and, sameClauses, sameGroup, same]
  exact ⟨fun every => ⟨every.1, every.2.1, every.2.2⟩, fun every => ⟨every.clauses, every.group, every.select⟩⟩

end

structure Lexed (query : Query) : Prop where
  range : IsName query.range
  source : ∀ collection, query.source = .documents (some collection) → IsName collection
  clauses : ∀ clause ∈ query.clauses, clause.Lexed
  group : ∀ group ∈ query.group, group.Lexed
  select : query.select.Every Expr.Lexed

end Query

namespace Grammar

def Phrase.Lexed : Phrase → Prop
  | expression expr | coalesce expr | chain _ expr | unary expr | suffixed expr | primary expr => expr.Every Expr.Lexed
  | arguments list | moreArguments list => Expr.EveryOf Expr.Lexed list
  | member name value => IsName name ∧ value.Every Expr.Lexed
  | members list | moreMembers list => (∀ member ∈ list, IsName member.1) ∧ Expr.EveryMember Expr.Lexed list

theorem implied_is_name {value : Expr} {name : String} (implied : impliedName? value = some name)
    (lexed : value.Every Expr.Lexed) : IsName name := by
  cases value with
  | var _ =>
      cases implied
      exact lexed.here
  | member _ _ =>
      cases implied
      exact lexed.here
  | _ => cases implied

theorem derives_lexed {phrase : Phrase} {word : List Token} (derivation : Derives phrase word)
    (lexed : ∀ token ∈ word, token.Lexed) : phrase.Lexed := by
  induction derivation with
  | plainTest _ ih | plainChain _ ih | plainUnary _ ih | operand _ ih | plainSuffixed _ ih | plainPrimary _ ih =>
      exact ih lexed
  | conditional _ _ _ test consequent alternative =>
      simp only [List.forall_mem_append, List.forall_mem_cons] at lexed
      obtain ⟨first, _, second, _, third⟩ := lexed
      exact ⟨trivial, test first, consequent second, alternative third⟩
  | coalesce _ _ before after | operator _ _ _ before after =>
      simp only [List.forall_mem_append, List.forall_mem_cons] at lexed
      obtain ⟨first, _, second⟩ := lexed
      exact ⟨trivial, before first, after second⟩
  | sign _ ih =>
      rw [List.forall_mem_cons] at lexed
      exact ⟨trivial, ih lexed.2⟩
  | access _ ih =>
      simp only [List.forall_mem_append, List.forall_mem_cons] at lexed
      obtain ⟨target, _, name, _⟩ := lexed
      exact ⟨name, ih target⟩
  | method _ _ target arguments =>
      simp only [List.forall_mem_append, List.forall_mem_cons] at lexed
      obtain ⟨first, _, _, _, second, _⟩ := lexed
      exact ⟨trivial, target first, arguments second⟩
  | aggregate _ ih =>
      rw [List.forall_mem_append] at lexed
      exact ⟨trivial, ih lexed.1⟩
  | aggregateOf _ _ source body =>
      simp only [List.forall_mem_append, List.forall_mem_cons] at lexed
      obtain ⟨first, _, _, _, parameter, _, second, _⟩ := lexed
      exact ⟨parameter, source first, body second⟩
  | number value =>
      obtain ⟨numerator, denominator, rfl⟩ := lexed _ List.mem_cons_self
      exact .inr (.inr (.inr ⟨numerator, denominator, rfl⟩))
  | text content => exact .inr (.inr (.inl ⟨content, rfl⟩))
  | true => exact .inr (.inl ⟨_, rfl⟩)
  | false => exact .inr (.inl ⟨_, rfl⟩)
  | null => exact .inl rfl
  | var name => exact lexed _ List.mem_cons_self
  | call _ ih =>
      simp only [List.forall_mem_append, List.forall_mem_cons] at lexed
      obtain ⟨name, _, arguments, _⟩ := lexed
      exact ⟨name, ih arguments⟩
  | parenthesized _ ih =>
      simp only [List.forall_mem_append, List.forall_mem_cons] at lexed
      exact ih lexed.2.1
  | object _ ih =>
      simp only [List.forall_mem_append, List.forall_mem_cons] at lexed
      exact ih lexed.2.2.1
  | noArguments | noMoreArguments => trivial
  | arguments _ _ argument others =>
      rw [List.forall_mem_append] at lexed
      exact ⟨argument lexed.1, others lexed.2⟩
  | moreArguments _ _ argument others =>
      simp only [List.forall_mem_append, List.forall_mem_cons] at lexed
      exact ⟨argument lexed.2.1, others lexed.2.2⟩
  | named _ ih =>
      simp only [List.forall_mem_cons] at lexed
      exact ⟨lexed.1, ih lexed.2.2⟩
  | implied implied _ ih => exact ⟨implied_is_name implied (ih lexed), ih lexed⟩
  | noMembers | noMoreMembers | trailingComma => exact ⟨fun _ member => (nomatch member), trivial⟩
  | members _ _ member others =>
      rw [List.forall_mem_append] at lexed
      obtain ⟨isName, value⟩ := member lexed.1
      obtain ⟨areNames, values⟩ := others lexed.2
      exact ⟨List.forall_mem_cons.mpr ⟨isName, areNames⟩, value, values⟩
  | moreMembers _ _ member others =>
      simp only [List.forall_mem_append, List.forall_mem_cons] at lexed
      obtain ⟨isName, value⟩ := member lexed.2.1
      obtain ⟨areNames, values⟩ := others lexed.2.2
      exact ⟨List.forall_mem_cons.mpr ⟨isName, areNames⟩, value, values⟩

theorem derives_clauses_lexed {clauses : List Clause} {word : List Token} (derivation : DerivesClauses clauses word)
    (lexed : ∀ token ∈ word, token.Lexed) : ∀ clause ∈ clauses, clause.Lexed := by
  induction derivation with
  | none => exact fun _ member => nomatch member
  | each derived _ ih | define derived _ ih =>
      simp only [List.forall_mem_append, List.forall_mem_cons] at lexed
      obtain ⟨_, name, _, first, second⟩ := lexed
      exact List.forall_mem_cons.mpr ⟨⟨name, derives_lexed derived first⟩, ih second⟩
  | filter derived _ ih =>
      simp only [List.forall_mem_append, List.forall_mem_cons] at lexed
      obtain ⟨_, first, second⟩ := lexed
      exact List.forall_mem_cons.mpr ⟨derives_lexed derived first, ih second⟩

theorem derives_group_lexed {clause : Option GroupClause} {word : List Token} (derivation : DerivesGroup clause word)
    (lexed : ∀ token ∈ word, token.Lexed) : ∀ group ∈ clause, group.Lexed := by
  cases derivation with
  | none => exact fun _ member => nomatch member
  | group element key =>
      simp only [List.forall_mem_append, List.forall_mem_cons] at lexed
      obtain ⟨_, first, _, second, _, into, _⟩ := lexed
      rintro group ⟨⟩
      exact ⟨⟨derives_lexed element first, derives_lexed key second⟩, into⟩

theorem derives_query_lexed {query : Query} {word : List Token} (derivation : DerivesQuery query word)
    (lexed : ∀ token ∈ word, token.Lexed) : query.Lexed := by
  cases derivation with
  | query clauses group select =>
      simp only [List.forall_mem_append, List.forall_mem_cons] at lexed
      obtain ⟨_, range, _, source, first, second, _, third⟩ := lexed
      refine ⟨range, ?_, derives_clauses_lexed clauses first, derives_group_lexed group second, derives_lexed select third⟩
      rintro collection rfl
      exact source (.identifier collection) (by simp [sourceWord])

end Grammar

theorem Query.parsed_lexed {isFunction : String → Bool} {text : String} {found : Query}
    (parsed : Query.parse isFunction text = .ok found) : found.Lexed := by
  obtain ⟨lexemes, split, derived, _⟩ := Query.parsed_derives parsed
  refine Grammar.derives_query_lexed derived fun token member => ?_
  obtain ⟨lexeme, present, rfl⟩ := List.mem_map.mp member
  exact Lexeme.lexemes_lexed split lexeme present

end DocumentViews
