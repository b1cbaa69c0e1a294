import DocumentViews.Proofs.Compile
import DocumentViews.Query.Parser

set_option autoImplicit false

namespace DocumentViews

namespace Token

def IsSign : Token → Prop
  | keyword _ => True
  | mark _ => True
  | _ => False

theorem mark_sign (wanted : Mark) : (mark wanted).IsSign := trivial

theorem keyword_sign (wanted : Keyword) : (keyword wanted).IsSign := trivial

end Token

def UnaryOp.mark : UnaryOp → Mark
  | not => .bang
  | negate => .minus

namespace Expr

mutual

-- The variables are in scope, the called functions are known, methods get as many arguments
-- as they take and no object names a member twice.
def Fits (isFunction : String → Bool) (scope : List String) : Expr → Prop
  | .literal _ => True
  | .var name => name ∈ scope
  | .member target _ => Fits isFunction scope target
  | .unary _ operand => Fits isFunction scope operand
  | .binary _ left right => Fits isFunction scope left ∧ Fits isFunction scope right
  | .conditional test consequent alternative =>
      Fits isFunction scope test ∧ Fits isFunction scope consequent ∧ Fits isFunction scope alternative
  | .method target asked arguments =>
      Fits isFunction scope target ∧ arguments.length = asked.arity ∧ AllFit isFunction scope arguments
  | .aggregate source _ => Fits isFunction scope source
  | .aggregateOf source _ parameter body =>
      Fits isFunction scope source ∧ Fits isFunction (parameter :: scope) body
  | .call function arguments => isFunction function = true ∧ AllFit isFunction scope arguments
  | .object members => (members.map Prod.fst).Nodup ∧ MembersFit isFunction scope members

def AllFit (isFunction : String → Bool) (scope : List String) : List Expr → Prop
  | [] => True
  | expr :: rest => Fits isFunction scope expr ∧ AllFit isFunction scope rest

def MembersFit (isFunction : String → Bool) (scope : List String) : List (String × Expr) → Prop
  | [] => True
  | (_, expr) :: rest => Fits isFunction scope expr ∧ MembersFit isFunction scope rest

end

end Expr

namespace Grammar

-- What a run of tokens can be read as. A chain is a row of operands with operators of the
-- first level between them, the operands being chains of the levels that bind tighter.
inductive Phrase
  | expression (expr : Expr)
  | coalesce (expr : Expr)
  | chain (levels : List Level) (expr : Expr)
  | unary (expr : Expr)
  | suffixed (expr : Expr)
  | primary (expr : Expr)
  | arguments (list : List Expr)
  | moreArguments (list : List Expr)
  | member (name : String) (value : Expr)
  | members (list : List (String × Expr))
  | moreMembers (list : List (String × Expr))

inductive Derives : Phrase → List Token → Prop
  | plainTest {expr : Expr} {word : List Token} : Derives (.coalesce expr) word → Derives (.expression expr) word
  | conditional {test consequent alternative : Expr} {first second third : List Token} :
      Derives (.coalesce test) first → Derives (.expression consequent) second →
      Derives (.expression alternative) third →
      Derives (.expression (.conditional test consequent alternative))
        (first ++ .mark .question :: (second ++ .mark .colon :: third))
  | plainChain {expr : Expr} {word : List Token} : Derives (.chain Level.all expr) word → Derives (.coalesce expr) word
  | coalesce {left right : Expr} {first second : List Token} :
      Derives (.chain Level.all left) first → Derives (.coalesce right) second →
      Derives (.coalesce (.binary .coalesce left right)) (first ++ .mark .coalesce :: second)
  | plainUnary {expr : Expr} {word : List Token} : Derives (.unary expr) word → Derives (.chain [] expr) word
  | operand {level : Level} {tighter : List Level} {expr : Expr} {word : List Token} :
      Derives (.chain tighter expr) word → Derives (.chain (level :: tighter) expr) word
  | operator {level : Level} {tighter : List Level} {mark : Mark} {op : BinaryOp} {left right : Expr}
      {first second : List Token} : level.operator? mark = some op →
      Derives (.chain (level :: tighter) left) first → Derives (.chain tighter right) second →
      Derives (.chain (level :: tighter) (.binary op left right)) (first ++ .mark mark :: second)
  | plainSuffixed {expr : Expr} {word : List Token} : Derives (.suffixed expr) word → Derives (.unary expr) word
  | sign {op : UnaryOp} {operand : Expr} {word : List Token} :
      Derives (.unary operand) word → Derives (.unary (.unary op operand)) (.mark op.mark :: word)
  | plainPrimary {expr : Expr} {word : List Token} : Derives (.primary expr) word → Derives (.suffixed expr) word
  | access {target : Expr} {name : String} {word : List Token} : Derives (.suffixed target) word →
      Derives (.suffixed (.member target name)) (word ++ [.mark .dot, .identifier name])
  | method {target : Expr} {asked : TextMethod} {list : List Expr} {word inner : List Token} :
      Derives (.suffixed target) word → Derives (.arguments list) inner →
      Derives (.suffixed (.method target asked list))
        (word ++ .mark .dot :: .identifier asked.name :: .mark .openParen :: (inner ++ [.mark .closeParen]))
  | aggregate {source : Expr} {function : Aggregate} {word : List Token} : Derives (.suffixed source) word →
      Derives (.suffixed (.aggregate source function))
        (word ++ [.mark .dot, .identifier function.name, .mark .openParen, .mark .closeParen])
  | aggregateOf {source body : Expr} {function : Aggregate} {parameter : String} {word inner : List Token} :
      Derives (.suffixed source) word → Derives (.expression body) inner →
      Derives (.suffixed (.aggregateOf source function parameter body))
        (word ++ .mark .dot :: .identifier function.name :: .mark .openParen :: .identifier parameter ::
          .mark .arrow :: (inner ++ [.mark .closeParen]))
  | number (value : Float) : Derives (.primary (.literal (.ofFloat value))) [.number value]
  | text (content : String) : Derives (.primary (.literal (.string content))) [.text content]
  | true : Derives (.primary (.literal (.bool .true))) [.keyword .trueWord]
  | false : Derives (.primary (.literal (.bool .false))) [.keyword .falseWord]
  | null : Derives (.primary (.literal .null)) [.keyword .nullWord]
  | var (name : String) : Derives (.primary (.var name)) [.identifier name]
  | call {function : String} {list : List Expr} {inner : List Token} : Derives (.arguments list) inner →
      Derives (.primary (.call function list))
        (.identifier function :: .mark .openParen :: (inner ++ [.mark .closeParen]))
  | parenthesized {expr : Expr} {inner : List Token} : Derives (.expression expr) inner →
      Derives (.primary expr) (.mark .openParen :: (inner ++ [.mark .closeParen]))
  | object {list : List (String × Expr)} {inner : List Token} : Derives (.members list) inner →
      Derives (.primary (.object list))
        (.keyword .newWord :: .mark .openBrace :: (inner ++ [.mark .closeBrace]))
  | noArguments : Derives (.arguments []) []
  | arguments {argument : Expr} {list : List Expr} {first others : List Token} :
      Derives (.expression argument) first → Derives (.moreArguments list) others →
      Derives (.arguments (argument :: list)) (first ++ others)
  | noMoreArguments : Derives (.moreArguments []) []
  | moreArguments {argument : Expr} {list : List Expr} {first others : List Token} :
      Derives (.expression argument) first → Derives (.moreArguments list) others →
      Derives (.moreArguments (argument :: list)) (.mark .comma :: (first ++ others))
  | named {name : String} {value : Expr} {word : List Token} : Derives (.expression value) word →
      Derives (.member name value) (.identifier name :: .mark .assign :: word)
  | implied {name : String} {value : Expr} {word : List Token} : impliedName? value = some name →
      Derives (.expression value) word → Derives (.member name value) word
  | noMembers : Derives (.members []) []
  | members {name : String} {value : Expr} {list : List (String × Expr)} {first others : List Token} :
      Derives (.member name value) first → Derives (.moreMembers list) others →
      Derives (.members ((name, value) :: list)) (first ++ others)
  | noMoreMembers : Derives (.moreMembers []) []
  | trailingComma : Derives (.moreMembers []) [.mark .comma]
  | moreMembers {name : String} {value : Expr} {list : List (String × Expr)} {first others : List Token} :
      Derives (.member name value) first → Derives (.moreMembers list) others →
      Derives (.moreMembers ((name, value) :: list)) (.mark .comma :: (first ++ others))

def Phrase.Fits (isFunction : String → Bool) (scope : List String) : Phrase → Prop
  | expression expr | coalesce expr | chain _ expr | unary expr | suffixed expr | primary expr =>
      expr.Fits isFunction scope
  | arguments list | moreArguments list => Expr.AllFit isFunction scope list
  | member _ value => value.Fits isFunction scope
  | members list | moreMembers list => (list.map Prod.fst).Nodup ∧ Expr.MembersFit isFunction scope list

def Spans (word : List Token) (tokens rest : List Lexeme) : Prop :=
  ∃ consumed, tokens = consumed ++ rest ∧ consumed.map Lexeme.token = word

variable {tokens middle rest : List Lexeme} {word first second : List Token}

theorem spans_nil : Spans [] tokens tokens := ⟨[], rfl, rfl⟩

theorem spans_append (front : Spans first tokens middle) (back : Spans second middle rest) :
    Spans (first ++ second) tokens rest := by
  obtain ⟨taken, rfl, rfl⟩ := front
  obtain ⟨others, rfl, rfl⟩ := back
  exact ⟨taken ++ others, (List.append_assoc _ _ _).symm, List.map_append⟩

theorem spans_cons {token : Token} (front : Spans [token] tokens middle) (back : Spans word middle rest) :
    Spans (token :: word) tokens rest := spans_append front back

theorem spans_one (lexeme : Lexeme) : Spans [lexeme.token] (lexeme :: rest) rest := ⟨[lexeme], rfl, rfl⟩

theorem same_iff_of_sign {found wanted : Token} (isSign : wanted.IsSign) : found.same wanted = true ↔ found = wanted := by
  cases wanted with
  | keyword word => cases found <;> simp [Token.same]
  | mark mark => cases found <;> simp [Token.same]
  | _ => cases isSign

theorem take_spans {wanted : Token} {taken : Parsed tokens Unit} (isSign : wanted.IsSign)
    (found : take? wanted tokens = some taken) : Spans [wanted] tokens taken.rest := by
  cases tokens with
  | nil => cases found
  | cons lexeme others =>
      simp only [take?] at found
      split at found
      next same =>
        cases found
        rw [← (same_iff_of_sign isSign).mp same]
        exact spans_one lexeme
      next => cases found

variable {context : Context} {scope : List String}

theorem expect_spans {wanted : Token} {taken : Parsed tokens Unit} (isSign : wanted.IsSign)
    (found : expect context wanted tokens = .ok taken) : Spans [wanted] tokens taken.rest := by
  simp only [expect] at found
  split at found
  next taken present =>
    cases found
    exact take_spans isSign present
  next => cases found

theorem identifier_spans {name : Parsed tokens String} (found : identifier context tokens = .ok name) :
    Spans [.identifier name.value] tokens name.rest := by
  cases tokens with
  | nil => cases found
  | cons lexeme others =>
      obtain ⟨gap, spelling, token, position⟩ := lexeme
      cases token with
      | identifier name =>
          cases found
          exact spans_one _
      | _ => cases found

theorem take_operator_spans {level : Level} {taken : Parsed tokens BinaryOp}
    (found : takeOperator? level tokens = some taken) :
    ∃ mark, level.operator? mark = some taken.value ∧ Spans [.mark mark] tokens taken.rest := by
  cases tokens with
  | nil => cases found
  | cons lexeme others =>
      obtain ⟨gap, spelling, token, position⟩ := lexeme
      cases token with
      | mark mark =>
          obtain ⟨op, known, rfl⟩ := Option.map_eq_some_iff.mp found
          exact ⟨mark, known, spans_one _⟩
      | _ => cases found

theorem take_unary_spans {taken : Parsed tokens UnaryOp} (found : takeUnary? tokens = some taken) :
    Spans [.mark taken.value.mark] tokens taken.rest := by
  cases tokens with
  | nil => cases found
  | cons lexeme others =>
      obtain ⟨gap, spelling, token, position⟩ := lexeme
      cases token with
      | mark mark =>
          cases mark with
          | bang =>
              cases found
              exact spans_one _
          | minus =>
              cases found
              exact spans_one _
          | _ => cases found
      | _ => cases found

theorem given_name_spans {taken : Parsed tokens String} (found : givenName? tokens = some taken) :
    Spans [.identifier taken.value, .mark .assign] tokens taken.rest := by
  match tokens with
  | [] => cases found
  | [_] => cases found
  | lexeme :: next :: others =>
      obtain ⟨gap, spelling, token, position⟩ := lexeme
      obtain ⟨nextGap, nextSpelling, nextToken, nextPosition⟩ := next
      simp only [givenName?] at found
      split at found
      next name =>
        cases found
        exact ⟨[_, _], rfl, rfl⟩
      next => cases found

def Reads (context : Context) (scope : List String) (phrase : Phrase) (tokens rest : List Lexeme) : Prop :=
  ∃ word, Derives phrase word ∧ Spans word tokens rest ∧ phrase.Fits context.isFunction scope

def ParserReads (context : Context) (phrase : Expr → Phrase) (parser : ExprParser) : Prop :=
  ∀ {scope : List String} {tokens : List Lexeme} {found : Parsed tokens Expr},
    parser scope tokens = .ok found → Reads context scope (phrase found.value) tokens found.rest

variable {expression : ExprParser}

theorem more_arguments_reads (reads : ParserReads context .expression expression)
    {found : Parsed tokens (List Expr)} (read : moreArguments context expression scope tokens = .ok found) :
    ∃ word, Derives (.moreArguments found.value) word ∧ Spans (word ++ [.mark .closeParen]) tokens found.rest ∧
      Expr.AllFit context.isFunction scope found.value := by
  induction size : tokens.length using Nat.strongRecOn generalizing tokens with
  | ind size ih =>
      rw [moreArguments] at read
      split at read
      next close closed =>
        cases read
        exact ⟨[], .noMoreArguments, take_spans (Token.mark_sign _) closed, trivial⟩
      next =>
        obtain ⟨comma, separated, read⟩ := bind_ok read
        obtain ⟨argument, parsed, read⟩ := bind_ok read
        obtain ⟨others, parsedOthers, read⟩ := bind_ok read
        cases read
        have shorter := comma.shorter
        have less := argument.shorter
        obtain ⟨first, derived, spans, fits⟩ := reads parsed
        obtain ⟨word, othersDerived, othersSpan, othersFit⟩ := ih argument.rest.length (by omega) parsedOthers rfl
        refine ⟨.mark .comma :: (first ++ word), .moreArguments derived othersDerived, ?_, fits, othersFit⟩
        rw [List.cons_append, List.append_assoc]
        exact spans_cons (expect_spans (Token.mark_sign _) separated) (spans_append spans othersSpan)

theorem arguments_reads (reads : ParserReads context .expression expression)
    {found : Parsed tokens (List Expr)} (read : arguments context expression scope tokens = .ok found) :
    ∃ word, Derives (.arguments found.value) word ∧ Spans (word ++ [.mark .closeParen]) tokens found.rest ∧
      Expr.AllFit context.isFunction scope found.value := by
  rw [arguments] at read
  split at read
  next close closed =>
    cases read
    exact ⟨[], .noArguments, take_spans (Token.mark_sign _) closed, trivial⟩
  next =>
    obtain ⟨argument, parsed, read⟩ := bind_ok read
    obtain ⟨others, parsedOthers, read⟩ := bind_ok read
    cases read
    obtain ⟨first, derived, spans, fits⟩ := reads parsed
    obtain ⟨word, othersDerived, othersSpan, othersFit⟩ := more_arguments_reads reads parsedOthers
    refine ⟨first ++ word, .arguments derived othersDerived, ?_, fits, othersFit⟩
    rw [List.append_assoc]
    exact spans_append spans othersSpan

theorem object_member_reads (reads : ParserReads context .expression expression) {used : List String}
    {found : Parsed tokens (String × Expr)} (read : objectMember context expression scope used tokens = .ok found) :
    Reads context scope (.member found.value.1 found.value.2) tokens found.rest ∧ found.value.1 ∉ used := by
  have checked : ∀ {named : Parsed tokens (String × Expr)},
      (if used.contains named.value.1 then context.fail tokens (.duplicateMember named.value.1) else .ok named) =
        .ok found → named = found ∧ named.value.1 ∉ used := by
    intro named passed
    split at passed
    next => cases passed
    next fresh =>
      cases passed
      exact ⟨rfl, by simpa using fresh⟩
  simp only [objectMember] at read
  split at read
  next name given =>
    obtain ⟨value, parsed, read⟩ := bind_ok read
    obtain ⟨rfl, fresh⟩ := checked read
    obtain ⟨word, derived, spans, fits⟩ := reads parsed
    exact ⟨⟨_, .named derived, spans_append (given_name_spans given) spans, fits⟩, fresh⟩
  next =>
    obtain ⟨value, parsed, read⟩ := bind_ok read
    split at read
    next name implied =>
      obtain ⟨rfl, fresh⟩ := checked read
      obtain ⟨word, derived, spans, fits⟩ := reads parsed
      exact ⟨⟨word, .implied implied derived, spans, fits⟩, fresh⟩
    next => cases read

theorem more_object_members_reads (reads : ParserReads context .expression expression) {used : List String}
    {found : Parsed tokens (List (String × Expr))}
    (read : moreObjectMembers context expression scope used tokens = .ok found) :
    ∃ word, Derives (.moreMembers found.value) word ∧ Spans (word ++ [.mark .closeBrace]) tokens found.rest ∧
      Expr.MembersFit context.isFunction scope found.value ∧ (found.value.map Prod.fst).Nodup ∧
      ∀ name ∈ found.value.map Prod.fst, name ∉ used := by
  induction size : tokens.length using Nat.strongRecOn generalizing used tokens with
  | ind size ih =>
      rw [moreObjectMembers] at read
      split at read
      next close closed =>
        cases read
        exact ⟨[], .noMoreMembers, take_spans (Token.mark_sign _) closed, trivial, List.nodup_nil, by simp [Parsed.map]⟩
      next =>
        obtain ⟨comma, separated, read⟩ := bind_ok read
        split at read
        next close closed =>
          cases read
          exact ⟨[.mark .comma], .trailingComma,
            spans_cons (expect_spans (Token.mark_sign _) separated) (take_spans (Token.mark_sign _) closed),
            trivial, List.nodup_nil, by simp [Parsed.after, Parsed.within, Parsed.map]⟩
        next =>
          obtain ⟨member, parsed, read⟩ := bind_ok read
          obtain ⟨others, parsedOthers, read⟩ := bind_ok read
          cases read
          have shorter := comma.shorter
          have less := member.shorter
          obtain ⟨⟨first, derived, spans, fits⟩, fresh⟩ := object_member_reads reads parsed
          obtain ⟨word, othersDerived, othersSpan, othersFit, distinct, othersFresh⟩ :=
            ih member.rest.length (by omega) parsedOthers rfl
          refine ⟨.mark .comma :: (first ++ word), .moreMembers derived othersDerived, ?_, ⟨fits, othersFit⟩, ?_, ?_⟩
          · rw [List.cons_append, List.append_assoc]
            exact spans_cons (expect_spans (Token.mark_sign _) separated) (spans_append spans othersSpan)
          · exact List.nodup_cons.mpr ⟨fun again => othersFresh _ again List.mem_cons_self, distinct⟩
          · intro name present
            rcases List.mem_cons.mp present with rfl | other
            · exact fresh
            · exact fun known => othersFresh name other (List.mem_cons_of_mem _ known)

theorem object_members_reads (reads : ParserReads context .expression expression)
    {found : Parsed tokens (List (String × Expr))} (read : objectMembers context expression scope tokens = .ok found) :
    ∃ word, Derives (.members found.value) word ∧ Spans (word ++ [.mark .closeBrace]) tokens found.rest ∧
      (Expr.object found.value).Fits context.isFunction scope := by
  rw [objectMembers] at read
  split at read
  next close closed =>
    cases read
    exact ⟨[], .noMembers, take_spans (Token.mark_sign _) closed, List.nodup_nil, trivial⟩
  next =>
    obtain ⟨member, parsed, read⟩ := bind_ok read
    obtain ⟨others, parsedOthers, read⟩ := bind_ok read
    cases read
    obtain ⟨⟨first, derived, spans, fits⟩, _⟩ := object_member_reads reads parsed
    obtain ⟨word, othersDerived, othersSpan, othersFit, distinct, othersFresh⟩ :=
      more_object_members_reads reads parsedOthers
    refine ⟨first ++ word, .members derived othersDerived, ?_, ?_, fits, othersFit⟩
    · rw [List.append_assoc]
      exact spans_append spans othersSpan
    · exact List.nodup_cons.mpr ⟨fun again => othersFresh _ again List.mem_cons_self, distinct⟩

theorem named_reads (reads : ParserReads context .expression expression) {name : String} {position : Nat}
    {expr : Expr} {left : { left : List Lexeme // left.length ≤ rest.length }}
    (read : named context expression scope name position rest = .ok (expr, left)) (lexeme : Lexeme)
    (isName : lexeme.token = .identifier name) : Reads context scope (.primary expr) (lexeme :: rest) left.1 := by
  have taken : Spans [.identifier name] (lexeme :: rest) rest := isName ▸ spans_one lexeme
  rw [named] at read
  split at read
  next paren opened =>
    split at read
    next known =>
      obtain ⟨found, parsed, read⟩ := bind_ok read
      cases read
      obtain ⟨word, derived, spans, fits⟩ := arguments_reads reads parsed
      exact ⟨_, .call derived, spans_cons taken (spans_cons (take_spans (Token.mark_sign _) opened) spans), known, fits⟩
    next => cases read
  next =>
    split at read
    next present =>
      cases read
      exact ⟨_, .var name, taken, List.contains_iff_mem.mp present⟩
    next => cases read

theorem primary_reads (reads : ParserReads context .expression expression) :
    ParserReads context .primary (primary context expression) := by
  intro scope tokens found read
  cases tokens with
  | nil => cases read
  | cons lexeme rest =>
      obtain ⟨gap, spelling, token, position⟩ := lexeme
      simp only [primary] at read
      cases token with
      | number value =>
          cases read
          exact ⟨_, .number value, spans_one _, trivial⟩
      | text content =>
          cases read
          exact ⟨_, .text content, spans_one _, trivial⟩
      | keyword word =>
          cases word with
          | trueWord =>
              cases read
              exact ⟨_, .true, spans_one _, trivial⟩
          | falseWord =>
              cases read
              exact ⟨_, .false, spans_one _, trivial⟩
          | nullWord =>
              cases read
              exact ⟨_, .null, spans_one _, trivial⟩
          | newWord =>
              obtain ⟨brace, opened, read⟩ := bind_ok read
              obtain ⟨members, parsed, read⟩ := bind_ok read
              cases read
              obtain ⟨word, derived, spans, fits⟩ := object_members_reads reads parsed
              exact ⟨_, .object derived,
                spans_cons (spans_one _) (spans_cons (expect_spans (Token.mark_sign _) opened) spans), fits⟩
          | _ => cases read
      | mark mark =>
          cases mark with
          | openParen =>
              obtain ⟨inner, parsed, read⟩ := bind_ok read
              obtain ⟨close, closed, read⟩ := bind_ok read
              cases read
              obtain ⟨word, derived, spans, fits⟩ := reads parsed
              exact ⟨_, .parenthesized derived,
                spans_cons (spans_one _) (spans_append spans (expect_spans (Token.mark_sign _) closed)), fits⟩
          | _ => cases read
      | identifier name =>
          obtain ⟨⟨expr, left⟩, parsed, read⟩ := bind_ok read
          cases read
          exact named_reads reads parsed _ rfl

theorem aggregate_named {name : String} {function : Aggregate} (known : Aggregate.named? name = some function) :
    function.name = name := by
  simpa using List.find?_some known

theorem method_named {name : String} {asked : TextMethod} (known : TextMethod.named? name = some asked) :
    asked.name = name := by
  simpa using List.find?_some known

theorem suffix_reads (reads : ParserReads context .expression expression) {target : Expr}
    {found : Parsed tokens Expr} (read : suffix context expression scope target tokens = .ok found)
    (targetDerived : Derives (.suffixed target) first) (targetFits : target.Fits context.isFunction scope) :
    ∃ word, Derives (.suffixed found.value) (first ++ .mark .dot :: word) ∧ Spans word tokens found.rest ∧
      found.value.Fits context.isFunction scope := by
  obtain ⟨name, isName, read⟩ := bind_ok read
  have named := identifier_spans isName
  split at read
  next =>
    cases read
    exact ⟨_, .access targetDerived, named, targetFits⟩
  next paren opened =>
    have taken := spans_cons named (take_spans (Token.mark_sign _) opened)
    split at read
    next function known =>
      obtain ⟨found, parsed, read⟩ := bind_ok read
      cases read
      rw [← aggregate_named known] at taken
      rw [aggregateRest] at parsed
      split at parsed
      next close closed =>
        cases parsed
        exact ⟨_, .aggregate targetDerived, spans_append taken (take_spans (Token.mark_sign _) closed), targetFits⟩
      next =>
        obtain ⟨selector, parsedSelector, parsed⟩ := bind_ok parsed
        obtain ⟨close, closed, parsed⟩ := bind_ok parsed
        cases parsed
        obtain ⟨parameter, isParameter, parsedSelector⟩ := bind_ok parsedSelector
        obtain ⟨arrow, isArrow, parsedSelector⟩ := bind_ok parsedSelector
        obtain ⟨body, parsedBody, parsedSelector⟩ := bind_ok parsedSelector
        cases parsedSelector
        obtain ⟨word, derived, spans, fits⟩ := reads parsedBody
        refine ⟨_, .aggregateOf targetDerived derived, ?_, targetFits, fits⟩
        have signature := spans_cons (identifier_spans isParameter) (expect_spans (Token.mark_sign _) isArrow)
        exact spans_append taken
          (spans_append signature (spans_append spans (expect_spans (Token.mark_sign _) closed)))
    next =>
      split at read
      next asked known =>
        obtain ⟨found, parsed, read⟩ := bind_ok read
        split at read
        next fitting =>
          cases read
          rw [← method_named known] at taken
          obtain ⟨word, derived, spans, fits⟩ := arguments_reads reads parsed
          exact ⟨_, .method targetDerived derived, spans_append taken spans, targetFits, fitting, fits⟩
        next => cases read
      next => cases read

structure StageReads (context : Context) (below : Stage) : Prop where
  expression : ParserReads context .expression below.expression
  conditional : ParserReads context .expression below.conditional
  coalesce : ParserReads context .coalesce below.coalesce
  unary : ParserReads context .unary below.unary
  afterOperator : ∀ {level : Level} {tighter : List Level} {mark : Mark} {op : BinaryOp} {scope : List String}
    {tokens : List Lexeme} {left found : Parsed tokens Expr} {word : List Token},
    below.afterOperator level tighter op scope left = .ok found → level.operator? mark = some op →
    Derives (.chain (level :: tighter) left.value) word → Spans (word ++ [.mark mark]) tokens left.rest →
    left.value.Fits context.isFunction scope →
    Reads context scope (.chain (level :: tighter) found.value) tokens found.rest
  afterDot : ∀ {scope : List String} {tokens : List Lexeme} {target found : Parsed tokens Expr} {word : List Token},
    below.afterDot scope target = .ok found → Derives (.suffixed target.value) word →
    Spans (word ++ [.mark .dot]) tokens target.rest → target.value.Fits context.isFunction scope →
    Reads context scope (.suffixed found.value) tokens found.rest

variable {below : Stage}

theorem suffixes_reads (stages : StageReads context below) {target found : Parsed tokens Expr}
    (read : suffixes below scope target = .ok found)
    (before : Reads context scope (.suffixed target.value) tokens target.rest) :
    Reads context scope (.suffixed found.value) tokens found.rest := by
  simp only [suffixes] at read
  split at read
  next dot taken =>
    obtain ⟨word, derived, spans, fits⟩ := before
    exact stages.afterDot read derived (spans_append spans (take_spans (Token.mark_sign _) taken)) fits
  next =>
    cases read
    exact before

theorem unary_reads (stages : StageReads context below) (reads : ParserReads context .expression expression) :
    ParserReads context .unary (unary context below expression) := by
  intro scope tokens found read
  simp only [unary] at read
  split at read
  next op signed =>
    obtain ⟨operand, parsed, read⟩ := bind_ok read
    cases read
    obtain ⟨word, derived, spans, fits⟩ := stages.unary parsed
    exact ⟨_, .sign derived, spans_cons (take_unary_spans signed) spans, fits⟩
  next =>
    obtain ⟨target, parsed, read⟩ := bind_ok read
    obtain ⟨first, targetDerived, targetSpans, targetFits⟩ := primary_reads reads parsed
    obtain ⟨word, derived, spans, fits⟩ :=
      suffixes_reads stages read ⟨first, .plainPrimary targetDerived, targetSpans, targetFits⟩
    exact ⟨word, .plainSuffixed derived, spans, fits⟩

theorem more_operands_reads (stages : StageReads context below) {level : Level} {tighter : List Level}
    {left found : Parsed tokens Expr}
    (read : moreOperands below level tighter scope left = .ok found)
    (before : Reads context scope (.chain (level :: tighter) left.value) tokens left.rest) :
    Reads context scope (.chain (level :: tighter) found.value) tokens found.rest := by
  simp only [moreOperands] at read
  split at read
  next op taken =>
    obtain ⟨word, derived, spans, fits⟩ := before
    obtain ⟨mark, known, sign⟩ := take_operator_spans taken
    exact stages.afterOperator read known derived (spans_append spans sign) fits
  next =>
    cases read
    exact before

theorem operands_reads (stages : StageReads context below) (reads : ParserReads context .expression expression)
    (levels : List Level) : ParserReads context (.chain levels) (operands context below expression levels) := by
  induction levels with
  | nil =>
      intro scope tokens found read
      obtain ⟨word, derived, spans, fits⟩ := unary_reads stages reads read
      exact ⟨word, .plainUnary derived, spans, fits⟩
  | cons level tighter ih =>
      intro scope tokens found read
      obtain ⟨left, parsed, read⟩ := bind_ok read
      obtain ⟨word, derived, spans, fits⟩ := ih parsed
      exact more_operands_reads stages read ⟨word, .operand derived, spans, fits⟩

theorem coalesce_reads (stages : StageReads context below) (reads : ParserReads context .expression expression) :
    ParserReads context .coalesce (coalesce context below expression) := by
  intro scope tokens found read
  obtain ⟨left, parsed, read⟩ := bind_ok read
  obtain ⟨first, derived, spans, fits⟩ := operands_reads stages reads Level.all parsed
  split at read
  next mark taken =>
    obtain ⟨right, parsedRight, read⟩ := bind_ok read
    cases read
    obtain ⟨second, rightDerived, rightSpans, rightFits⟩ := stages.coalesce parsedRight
    exact ⟨_, .coalesce derived rightDerived,
      spans_append spans (spans_cons (take_spans (Token.mark_sign _) taken) rightSpans), fits, rightFits⟩
  next =>
    cases read
    exact ⟨first, .plainChain derived, spans, fits⟩

theorem conditional_reads (stages : StageReads context below) (reads : ParserReads context .expression expression) :
    ParserReads context .expression (conditional context below expression) := by
  intro scope tokens found read
  obtain ⟨test, parsed, read⟩ := bind_ok read
  obtain ⟨first, derived, spans, fits⟩ := coalesce_reads stages reads parsed
  split at read
  next mark taken =>
    obtain ⟨consequent, parsedConsequent, read⟩ := bind_ok read
    obtain ⟨colon, parsedColon, read⟩ := bind_ok read
    obtain ⟨alternative, parsedAlternative, read⟩ := bind_ok read
    cases read
    obtain ⟨second, secondDerived, secondSpans, secondFits⟩ := reads parsedConsequent
    obtain ⟨third, thirdDerived, thirdSpans, thirdFits⟩ := reads parsedAlternative
    have branches := spans_append secondSpans (spans_cons (expect_spans (Token.mark_sign _) parsedColon) thirdSpans)
    exact ⟨_, .conditional derived secondDerived thirdDerived,
      spans_append spans (spans_cons (take_spans (Token.mark_sign _) taken) branches), fits, secondFits, thirdFits⟩
  next =>
    cases read
    exact ⟨first, .plainTest derived, spans, fits⟩

theorem refusing_reads : StageReads context (Stage.refusing context) where
  expression := by intro _ _ _ read; cases read
  conditional := by intro _ _ _ read; cases read
  coalesce := by intro _ _ _ read; cases read
  unary := by intro _ _ _ read; cases read
  afterOperator := by intro _ _ _ _ _ _ _ _ _ read; cases read
  afterDot := by intro _ _ _ _ _ read; cases read

theorem above_reads (stages : StageReads context below) : StageReads context (above context below) where
  expression := stages.conditional
  conditional := conditional_reads stages stages.conditional
  coalesce := coalesce_reads stages stages.conditional
  unary := unary_reads stages stages.conditional
  afterOperator := by
    intro level tighter mark op scope tokens left found word read known leftDerived leftSpans leftFits
    obtain ⟨right, parsed, read⟩ := bind_ok read
    obtain ⟨second, derived, spans, fits⟩ := operands_reads stages stages.conditional tighter parsed
    have wholeSpans := spans_append leftSpans spans
    rw [List.append_assoc, List.singleton_append] at wholeSpans
    exact more_operands_reads stages read ⟨_, .operator known leftDerived derived, wholeSpans, leftFits, fits⟩
  afterDot := by
    intro scope tokens target found word read targetDerived targetSpans targetFits
    obtain ⟨found, parsed, read⟩ := bind_ok read
    obtain ⟨second, derived, spans, fits⟩ := suffix_reads stages.conditional parsed targetDerived targetFits
    have wholeSpans := spans_append targetSpans spans
    rw [List.append_assoc, List.singleton_append] at wholeSpans
    exact suffixes_reads stages read ⟨_, derived, wholeSpans, fits⟩

theorem stage_reads (levels : Nat) : StageReads context (stage context levels) := by
  induction levels with
  | zero => exact above_reads refusing_reads
  | succ levels ih => exact above_reads ih

theorem expression_reads : ParserReads context .expression (Grammar.expression context) :=
  (stage_reads maxDepth).expression

end Grammar
end DocumentViews
