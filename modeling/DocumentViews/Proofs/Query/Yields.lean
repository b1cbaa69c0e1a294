import DocumentViews.Proofs.Query.Derivation

set_option autoImplicit false

namespace DocumentViews.Grammar

variable {α β : Type} {context : Context} {scope : List String} {tokens middle outer rest left : List Lexeme}
  {word first second : List Token}

-- The stages counted from the refusing one.
def staged (context : Context) : Nat → Stage
  | 0 => Stage.refusing context
  | levels + 1 => above context (staged context levels)

theorem stage_eq_staged (context : Context) (levels : Nat) : stage context levels = staged context (levels + 1) := by
  induction levels with
  | zero => rfl
  | succ levels ih =>
      rw [stage, ih]
      rfl

theorem spans_split (spans : Spans (first ++ second) tokens rest) :
    ∃ middle, Spans first tokens middle ∧ Spans second middle rest := by
  obtain ⟨consumed, rfl, spelled⟩ := spans
  obtain ⟨front, back, rfl, isFirst, isSecond⟩ := List.map_eq_append_iff.mp spelled
  exact ⟨back ++ rest, ⟨front, List.append_assoc _ _ _, isFirst⟩, back, rfl, isSecond⟩

theorem spans_uncons {token : Token} (spans : Spans (token :: word) tokens rest) :
    ∃ lexeme others, tokens = lexeme :: others ∧ lexeme.token = token ∧ Spans word others rest := by
  obtain ⟨consumed, rfl, spelled⟩ := spans
  obtain ⟨lexeme, others, rfl, isToken, isWord⟩ := List.map_eq_cons_iff.mp spelled
  exact ⟨lexeme, others ++ rest, rfl, isToken, others, rfl, isWord⟩

theorem spans_end (spans : Spans [] tokens rest) : rest = tokens := by
  obtain ⟨consumed, rfl, none⟩ := spans
  obtain rfl := List.map_eq_nil_iff.mp none
  rfl

theorem take_of_spans {wanted : Token} (isSign : wanted.IsSign) (spans : Spans (wanted :: word) tokens rest) :
    ∃ others shorter, take? wanted tokens = some ⟨(), others, shorter⟩ ∧ Spans word others rest := by
  obtain ⟨lexeme, others, rfl, isToken, spansOthers⟩ := spans_uncons spans
  refine ⟨others, Nat.lt_succ_self _, ?_, spansOthers⟩
  rw [take?, if_pos ((same_iff_of_sign isSign).mpr isToken)]
  rfl

theorem operator_of_spans {level : Level} {mark : Mark} {op : BinaryOp} (known : level.operator? mark = some op)
    (spans : Spans (.mark mark :: word) tokens rest) :
    ∃ others shorter, takeOperator? level tokens = some ⟨op, others, shorter⟩ ∧ Spans word others rest := by
  obtain ⟨lexeme, others, rfl, isToken, spansOthers⟩ := spans_uncons spans
  refine ⟨others, Nat.lt_succ_self _, ?_, spansOthers⟩
  simp only [takeOperator?, isToken, known]
  rfl

theorem sign_of_spans {op : UnaryOp} (spans : Spans (.mark op.mark :: word) tokens rest) :
    ∃ others shorter, takeUnary? tokens = some ⟨op, others, shorter⟩ ∧ Spans word others rest := by
  obtain ⟨lexeme, others, rfl, isToken, spansOthers⟩ := spans_uncons spans
  refine ⟨others, Nat.lt_succ_self _, ?_, spansOthers⟩
  cases op <;> simp only [takeUnary?, isToken, UnaryOp.mark] <;> rfl

theorem given_of_spans {name : String} (spans : Spans (.identifier name :: .mark .assign :: word) tokens rest) :
    ∃ others shorter, givenName? tokens = some ⟨name, others, shorter⟩ ∧ Spans word others rest := by
  obtain ⟨lexeme, behind, rfl, isName, spansBehind⟩ := spans_uncons spans
  obtain ⟨next, others, rfl, isAssign, spansOthers⟩ := spans_uncons spansBehind
  refine ⟨others, by simp only [List.length_cons]; omega, ?_, spansOthers⟩
  simp only [givenName?, isName, isAssign]

theorem not_taken {wanted found : Token} (isSign : wanted.IsSign) (differs : found ≠ wanted)
    (spans : Spans (found :: word) tokens rest) : take? wanted tokens = none := by
  obtain ⟨lexeme, others, rfl, isToken, _⟩ := spans_uncons spans
  rw [take?, if_neg fun same => differs (isToken ▸ (same_iff_of_sign isSign).mp same)]

theorem no_operator {level : Level} {mark : Mark} (unknown : level.operator? mark = none)
    (spans : Spans (.mark mark :: word) tokens rest) : takeOperator? level tokens = none := by
  obtain ⟨lexeme, others, rfl, isToken, _⟩ := spans_uncons spans
  simp only [takeOperator?, isToken, unknown, Option.map_none]

def Opens : Token → Prop
  | .mark mark => mark = .openParen
  | _ => True

def Begins (token : Token) : Prop := Opens token ∨ token = .mark .bang ∨ token = .mark .minus

def Phrase.Leads : Phrase → List Token → Prop
  | primary _, word | suffixed _, word => ∃ token others, word = token :: others ∧ Opens token
  | expression _, word | coalesce _, word | chain _ _, word | unary _, word | member _ _, word =>
      ∃ token others, word = token :: others ∧ Begins token
  | _, _ => True

theorem derives_leads {phrase : Phrase} (derivation : Derives phrase word) : phrase.Leads word := by
  induction derivation with
  | plainTest _ leads => exact leads
  | conditional _ _ _ leads =>
      obtain ⟨token, others, rfl, begins⟩ := leads
      exact ⟨token, _, rfl, begins⟩
  | plainChain _ leads => exact leads
  | coalesce _ _ leads =>
      obtain ⟨token, others, rfl, begins⟩ := leads
      exact ⟨token, _, rfl, begins⟩
  | plainUnary _ leads => exact leads
  | operand _ leads => exact leads
  | operator _ _ _ leads =>
      obtain ⟨token, others, rfl, begins⟩ := leads
      exact ⟨token, _, rfl, begins⟩
  | plainSuffixed _ leads =>
      obtain ⟨token, others, rfl, opens⟩ := leads
      exact ⟨token, others, rfl, .inl opens⟩
  | @sign op => exact ⟨_, _, rfl, by cases op <;> simp [Begins, UnaryOp.mark]⟩
  | plainPrimary _ leads => exact leads
  | access _ leads =>
      obtain ⟨token, others, rfl, opens⟩ := leads
      exact ⟨token, _, rfl, opens⟩
  | method _ _ leads =>
      obtain ⟨token, others, rfl, opens⟩ := leads
      exact ⟨token, _, rfl, opens⟩
  | aggregate _ leads =>
      obtain ⟨token, others, rfl, opens⟩ := leads
      exact ⟨token, _, rfl, opens⟩
  | aggregateOf _ _ leads =>
      obtain ⟨token, others, rfl, opens⟩ := leads
      exact ⟨token, _, rfl, opens⟩
  | named => exact ⟨_, _, rfl, .inl trivial⟩
  | implied _ _ leads => exact leads
  | parenthesized => exact ⟨_, _, rfl, rfl⟩
  | number | text | true | false | null | var | call | object => exact ⟨_, _, rfl, trivial⟩
  | noArguments | arguments | noMoreArguments | moreArguments | noMembers | members | noMoreMembers
    | trailingComma | moreMembers => trivial

theorem expression_leads {expr : Expr} (derivation : Derives (.expression expr) word) :
    ∃ token others, word = token :: others ∧ Begins token := derives_leads derivation

theorem begins_ne_close {token : Token} (begins : Begins token) : token ≠ .mark .closeParen := by
  rintro rfl
  rcases begins with opens | signed | signed
  · cases opens
  · cases signed
  · cases signed

theorem begins_ne_close_brace {token : Token} (begins : Begins token) : token ≠ .mark .closeBrace := by
  rintro rfl
  rcases begins with opens | signed | signed
  · cases opens
  · cases signed
  · cases signed

theorem no_sign {token : Token} (opens : Opens token) (spans : Spans (token :: word) tokens rest) :
    takeUnary? tokens = none := by
  obtain ⟨lexeme, others, rfl, isToken, _⟩ := spans_uncons spans
  cases token with
  | mark mark =>
      have isParen : mark = .openParen := opens
      simp only [takeUnary?, isToken, isParen]
  | _ => simp only [takeUnary?, isToken]

def Phrase.Unnamed : Phrase → List Token → Prop
  | arguments _, _ | moreArguments _, _ | member _ _, _ | members _, _ | moreMembers _, _ => True
  | _, word => ∀ (tail : List Token) (name : String) (others : List Token), (∀ more, tail ≠ .mark .assign :: more) →
      word ++ tail ≠ .identifier name :: .mark .assign :: others

theorem derives_unnamed {phrase : Phrase} (derivation : Derives phrase word) : phrase.Unnamed word := by
  have behind : ∀ {front : List Token} {mark : Mark} {back : List Token}, mark ≠ .assign →
      (∀ (tail : List Token) (name : String) (others : List Token), (∀ more, tail ≠ .mark .assign :: more) →
        front ++ tail ≠ .identifier name :: .mark .assign :: others) →
      ∀ (tail : List Token) (name : String) (others : List Token), (∀ more, tail ≠ .mark .assign :: more) →
        (front ++ .mark mark :: back) ++ tail ≠ .identifier name :: .mark .assign :: others := by
    intro front mark back differs unnamed tail name others _
    rw [List.append_assoc, List.cons_append]
    refine unnamed _ name others fun more same => differs ?_
    injection same with sameToken
    exact Token.mark.inj sameToken
  induction derivation with
  | plainTest _ unnamed => exact unnamed
  | conditional _ _ _ unnamed => exact behind (by decide) unnamed
  | plainChain _ unnamed => exact unnamed
  | coalesce _ _ unnamed => exact behind (by decide) unnamed
  | plainUnary _ unnamed => exact unnamed
  | operand _ unnamed => exact unnamed
  | @operator level _ mark _ _ _ _ _ known _ _ unnamed =>
      refine behind ?_ unnamed
      rintro rfl
      cases level <;> cases known
  | plainSuffixed _ unnamed => exact unnamed
  | plainPrimary _ unnamed => exact unnamed
  | access _ unnamed => exact behind (by decide) unnamed
  | method _ _ unnamed => exact behind (by decide) unnamed
  | aggregate _ unnamed => exact behind (by decide) unnamed
  | aggregateOf _ _ unnamed => exact behind (by decide) unnamed
  | var name =>
      intro tail other others free same
      injection same with _ sameTail
      exact free others sameTail
  | sign | number | text | true | false | null | call | parenthesized | object =>
      intro tail name others _ same
      simp at same
  | named | implied | noArguments | arguments | noMoreArguments | moreArguments | noMembers | members
    | noMoreMembers | trailingComma | moreMembers => trivial

theorem not_given {expr : Expr} (derivation : Derives (.expression expr) word) (spans : Spans word tokens rest)
    (free : takeMark? .assign rest = none) : givenName? tokens = none := by
  cases given : givenName? tokens with
  | none => rfl
  | some taken =>
      obtain ⟨name, behind, spelled⟩ := given_name_spans given
      obtain ⟨consumed, rfl, rfl⟩ := spans
      refine absurd ?_ (derives_unnamed derivation (rest.map Lexeme.token) taken.value
        (taken.rest.map Lexeme.token) ?_)
      · have same := congrArg (List.map Lexeme.token) behind
        rw [List.map_append, List.map_append, spelled] at same
        exact same
      · intro more same
        obtain ⟨lexeme, others, rfl, isAssign, _⟩ := List.map_eq_cons_iff.mp same
        rw [takeMark?, take?, if_pos ((same_iff_of_sign (Token.mark_sign _)).mpr isAssign)] at free
        cases free

-- The outcome of a reader: exactly this value and this rest. It may refuse for nesting, but
-- not with ample levels.
def Yields (ample : Prop) (result : Except QueryError (Parsed tokens α)) (value : α) (rest : List Lexeme) : Prop :=
  (∃ shorter, result = .ok ⟨value, rest, shorter⟩) ∨
    (¬ ample ∧ ∃ position, result = .error ⟨.nestedTooDeeply, position⟩)

def Hinges (ample : Prop) (result : Except QueryError (Parsed tokens α)) (value : α) (rest : List Lexeme) : Prop :=
  (ample ∧ ∃ shorter, result = .ok ⟨value, rest, shorter⟩) ∨
    (¬ ample ∧ ∃ position, result = .error ⟨.nestedTooDeeply, position⟩)

theorem hinges_ok {ample : Prop} {value : α} (enough : ample) (shorter : rest.length < tokens.length) :
    Hinges ample (.ok (⟨value, rest, shorter⟩ : Parsed tokens α)) value rest := .inl ⟨enough, shorter, rfl⟩

theorem hinges_refused {ample : Prop} (scant : ¬ ample) (value : α) :
    Hinges ample (context.fail (α := Parsed tokens α) middle .nestedTooDeeply) value rest := .inr ⟨scant, _, rfl⟩

theorem Hinges.yields {ample needed : Prop} {result : Except QueryError (Parsed tokens α)} {value : α}
    (hinges : Hinges needed result value rest) (needs : ample → needed) : Yields ample result value rest := by
  rcases hinges with ⟨_, done⟩ | ⟨scant, failed⟩
  · exact .inl done
  · exact .inr ⟨fun enough => scant (needs enough), failed⟩

theorem hinges_bind {ample needed : Prop} {first : Except QueryError (Parsed tokens α)}
    {next : Parsed tokens α → Except QueryError (Parsed outer β)} {value : α} {result : β}
    (hinges : Hinges needed first value rest) (needs : ample → needed)
    (goes : needed → ∀ shorter, Hinges ample (next ⟨value, rest, shorter⟩) result left) :
    Hinges ample (first >>= next) result left := by
  rcases hinges with ⟨enough, shorter, rfl⟩ | ⟨scant, position, rfl⟩
  · exact goes enough shorter
  · exact .inr ⟨fun enough => scant (needs enough), position, rfl⟩

theorem hinges_behind {ample : Prop} {first : Except QueryError (Parsed tokens α)}
    {next : Parsed tokens α → Except QueryError (Parsed outer β)} {value : α} {result : β}
    {shorter : rest.length < tokens.length} (done : first = .ok ⟨value, rest, shorter⟩)
    (goes : Hinges ample (next ⟨value, rest, shorter⟩) result left) : Hinges ample (first >>= next) result left := by
  rw [done]
  exact goes

theorem expect_of_spans (context : Context) {wanted : Token} (isSign : wanted.IsSign)
    (spans : Spans (wanted :: word) tokens rest) :
    ∃ others shorter, expect context wanted tokens = .ok ⟨(), others, shorter⟩ ∧ Spans word others rest := by
  obtain ⟨others, shorter, taken, spansOthers⟩ := take_of_spans isSign spans
  exact ⟨others, shorter, by rw [expect, taken], spansOthers⟩

theorem identifier_of_spans (context : Context) {name : String} (spans : Spans (.identifier name :: word) tokens rest) :
    ∃ others shorter, identifier context tokens = .ok ⟨name, others, shorter⟩ ∧ Spans word others rest := by
  obtain ⟨lexeme, others, rfl, isToken, spansOthers⟩ := spans_uncons spans
  refine ⟨others, Nat.lt_succ_self _, ?_, spansOthers⟩
  rw [identifier, isToken]
  rfl

-- What the tokens behind a phrase must not be, for the parser to stop there.
def Uncalled (word : List Token) (rest : List Lexeme) : Prop :=
  ∀ name, word.getLast? = some (.identifier name) → takeMark? .openParen rest = none

structure ChainEnds (levels : List Level) (rest : List Lexeme) : Prop where
  dot : takeMark? .dot rest = none
  operator : ∀ level ∈ levels, takeOperator? level rest = none

structure CoalesceEnds (rest : List Lexeme) : Prop extends ChainEnds Level.all rest where
  coalesce : takeMark? .coalesce rest = none

structure ExpressionEnds (rest : List Lexeme) : Prop extends CoalesceEnds rest where
  question : takeMark? .question rest = none

theorem not_taken_mark {wanted found : Mark} (differs : found ≠ wanted)
    (spans : Spans (.mark found :: word) tokens rest) : takeMark? wanted tokens = none :=
  not_taken (Token.mark_sign wanted) (fun same => differs (Token.mark.inj same)) spans

theorem uncalled_mark {mark : Mark} (differs : mark ≠ .openParen) (spans : Spans (.mark mark :: word) tokens rest) :
    Uncalled first tokens := fun _ _ => not_taken_mark differs spans

theorem Uncalled.behind {mark : Mark} (uncalled : Uncalled (first ++ .mark mark :: second) rest) :
    Uncalled second rest := by
  intro name last
  refine uncalled name ?_
  rw [List.getLast?_append, List.getLast?_cons, last]
  rfl

theorem ends_at_mark {mark : Mark} (closing : mark ∈ [Mark.colon, .comma, .closeParen, .closeBrace])
    (spans : Spans (.mark mark :: word) tokens rest) : ExpressionEnds tokens where
  dot := not_taken_mark (by rintro rfl; simp at closing) spans
  operator := fun level _ => by
    refine no_operator ?_ spans
    simp only [List.mem_cons, List.not_mem_nil, or_false] at closing
    rcases closing with rfl | rfl | rfl | rfl <;> cases level <;> rfl
  coalesce := not_taken_mark (by rintro rfl; simp at closing) spans
  question := not_taken_mark (by rintro rfl; simp at closing) spans

end DocumentViews.Grammar
