import DocumentViews.Proofs.Query.Cost

set_option autoImplicit false

namespace DocumentViews.Grammar

variable {α : Type} {context : Context} {scope : List String} {tokens middle rest left : List Lexeme}
  {word first second : List Token} {links cost a b c : Nat}

def ReadsExpression (context : Context) (expr : Expr) (word : List Token) : Prop :=
  ∀ (levels : Nat) {scope : List String} {tokens rest : List Lexeme}, Spans word tokens rest →
    expr.Fits context.isFunction scope → Uncalled word rest → ExpressionEnds rest →
    Yields (word.length ≤ levels) ((staged context levels).conditional scope tokens) expr rest

def CostsExpression (context : Context) (expr : Expr) (word : List Token) (cost : Nat) : Prop :=
  ∀ (levels : Nat) {scope : List String} {tokens rest : List Lexeme}, Spans word tokens rest →
    expr.Fits context.isFunction scope → Uncalled word rest → ExpressionEnds rest →
    Hinges (cost ≤ levels) ((staged context levels).conditional scope tokens) expr rest

def CostsCoalesce (context : Context) (expr : Expr) (word : List Token) (cost : Nat) : Prop :=
  ∀ (levels : Nat) {scope : List String} {tokens rest : List Lexeme}, Spans word tokens rest →
    expr.Fits context.isFunction scope → Uncalled word rest → CoalesceEnds rest →
    Hinges (cost ≤ levels) ((staged context levels).coalesce scope tokens) expr rest

def CostsUnary (context : Context) (expr : Expr) (word : List Token) (cost : Nat) : Prop :=
  ∀ (levels : Nat) {scope : List String} {tokens rest : List Lexeme}, Spans word tokens rest →
    expr.Fits context.isFunction scope → Uncalled word rest → takeMark? .dot rest = none →
    Hinges (cost ≤ levels) ((staged context levels).unary scope tokens) expr rest

def CostsPrimary (context : Context) (expr : Expr) (word : List Token) (cost : Nat) : Prop :=
  ∀ (levels : Nat) {scope : List String} {tokens rest : List Lexeme}, Spans word tokens rest →
    expr.Fits context.isFunction scope → Uncalled word rest →
    Hinges (cost ≤ levels + 1) (primary context (staged context levels).conditional scope tokens) expr rest

-- The readers of chains and of suffixes go one level down with each link, so what has been
-- read so far resumes that many levels below.
def Reaches (levels links cost : Nat) (result : Except QueryError (Parsed tokens Expr))
    (resume : Nat → Parsed tokens Expr → Except QueryError (Parsed tokens Expr)) (value : Expr)
    (rest : List Lexeme) : Prop :=
  (cost ≤ levels + 1 ∧ ∃ below shorter, below + links = levels ∧ result = resume below ⟨value, rest, shorter⟩) ∨
    (¬ cost ≤ levels + 1 ∧ ∃ position, result = .error ⟨.nestedTooDeeply, position⟩)

def CostsSuffixed (context : Context) (expr : Expr) (word : List Token) (links cost : Nat) : Prop :=
  ∀ (levels : Nat) {scope : List String} {tokens rest : List Lexeme}, Spans word tokens rest →
    expr.Fits context.isFunction scope → Uncalled word rest →
    Reaches levels links cost
      (postfixed context (staged context levels) (staged context levels).conditional scope tokens)
      (fun below target => suffixes (staged context below) scope target) expr rest

def CostsChain (context : Context) : List Level → Expr → List Token → (links cost : Nat) → Prop
  | [], expr, word, _, cost => CostsUnary context expr word cost
  | level :: tighter, expr, word, links, cost =>
      (level :: tighter).Nodup → ∀ (levels : Nat) {scope : List String} {tokens rest : List Lexeme},
        Spans word tokens rest → expr.Fits context.isFunction scope → Uncalled word rest →
        ChainEnds tighter rest →
        Reaches levels links cost
          (operands context (staged context levels) (staged context levels).conditional (level :: tighter) scope tokens)
          (fun below left => moreOperands (staged context below) level tighter scope left) expr rest

theorem Reaches.hinges {levels : Nat} {result : Except QueryError (Parsed tokens Expr)}
    {resume : Nat → Parsed tokens Expr → Except QueryError (Parsed tokens Expr)} {value : Expr}
    (reaches : Reaches levels links cost result resume value rest)
    (ends : ∀ below shorter, resume below ⟨value, rest, shorter⟩ = .ok ⟨value, rest, shorter⟩) :
    Hinges (cost ≤ levels + 1) result value rest := by
  rcases reaches with ⟨enough, below, shorter, _, rfl⟩ | failed
  · exact .inl ⟨enough, shorter, ends below shorter⟩
  · exact .inr failed

theorem Hinges.reaches_bind {levels : Nat} {needed : Prop} {first : Except QueryError (Parsed middle α)}
    {next : Parsed middle α → Except QueryError (Parsed tokens Expr)}
    {resume : Nat → Parsed tokens Expr → Except QueryError (Parsed tokens Expr)} {value : α} {expr : Expr}
    (hinges : Hinges needed first value rest) (needs : cost ≤ levels + 1 → needed)
    (goes : needed → ∀ shorter, Reaches levels links cost (next ⟨value, rest, shorter⟩) resume expr left) :
    Reaches levels links cost (first >>= next) resume expr left := by
  rcases hinges with ⟨enough, shorter, rfl⟩ | ⟨scant, position, rfl⟩
  · exact goes enough shorter
  · exact .inr ⟨fun enough => scant (needs enough), position, rfl⟩

theorem chain_costs {levels : List Level} {expr : Expr} (costs : CostsChain context levels expr word links cost)
    (distinct : levels.Nodup) (below : Nat) (spans : Spans word tokens rest)
    (fits : expr.Fits context.isFunction scope) (uncalled : Uncalled word rest) (ends : ChainEnds levels rest) :
    Hinges (cost ≤ below + 1)
      (operands context (staged context below) (staged context below).conditional levels scope tokens) expr rest := by
  cases levels with
  | nil => exact costs (below + 1) spans fits uncalled ends.dot
  | cons level tighter =>
      have inner : ChainEnds tighter rest :=
        ⟨ends.dot, fun other present => ends.operator other (List.mem_cons_of_mem _ present)⟩
      refine (costs distinct below spans fits uncalled inner).hinges fun left shorter => ?_
      simp only [moreOperands, ends.operator level List.mem_cons_self]

theorem plain_test_costs {expr : Expr} (costs : CostsCoalesce context expr word cost) (takes : 0 < cost) :
    CostsExpression context expr word cost := by
  intro levels scope tokens rest spans fits uncalled ends
  cases levels with
  | zero => exact hinges_refused (Nat.not_le_of_gt takes) _
  | succ levels =>
      refine hinges_bind (costs (levels + 1) spans fits uncalled ends.toCoalesceEnds) id fun enough shorter => ?_
      simp only [ends.question]
      exact hinges_ok enough shorter

theorem conditional_costs {test consequent alternative : Expr} {third : List Token}
    (testCosts : CostsCoalesce context test first a) (consequentCosts : CostsExpression context consequent second b)
    (alternativeCosts : CostsExpression context alternative third c) :
    CostsExpression context (.conditional test consequent alternative)
      (first ++ .mark .question :: (second ++ .mark .colon :: third)) (max a (max (b + 1) (c + 1))) := by
  intro levels scope tokens rest spans fits uncalled ends
  obtain ⟨atQuestion, testSpans, questionSpans⟩ := spans_split spans
  cases levels with
  | zero => exact hinges_refused (by omega) _
  | succ levels =>
      have testEnds : CoalesceEnds atQuestion :=
        { dot := not_taken_mark (by decide) questionSpans
          operator := fun level _ => no_operator (by cases level <;> rfl) questionSpans
          coalesce := not_taken_mark (by decide) questionSpans }
      have testHinges := testCosts (levels + 1) testSpans fits.1 (uncalled_mark (by decide) questionSpans) testEnds
      refine hinges_bind testHinges (by omega) fun testFits _ => ?_
      obtain ⟨behindQuestion, _, question, branchSpans⟩ := take_of_spans (Token.mark_sign _) questionSpans
      obtain ⟨atColon, consequentSpans, colonSpans⟩ := spans_split branchSpans
      obtain ⟨behindColon, _, colon, alternativeSpans⟩ := expect_of_spans context (Token.mark_sign _) colonSpans
      simp only [takeMark?, question]
      have consequentHinges := consequentCosts levels consequentSpans fits.2.1 (uncalled_mark (by decide) colonSpans)
        (ends_at_mark (by decide) colonSpans)
      refine hinges_bind consequentHinges (by omega) fun consequentFits _ => ?_
      refine hinges_behind colon ?_
      have alternativeHinges := alternativeCosts levels alternativeSpans fits.2.2 uncalled.behind.behind ends
      refine hinges_bind alternativeHinges (by omega) fun alternativeFits shorter => ?_
      exact hinges_ok (by omega) _

theorem plain_chain_costs {expr : Expr} (costs : CostsChain context Level.all expr word links cost) (takes : 0 < cost) :
    CostsCoalesce context expr word cost := by
  intro levels scope tokens rest spans fits uncalled ends
  cases levels with
  | zero => exact hinges_refused (Nat.not_le_of_gt takes) _
  | succ levels =>
      refine hinges_bind (chain_costs costs (by decide) levels spans fits uncalled ends.toChainEnds) id
        fun enough shorter => ?_
      simp only [ends.coalesce]
      exact hinges_ok enough shorter

theorem coalesce_costs {before after : Expr} (beforeCosts : CostsChain context Level.all before first links a)
    (afterCosts : CostsCoalesce context after second b) :
    CostsCoalesce context (.binary .coalesce before after) (first ++ .mark .coalesce :: second) (max a (b + 1)) := by
  intro levels scope tokens rest spans fits uncalled ends
  obtain ⟨atMark, beforeSpans, markSpans⟩ := spans_split spans
  cases levels with
  | zero => exact hinges_refused (by omega) _
  | succ levels =>
      have beforeEnds : ChainEnds Level.all atMark :=
        ⟨not_taken_mark (by decide) markSpans, fun level _ => no_operator (by cases level <;> rfl) markSpans⟩
      have beforeHinges := chain_costs beforeCosts (by decide) levels beforeSpans fits.1
        (uncalled_mark (by decide) markSpans) beforeEnds
      refine hinges_bind beforeHinges (by omega) fun beforeFits _ => ?_
      obtain ⟨behind, _, mark, afterSpans⟩ := take_of_spans (Token.mark_sign _) markSpans
      simp only [takeMark?, mark]
      have afterHinges := afterCosts levels afterSpans fits.2 uncalled.behind ends
      refine hinges_bind afterHinges (by omega) fun afterFits _ => ?_
      exact hinges_ok (by omega) _

theorem operand_costs {level : Level} {tighter : List Level} {expr : Expr}
    (costs : CostsChain context tighter expr word links cost) :
    CostsChain context (level :: tighter) expr word 0 cost := by
  intro distinct levels scope tokens rest spans fits uncalled ends
  have hinges := chain_costs costs (List.nodup_cons.mp distinct).2 levels spans fits uncalled ends
  exact hinges.reaches_bind id fun enough shorter => .inl ⟨enough, levels, shorter, rfl, rfl⟩

theorem operator_costs {level : Level} {tighter : List Level} {mark : Mark} {op : BinaryOp} {before after : Expr}
    {others : Nat} (known : level.operator? mark = some op)
    (beforeCosts : CostsChain context (level :: tighter) before first links a)
    (afterCosts : CostsChain context tighter after second others b) (takes : 0 < b) :
    CostsChain context (level :: tighter) (.binary op before after) (first ++ .mark mark :: second) (links + 1)
      (max a (b + links + 1)) := by
  intro distinct levels scope tokens rest spans fits uncalled ends
  obtain ⟨atMark, beforeSpans, markSpans⟩ := spans_split spans
  obtain ⟨fresh, tighterDistinct⟩ := List.nodup_cons.mp distinct
  have single : ∀ other ∈ tighter, other.operator? mark = none := by
    intro other present
    have apart : level ≠ other := by
      rintro rfl
      exact fresh present
    cases level <;> cases other <;> first | exact absurd rfl apart | (cases mark <;> first | rfl | cases known)
  have notDot : mark ≠ .dot := by
    rintro rfl
    cases level <;> cases known
  have notParen : mark ≠ .openParen := by
    rintro rfl
    cases level <;> cases known
  have beforeEnds : ChainEnds tighter atMark :=
    ⟨not_taken_mark notDot markSpans, fun other present => no_operator (single other present) markSpans⟩
  rcases beforeCosts distinct levels beforeSpans fits.1 (uncalled_mark notParen markSpans) beforeEnds with
    ⟨enough, below, shorter, reached, resumes⟩ | ⟨scant, position, failed⟩
  · obtain ⟨behind, _, taken, afterSpans⟩ := operator_of_spans known markSpans
    rw [resumes]
    simp only [moreOperands, taken]
    cases below with
    | zero => exact .inr ⟨by omega, _, rfl⟩
    | succ below =>
        have afterHinges := chain_costs afterCosts tighterDistinct below afterSpans fits.2 uncalled.behind ends
        exact afterHinges.reaches_bind (by omega) fun afterFits _ => .inl ⟨by omega, below, _, by omega, rfl⟩
  · exact .inr ⟨by omega, position, failed⟩

theorem plain_suffixed_costs {expr : Expr} (costs : CostsSuffixed context expr word links cost) (takes : 0 < cost)
    {token : Token} {others : List Token} (leads : word = token :: others) (opens : Opens token) :
    CostsUnary context expr word cost := by
  intro levels scope tokens rest spans fits uncalled noDot
  cases levels with
  | zero => exact hinges_refused (Nat.not_le_of_gt takes) _
  | succ levels =>
      change Hinges _ (unary context (staged context levels) (staged context levels).conditional scope tokens) _ _
      rw [unary, no_sign opens (leads ▸ spans)]
      refine (costs levels spans fits uncalled).hinges fun below shorter => ?_
      simp only [suffixes, noDot]

theorem sign_costs {op : UnaryOp} {operand : Expr} (costs : CostsUnary context operand word cost) :
    CostsUnary context (.unary op operand) (.mark op.mark :: word) (cost + 1) := by
  intro levels scope tokens rest spans fits uncalled noDot
  obtain ⟨behind, _, taken, operandSpans⟩ := sign_of_spans spans
  cases levels with
  | zero => exact hinges_refused (by omega) _
  | succ levels =>
      change Hinges _ (unary context (staged context levels) (staged context levels).conditional scope tokens) _ _
      rw [unary, taken]
      have inner : Uncalled ([] ++ .mark op.mark :: word) rest := uncalled
      refine hinges_bind (costs levels operandSpans fits inner.behind noDot) (by omega) fun enough _ => ?_
      exact hinges_ok (by omega) _

theorem plain_primary_costs {expr : Expr} (costs : CostsPrimary context expr word cost) :
    CostsSuffixed context expr word 0 cost := by
  intro levels scope tokens rest spans fits uncalled
  exact (costs levels spans fits uncalled).reaches_bind id fun enough shorter => .inl ⟨enough, levels, shorter, rfl, rfl⟩

theorem suffix_costs {target expr : Expr} {inner : List Token} {extra : Nat}
    (costs : CostsSuffixed context target word links a) (targetFits : target.Fits context.isFunction scope)
    (goes : ∀ (below : Nat) {behind : List Lexeme}, Spans inner behind rest →
      Hinges (extra ≤ below) (suffix context (staged context below).conditional scope target behind) expr rest)
    (levels : Nat) (spans : Spans (word ++ .mark .dot :: inner) tokens rest) :
    Reaches levels (links + 1) (max a (extra + links + 2))
      (postfixed context (staged context levels) (staged context levels).conditional scope tokens)
      (fun below target => suffixes (staged context below) scope target) expr rest := by
  obtain ⟨atDot, targetSpans, dotSpans⟩ := spans_split spans
  rcases costs levels targetSpans targetFits (uncalled_mark (by decide) dotSpans) with
    ⟨enough, below, shorter, reached, resumes⟩ | ⟨scant, position, failed⟩
  · obtain ⟨behind, _, dot, innerSpans⟩ := take_of_spans (Token.mark_sign _) dotSpans
    rw [resumes]
    simp only [suffixes, takeMark?, dot]
    cases below with
    | zero => exact .inr ⟨by omega, _, rfl⟩
    | succ below =>
        exact (goes below innerSpans).reaches_bind (by omega) fun innerFits _ => .inl ⟨by omega, below, _, by omega, rfl⟩
  · exact .inr ⟨by omega, position, failed⟩

theorem access_costs {target : Expr} {name : String} (costs : CostsSuffixed context target word links cost) :
    CostsSuffixed context (.member target name) (word ++ [.mark .dot, .identifier name]) (links + 1)
      (max cost (links + 2)) := by
  intro levels scope tokens rest spans fits uncalled
  have nothing : max cost (links + 2) = max cost (0 + links + 2) := by rw [Nat.zero_add]
  rw [nothing]
  refine suffix_costs costs fits (fun below behind nameSpans => ?_) levels spans
  have plain : takeMark? .openParen rest = none := uncalled name (by simp)
  obtain ⟨others, _, named, ends⟩ := identifier_of_spans context nameSpans
  obtain rfl := spans_end ends
  refine hinges_behind named ?_
  simp only [plain]
  exact hinges_ok (Nat.zero_le _) _

theorem method_suffix_named (asked : TextMethod) :
    Aggregate.named? asked.name = none ∧ TextMethod.named? asked.name = some asked := by
  cases asked <;> exact ⟨rfl, rfl⟩

theorem aggregate_suffix_named (function : Aggregate) : Aggregate.named? function.name = some function := by
  cases function <;> rfl

def CostsArguments (context : Context) (list : List Expr) (word : List Token) (cost : Nat) : Prop :=
  ∀ (levels : Nat) {scope : List String} {tokens rest : List Lexeme},
    Spans (word ++ [.mark .closeParen]) tokens rest → Expr.AllFit context.isFunction scope list →
    Hinges (cost ≤ levels) (arguments context (staged context levels).conditional scope tokens) list rest

def CostsMoreArguments (context : Context) (list : List Expr) (word : List Token) (cost : Nat) : Prop :=
  ∀ (levels : Nat) {scope : List String} {tokens rest : List Lexeme},
    Spans (word ++ [.mark .closeParen]) tokens rest → Expr.AllFit context.isFunction scope list →
    Hinges (cost ≤ levels) (moreArguments context (staged context levels).conditional scope tokens) list rest

theorem method_costs {target : Expr} {asked : TextMethod} {list : List Expr} {inner : List Token}
    (costs : CostsSuffixed context target word links a) (listCosts : CostsArguments context list inner b) :
    CostsSuffixed context (.method target asked list)
      (word ++ .mark .dot :: .identifier asked.name :: .mark .openParen :: (inner ++ [.mark .closeParen])) (links + 1)
      (max a (b + links + 2)) := by
  intro levels scope tokens rest spans fits uncalled
  refine suffix_costs costs fits.1 (fun below behind nameSpans => ?_) levels spans
  obtain ⟨atParen, _, named, parenSpans⟩ := identifier_of_spans context nameSpans
  obtain ⟨others, _, paren, innerSpans⟩ := take_of_spans (Token.mark_sign _) parenSpans
  refine hinges_behind named ?_
  simp only [takeMark?, paren, method_suffix_named asked]
  refine hinges_bind (listCosts below innerSpans fits.2.2) id fun enough _ => ?_
  simp only [fits.2.1, if_pos]
  exact hinges_ok enough _

theorem aggregate_costs {source : Expr} {function : Aggregate} (costs : CostsSuffixed context source word links cost) :
    CostsSuffixed context (.aggregate source function)
      (word ++ [.mark .dot, .identifier function.name, .mark .openParen, .mark .closeParen]) (links + 1)
      (max cost (links + 2)) := by
  intro levels scope tokens rest spans fits uncalled
  have nothing : max cost (links + 2) = max cost (0 + links + 2) := by rw [Nat.zero_add]
  rw [nothing]
  refine suffix_costs costs fits (fun below behind nameSpans => ?_) levels spans
  obtain ⟨atParen, _, named, parenSpans⟩ := identifier_of_spans context nameSpans
  obtain ⟨atClose, _, paren, closeSpans⟩ := take_of_spans (Token.mark_sign _) parenSpans
  obtain ⟨others, _, close, ends⟩ := take_of_spans (Token.mark_sign _) closeSpans
  obtain rfl := spans_end ends
  refine hinges_behind named ?_
  simp only [takeMark?, paren, aggregate_suffix_named, aggregateRest, close]
  exact hinges_ok (Nat.zero_le _) _

theorem lambda_hinges (context : Context) {needed : Prop} {expression : ExprParser} {parameter : String} {body : Expr}
    {inner : List Token}
    (spans : Spans (.identifier parameter :: .mark .arrow :: inner) tokens rest)
    (costs : ∀ {atBody : List Lexeme}, Spans inner atBody rest →
      Hinges needed (expression (parameter :: scope) atBody) body rest) :
    Hinges needed (lambda context expression scope tokens) (parameter, body) rest := by
  obtain ⟨atArrow, _, named, arrowSpans⟩ := identifier_of_spans context spans
  obtain ⟨atBody, _, arrow, bodySpans⟩ := expect_of_spans context (Token.mark_sign .arrow) arrowSpans
  refine hinges_behind named (hinges_behind arrow ?_)
  exact hinges_bind (costs bodySpans) id fun enough _ => hinges_ok enough _

theorem aggregate_of_costs {source body : Expr} {function : Aggregate} {parameter : String} {inner : List Token}
    (costs : CostsSuffixed context source word links a) (bodyCosts : CostsExpression context body inner b) :
    CostsSuffixed context (.aggregateOf source function parameter body)
      (word ++ .mark .dot :: .identifier function.name :: .mark .openParen :: .identifier parameter ::
        .mark .arrow :: (inner ++ [.mark .closeParen])) (links + 1) (max a (b + links + 2)) := by
  intro levels scope tokens rest spans fits uncalled
  refine suffix_costs costs fits.1 (fun below behind nameSpans => ?_) levels spans
  obtain ⟨atParen, _, named, parenSpans⟩ := identifier_of_spans context nameSpans
  obtain ⟨atParameter, _, paren, lambdaSpans⟩ := take_of_spans (Token.mark_sign _) parenSpans
  have notClosed : take? (.mark .closeParen) atParameter = none := not_taken (Token.mark_sign _) (by simp) lambdaSpans
  obtain ⟨atClose, headSpans, closeSpans⟩ := spans_split
    (show Spans ((.identifier parameter :: .mark .arrow :: inner) ++ [.mark .closeParen]) atParameter rest from lambdaSpans)
  obtain ⟨others, _, close, ends⟩ := expect_of_spans context (Token.mark_sign _) closeSpans
  obtain rfl := spans_end ends
  have found := lambda_hinges context headSpans fun bodySpans =>
    bodyCosts below bodySpans fits.2 (uncalled_mark (by decide) closeSpans) (ends_at_mark (by decide) closeSpans)
  have whole : Hinges (b ≤ below)
      (aggregateRest context (staged context below).conditional scope source function atParameter)
      (.aggregateOf source function parameter body) rest := by
    simp only [aggregateRest, takeMark?, notClosed]
    refine hinges_bind found id fun enough _ => ?_
    exact hinges_behind close (hinges_ok enough _)
  refine hinges_behind named ?_
  simp only [takeMark?, paren, aggregate_suffix_named]
  exact hinges_bind whole id fun enough _ => hinges_ok enough _

theorem literal_costs {token : Token} {value : Value}
    (reads : ∀ (expression : ExprParser) (scope : List String) (lexeme : Lexeme) (others : List Lexeme), lexeme.token = token →
      primary context expression scope (lexeme :: others) = .ok (.first (.literal value) others)) :
    CostsPrimary context (.literal value) [token] 1 := by
  intro levels scope tokens rest spans _ _
  obtain ⟨lexeme, others, rfl, isToken, ends⟩ := spans_uncons spans
  obtain rfl := spans_end ends
  rw [reads _ scope lexeme rest isToken]
  exact hinges_ok (Nat.le_add_left _ _) _

theorem var_costs (name : String) : CostsPrimary context (.var name) [.identifier name] 1 := by
  intro levels scope tokens rest spans fits uncalled
  obtain ⟨lexeme, others, rfl, isToken, ends⟩ := spans_uncons spans
  obtain rfl := spans_end ends
  have bound : scope.contains name = true := List.contains_iff_mem.mpr fits
  have plain : takeMark? .openParen rest = none := uncalled name rfl
  simp only [primary, isToken, named, plain, bound, if_pos]
  exact hinges_ok (Nat.le_add_left _ _) _

theorem call_costs {function : String} {list : List Expr} {inner : List Token}
    (costs : CostsArguments context list inner cost) :
    CostsPrimary context (.call function list)
      (.identifier function :: .mark .openParen :: (inner ++ [.mark .closeParen])) (cost + 1) := by
  intro levels scope tokens rest spans fits _
  obtain ⟨lexeme, atParen, rfl, isToken, parenSpans⟩ := spans_uncons spans
  obtain ⟨others, _, paren, innerSpans⟩ := take_of_spans (Token.mark_sign _) parenSpans
  simp only [primary, isToken, named, takeMark?, paren, fits.1, if_pos]
  rcases costs levels innerSpans fits.2 with ⟨enough, shorter, read⟩ | ⟨scant, position, failed⟩
  · rw [read]
    exact hinges_ok (Nat.succ_le_succ enough) _
  · rw [failed]
    exact .inr ⟨fun enough => scant (Nat.le_of_succ_le_succ enough), position, rfl⟩

theorem parenthesized_costs {expr : Expr} {inner : List Token} (costs : CostsExpression context expr inner cost) :
    CostsPrimary context expr (.mark .openParen :: (inner ++ [.mark .closeParen])) (cost + 1) := by
  intro levels scope tokens rest spans fits _
  obtain ⟨lexeme, others, rfl, isToken, bodySpans⟩ := spans_uncons spans
  obtain ⟨atClose, innerSpans, closeSpans⟩ := spans_split bodySpans
  obtain ⟨behind, _, close, ends⟩ := expect_of_spans context (Token.mark_sign .closeParen) closeSpans
  obtain rfl := spans_end ends
  have hinges := costs levels innerSpans fits (uncalled_mark (by decide) closeSpans) (ends_at_mark (by decide) closeSpans)
  simp only [primary, isToken]
  refine hinges_bind hinges Nat.le_of_succ_le_succ fun enough _ => ?_
  exact hinges_behind close (hinges_ok (Nat.succ_le_succ enough) _)

theorem no_arguments_cost : CostsArguments context [] [] 0 := by
  intro levels scope tokens rest spans _
  obtain ⟨others, _, close, ends⟩ := take_of_spans (Token.mark_sign _) spans
  obtain rfl := spans_end ends
  simp only [arguments, takeMark?, close]
  exact hinges_ok (Nat.zero_le _) _

theorem no_more_arguments_cost : CostsMoreArguments context [] [] 0 := by
  intro levels scope tokens rest spans _
  obtain ⟨others, _, close, ends⟩ := take_of_spans (Token.mark_sign _) spans
  obtain rfl := spans_end ends
  rw [moreArguments]
  simp only [takeMark?, close]
  exact hinges_ok (Nat.zero_le _) _

theorem argument_hinges {argument : Expr} {list : List Expr} {others : List Token}
    (derived : Derives (.moreArguments list) others) (costs : CostsExpression context argument first a)
    (othersCost : CostsMoreArguments context list others b) (levels : Nat)
    (spans : Spans ((first ++ others) ++ [.mark .closeParen]) tokens rest)
    (fits : Expr.AllFit context.isFunction scope (argument :: list)) :
    ∃ middle, Hinges (a ≤ levels) ((staged context levels).conditional scope tokens) argument middle ∧
      Hinges (b ≤ levels) (moreArguments context (staged context levels).conditional scope middle) list rest := by
  rw [List.append_assoc] at spans
  obtain ⟨middle, argumentSpans, othersSpan⟩ := spans_split spans
  have leads : ∃ mark word, mark ∈ [Mark.colon, .comma, .closeParen, .closeBrace] ∧
      others ++ [.mark .closeParen] = .mark mark :: word := by
    cases derived with
    | noMoreArguments => exact ⟨.closeParen, _, by decide, rfl⟩
    | moreArguments => exact ⟨.comma, _, by decide, rfl⟩
  obtain ⟨mark, word, closing, begins⟩ := leads
  have ends : ExpressionEnds middle := ends_at_mark closing (begins ▸ othersSpan)
  have uncalled : Uncalled first middle :=
    uncalled_mark (by rintro rfl; simp at closing) (begins ▸ othersSpan)
  exact ⟨middle, costs levels argumentSpans fits.1 uncalled ends, othersCost levels othersSpan fits.2⟩

theorem not_closed {expr : Expr} (derived : Derives (.expression expr) word) (spans : Spans (word ++ second) tokens rest) :
    takeMark? .closeParen tokens = none := by
  obtain ⟨token, others, rfl, begins⟩ := expression_leads derived
  exact not_taken (Token.mark_sign _) (begins_ne_close begins) spans

theorem arguments_cost {argument : Expr} {list : List Expr} {others : List Token}
    (argumentDerived : Derives (.expression argument) first) (derived : Derives (.moreArguments list) others)
    (costs : CostsExpression context argument first a) (othersCost : CostsMoreArguments context list others b) :
    CostsArguments context (argument :: list) (first ++ others) (max a b) := by
  intro levels scope tokens rest spans fits
  obtain ⟨middle, argumentHinges, othersHinge⟩ := argument_hinges derived costs othersCost levels spans fits
  rw [List.append_assoc] at spans
  simp only [arguments, not_closed argumentDerived spans]
  refine hinges_bind argumentHinges (by omega) fun argumentFits _ => ?_
  refine hinges_bind othersHinge (by omega) fun othersFit _ => ?_
  exact hinges_ok (Nat.max_le.mpr ⟨argumentFits, othersFit⟩) _

theorem more_arguments_cost {argument : Expr} {list : List Expr} {others : List Token}
    (derived : Derives (.moreArguments list) others) (costs : CostsExpression context argument first a)
    (othersCost : CostsMoreArguments context list others b) :
    CostsMoreArguments context (argument :: list) (.mark .comma :: (first ++ others)) (max a b) := by
  intro levels scope tokens rest spans fits
  have open_ : takeMark? .closeParen tokens = none := not_taken_mark (by decide) spans
  obtain ⟨behind, _, comma, listSpans⟩ := expect_of_spans context (Token.mark_sign .comma) spans
  obtain ⟨middle, argumentHinges, othersHinge⟩ := argument_hinges derived costs othersCost levels listSpans fits
  rw [moreArguments]
  simp only [open_]
  refine hinges_behind comma ?_
  refine hinges_bind argumentHinges (by omega) fun argumentFits _ => ?_
  refine hinges_bind othersHinge (by omega) fun othersFit _ => ?_
  exact hinges_ok (Nat.max_le.mpr ⟨argumentFits, othersFit⟩) _

def CostsMember (context : Context) (name : String) (value : Expr) (word : List Token) (cost : Nat) : Prop :=
  ∀ (levels : Nat) {scope used : List String} {tokens rest : List Lexeme}, Spans word tokens rest →
    value.Fits context.isFunction scope → name ∉ used → Uncalled word rest → ExpressionEnds rest →
    takeMark? .assign rest = none →
    Hinges (cost ≤ levels) (objectMember context (staged context levels).conditional scope used tokens)
      (name, value) rest

def CostsMembers (context : Context) (list : List (String × Expr)) (word : List Token) (cost : Nat) : Prop :=
  ∀ (levels : Nat) {scope : List String} {tokens rest : List Lexeme},
    Spans (word ++ [.mark .closeBrace]) tokens rest → (list.map Prod.fst).Nodup →
    Expr.MembersFit context.isFunction scope list →
    Hinges (cost ≤ levels) (objectMembers context (staged context levels).conditional scope tokens) list rest

def CostsMoreMembers (context : Context) (list : List (String × Expr)) (word : List Token) (cost : Nat) : Prop :=
  ∀ (levels : Nat) {scope used : List String} {tokens rest : List Lexeme},
    Spans (word ++ [.mark .closeBrace]) tokens rest → (list.map Prod.fst).Nodup →
    (∀ name ∈ list.map Prod.fst, name ∉ used) → Expr.MembersFit context.isFunction scope list →
    Hinges (cost ≤ levels) (moreObjectMembers context (staged context levels).conditional scope used tokens)
      list rest

theorem given_member_costs {name : String} {value : Expr} (costs : CostsExpression context value word cost) :
    CostsMember context name value (.identifier name :: .mark .assign :: word) cost := by
  intro levels scope used tokens rest spans fits fresh uncalled ends _
  obtain ⟨behind, _, given, valueSpans⟩ := given_of_spans spans
  have inner : Uncalled ([.identifier name] ++ .mark .assign :: word) rest := uncalled
  simp only [objectMember, given]
  refine hinges_bind (costs levels valueSpans fits inner.behind ends) id fun enough _ => ?_
  refine hinges_bind (hinges_ok trivial _) (fun _ => trivial) fun _ _ => ?_
  simp only [Parsed.map, List.contains_eq_mem, fresh, decide_false, Bool.false_eq_true, if_false]
  exact hinges_ok enough _

theorem implied_member_costs {name : String} {value : Expr} (implied : impliedName? value = some name)
    (derived : Derives (.expression value) word) (costs : CostsExpression context value word cost) :
    CostsMember context name value word cost := by
  intro levels scope used tokens rest spans fits fresh uncalled ends noAssign
  simp only [objectMember, not_given derived spans noAssign]
  refine hinges_bind (costs levels spans fits uncalled ends) id fun enough shorter => ?_
  simp only [implied]
  refine hinges_bind (hinges_ok trivial shorter) (fun _ => trivial) fun _ _ => ?_
  simp only [List.contains_eq_mem, fresh, decide_false, Bool.false_eq_true, if_false]
  exact hinges_ok enough _

theorem object_costs {list : List (String × Expr)} {inner : List Token} (costs : CostsMembers context list inner cost) :
    CostsPrimary context (.object list) (.keyword .newWord :: .mark .openBrace :: (inner ++ [.mark .closeBrace]))
      (cost + 1) := by
  intro levels scope tokens rest spans fits _
  obtain ⟨lexeme, atBrace, rfl, isToken, braceSpans⟩ := spans_uncons spans
  obtain ⟨others, _, brace, innerSpans⟩ := expect_of_spans context (Token.mark_sign .openBrace) braceSpans
  simp only [primary, isToken]
  refine hinges_behind brace ?_
  refine hinges_bind (costs levels innerSpans fits.1 fits.2) Nat.le_of_succ_le_succ fun enough _ => ?_
  exact hinges_ok (Nat.succ_le_succ enough) _

theorem no_members_cost : CostsMembers context [] [] 0 := by
  intro levels scope tokens rest spans _ _
  obtain ⟨others, _, close, ends⟩ := take_of_spans (Token.mark_sign _) spans
  obtain rfl := spans_end ends
  simp only [objectMembers, takeMark?, close]
  exact hinges_ok (Nat.zero_le _) _

theorem no_more_members_cost : CostsMoreMembers context [] [] 0 := by
  intro levels scope used tokens rest spans _ _ _
  obtain ⟨others, _, close, ends⟩ := take_of_spans (Token.mark_sign _) spans
  obtain rfl := spans_end ends
  rw [moreObjectMembers]
  simp only [takeMark?, close]
  exact hinges_ok (Nat.zero_le _) _

theorem trailing_comma_cost : CostsMoreMembers context [] [.mark .comma] 0 := by
  intro levels scope used tokens rest spans _ _ _
  have separated : takeMark? .closeBrace tokens = none := not_taken_mark (by decide) spans
  obtain ⟨behind, _, comma, closeSpans⟩ := expect_of_spans context (Token.mark_sign .comma) spans
  obtain ⟨others, _, close, ends⟩ := take_of_spans (Token.mark_sign .closeBrace) closeSpans
  obtain rfl := spans_end ends
  rw [moreObjectMembers]
  simp only [separated]
  refine hinges_behind comma ?_
  simp only [takeMark?, close]
  exact hinges_ok (Nat.zero_le _) _

theorem member_hinges {name : String} {value : Expr} {list : List (String × Expr)} {others : List Token}
    (derived : Derives (.moreMembers list) others) (costs : CostsMember context name value first a)
    (othersCost : CostsMoreMembers context list others b) (levels : Nat) (used : List String)
    (spans : Spans ((first ++ others) ++ [.mark .closeBrace]) tokens rest)
    (distinct : (((name, value) :: list).map Prod.fst).Nodup)
    (fresh : ∀ known ∈ ((name, value) :: list).map Prod.fst, known ∉ used)
    (fits : Expr.MembersFit context.isFunction scope ((name, value) :: list)) :
    ∃ middle, Hinges (a ≤ levels)
        (objectMember context (staged context levels).conditional scope used tokens) (name, value) middle ∧
      Hinges (b ≤ levels)
        (moreObjectMembers context (staged context levels).conditional scope (name :: used) middle) list rest := by
  rw [List.append_assoc] at spans
  obtain ⟨middle, memberSpans, othersSpan⟩ := spans_split spans
  have leads : ∃ mark word, mark ∈ [Mark.colon, .comma, .closeParen, .closeBrace] ∧
      others ++ [.mark .closeBrace] = .mark mark :: word := by
    cases derived with
    | noMoreMembers => exact ⟨.closeBrace, _, by decide, rfl⟩
    | trailingComma => exact ⟨.comma, _, by decide, rfl⟩
    | moreMembers => exact ⟨.comma, _, by decide, rfl⟩
  obtain ⟨mark, word, closing, begins⟩ := leads
  rw [begins] at othersSpan
  have ends : ExpressionEnds middle := ends_at_mark closing othersSpan
  have uncalled : Uncalled first middle := uncalled_mark (by rintro rfl; simp at closing) othersSpan
  have noAssign : takeMark? .assign middle = none := not_taken_mark (by rintro rfl; simp at closing) othersSpan
  obtain ⟨notAgain, othersDistinct⟩ := List.nodup_cons.mp distinct
  refine ⟨middle, costs levels memberSpans fits.1 (fresh name List.mem_cons_self) uncalled ends noAssign,
    othersCost levels (begins ▸ othersSpan) othersDistinct (fun known present => ?_) fits.2⟩
  rw [List.mem_cons, not_or]
  exact ⟨fun same => notAgain (same ▸ present), fresh known (List.mem_cons_of_mem _ present)⟩

theorem not_closed_brace {name : String} {value : Expr} (derived : Derives (.member name value) word)
    (spans : Spans (word ++ second) tokens rest) : takeMark? .closeBrace tokens = none := by
  obtain ⟨token, others, rfl, begins⟩ := derives_leads derived
  exact not_taken (Token.mark_sign _) (begins_ne_close_brace begins) spans

theorem members_cost {name : String} {value : Expr} {list : List (String × Expr)} {others : List Token}
    (memberDerived : Derives (.member name value) first) (derived : Derives (.moreMembers list) others)
    (costs : CostsMember context name value first a) (othersCost : CostsMoreMembers context list others b) :
    CostsMembers context ((name, value) :: list) (first ++ others) (max a b) := by
  intro levels scope tokens rest spans distinct fits
  obtain ⟨middle, memberHinges, othersHinge⟩ :=
    member_hinges derived costs othersCost levels [] spans distinct (by simp) fits
  rw [List.append_assoc] at spans
  simp only [objectMembers, not_closed_brace memberDerived spans]
  refine hinges_bind memberHinges (by omega) fun memberFits _ => ?_
  refine hinges_bind othersHinge (by omega) fun othersFit _ => ?_
  exact hinges_ok (Nat.max_le.mpr ⟨memberFits, othersFit⟩) _

theorem more_members_cost {name : String} {value : Expr} {list : List (String × Expr)} {others : List Token}
    (memberDerived : Derives (.member name value) first) (derived : Derives (.moreMembers list) others)
    (costs : CostsMember context name value first a) (othersCost : CostsMoreMembers context list others b) :
    CostsMoreMembers context ((name, value) :: list) (.mark .comma :: (first ++ others)) (max a b) := by
  intro levels scope used tokens rest spans distinct fresh fits
  have separated : takeMark? .closeBrace tokens = none := not_taken_mark (by decide) spans
  obtain ⟨behind, _, comma, listSpans⟩ := expect_of_spans context (Token.mark_sign .comma) spans
  obtain ⟨middle, memberHinges, othersHinge⟩ :=
    member_hinges derived costs othersCost levels _ listSpans distinct fresh fits
  have memberSpans : Spans (first ++ (others ++ [.mark .closeBrace])) behind rest := List.append_assoc .. ▸ listSpans
  rw [moreObjectMembers]
  simp only [separated]
  refine hinges_behind comma ?_
  simp only [not_closed_brace memberDerived memberSpans]
  refine hinges_bind memberHinges (by omega) fun memberFits _ => ?_
  refine hinges_bind othersHinge (by omega) fun othersFit _ => ?_
  exact hinges_ok (Nat.max_le.mpr ⟨memberFits, othersFit⟩) _

def Phrase.Costs (context : Context) : Phrase → List Token → (links cost : Nat) → Prop
  | expression expr, word, _, cost => CostsExpression context expr word cost
  | coalesce expr, word, _, cost => CostsCoalesce context expr word cost
  | chain levels expr, word, links, cost => CostsChain context levels expr word links cost
  | unary expr, word, _, cost => CostsUnary context expr word cost
  | suffixed expr, word, links, cost => CostsSuffixed context expr word links cost
  | primary expr, word, _, cost => CostsPrimary context expr word cost
  | arguments list, word, _, cost => CostsArguments context list word cost
  | moreArguments list, word, _, cost => CostsMoreArguments context list word cost
  | member name value, word, _, cost => CostsMember context name value word cost
  | members list, word, _, cost => CostsMembers context list word cost
  | moreMembers list, word, _, cost => CostsMoreMembers context list word cost

theorem needs_costs {phrase : Phrase} (context : Context) (needs : Needs phrase word links cost) :
    phrase.Costs context word links cost := by
  induction needs with
  | plainTest needs costs => exact plain_test_costs costs needs.takes
  | conditional _ _ _ test consequent alternative => exact conditional_costs test consequent alternative
  | plainChain needs costs => exact plain_chain_costs costs needs.takes
  | coalesce _ _ before after => exact coalesce_costs before after
  | plainUnary _ costs => exact costs
  | operand _ costs => exact operand_costs costs
  | operator known _ needs before after => exact operator_costs known before after needs.takes
  | plainSuffixed needs costs =>
      obtain ⟨token, others, leads, opens⟩ := derives_leads needs.derives
      exact plain_suffixed_costs costs needs.takes leads opens
  | sign _ costs => exact sign_costs costs
  | plainPrimary _ costs => exact plain_primary_costs costs
  | access _ costs => exact access_costs costs
  | method _ _ costs arguments => exact method_costs costs arguments
  | aggregate _ costs => exact aggregate_costs costs
  | aggregateOf _ _ costs body => exact aggregate_of_costs costs body
  | number | text | true | false | null => exact literal_costs fun _ _ _ _ is => by simp only [primary, is]
  | var name => exact var_costs name
  | call _ arguments => exact call_costs arguments
  | parenthesized _ costs => exact parenthesized_costs costs
  | object _ costs => exact object_costs costs
  | noArguments => exact no_arguments_cost
  | arguments argument list costs othersCost => exact arguments_cost argument.derives list.derives costs othersCost
  | noMoreArguments => exact no_more_arguments_cost
  | moreArguments _ list costs othersCost => exact more_arguments_cost list.derives costs othersCost
  | named _ costs => exact given_member_costs costs
  | implied implied needs costs => exact implied_member_costs implied needs.derives costs
  | noMembers => exact no_members_cost
  | members member list costs othersCost => exact members_cost member.derives list.derives costs othersCost
  | noMoreMembers => exact no_more_members_cost
  | trailingComma => exact trailing_comma_cost
  | moreMembers member list costs othersCost => exact more_members_cost member.derives list.derives costs othersCost

theorem derives_read {expr : Expr} (context : Context) (derived : Derives (.expression expr) word) :
    ReadsExpression context expr word := by
  intro levels scope tokens rest spans fits uncalled ends
  obtain ⟨links, cost, needs, _, small⟩ := derived.needs
  have costs : CostsExpression context expr word cost := needs_costs context needs
  exact (costs levels spans fits uncalled ends).yields (Nat.le_trans small)

-- Whether a token can carry on an expression that ends with that token: with a suffix, with
-- an operator or, behind a name, with arguments.
def carriesOn (last : Option Token) : Token → Bool
  | .mark .dot | .mark .question | .mark .coalesce => true
  | .mark .openParen =>
      match last with
      | some (.identifier _) => true
      | _ => false
  | .mark mark => Level.all.any fun level => (level.operator? mark).isSome
  | _ => false

theorem not_taken_behind {mark : Mark} {last : Option Token} (carries : carriesOn last (.mark mark) = true)
    (stops : ∀ next ∈ rest.head?, carriesOn last next.token = false) : takeMark? mark rest = none := by
  cases rest with
  | nil => rfl
  | cons next others =>
      refine if_neg fun same => ?_
      have stopped := stops next rfl
      rw [(same_iff_of_sign (Token.mark_sign mark)).mp same, carries] at stopped
      cases stopped

theorem expression_ends {last : Option Token} (stops : ∀ next ∈ rest.head?, carriesOn last next.token = false) :
    ExpressionEnds rest where
  dot := not_taken_behind rfl stops
  operator := by
    intro level _
    cases rest with
    | nil => rfl
    | cons next others =>
        have stopped := stops next rfl
        simp only [takeOperator?]
        split
        next mark isMark =>
          rw [isMark] at stopped
          cases level <;> cases mark <;> first | rfl | cases stopped
        next => rfl
  coalesce := not_taken_behind rfl stops
  question := not_taken_behind rfl stops

theorem uncalled_of_stops (stops : ∀ next ∈ rest.head?, carriesOn word.getLast? next.token = false) :
    Uncalled word rest := by
  intro name last
  have carries : carriesOn word.getLast? (.mark .openParen) = true := by
    rw [last]
    rfl
  exact not_taken_behind carries stops

/-- The reader of expressions, at every number of levels that are left, accepts the grammar.
What it reads is derived from just the tokens that it takes. And an expression that the front
of the tokens derives, that fits the scope and that the next token does not carry on is read,
with just the tokens of that front, unless it is refused for nesting. It is not refused when
there are as many levels as tokens. -/
theorem expression_accepts_grammar (context : Context) (levels : Nat) (scope : List String) (tokens : List Lexeme) :
    (∀ found, (stage context levels).expression scope tokens = .ok found →
      ∃ consumed, tokens = consumed ++ found.rest ∧
        Derives (.expression found.value) (consumed.map Lexeme.token) ∧
        found.value.Fits context.isFunction scope) ∧
    (∀ consumed rest expr, tokens = consumed ++ rest → Derives (.expression expr) (consumed.map Lexeme.token) →
      expr.Fits context.isFunction scope →
      (∀ next ∈ rest.head?, carriesOn (consumed.map Lexeme.token).getLast? next.token = false) →
      (∃ shorter, (stage context levels).expression scope tokens = .ok ⟨expr, rest, shorter⟩) ∨
        levels < consumed.length ∧
          ∃ position, (stage context levels).expression scope tokens = .error ⟨.nestedTooDeeply, position⟩) := by
  constructor
  · intro found read
    obtain ⟨word, derived, ⟨consumed, front, rfl⟩, fits⟩ := (stage_reads levels).expression read
    exact ⟨consumed, front, derived, fits⟩
  · intro consumed rest expr front derived fits stops
    have reads : ReadsExpression context expr (consumed.map Lexeme.token) := derives_read context derived
    rw [stage_eq_staged]
    rcases reads levels ⟨consumed, front, rfl⟩ fits (uncalled_of_stops stops) (expression_ends stops) with
      read | ⟨scant, failed⟩
    · exact .inl read
    · exact .inr ⟨by simpa using scant, failed⟩

def bare (token : Token) : Lexeme := ⟨[], [], token, 0⟩

-- The suffix binds tighter than the sign, and the closing parenthesis is left.
theorem signed_access_accepted :
    ∃ shorter, (stage ⟨fun _ => false, 0⟩ maxDepth).expression ["d"]
      ([.mark .minus, .identifier "d", .mark .dot, .identifier "A", .mark .closeParen].map bare) =
        .ok ⟨.unary .negate (.member (.var "d") "A"), [bare (.mark .closeParen)], shorter⟩ := by
  have derived : Derives (.expression (.unary .negate (.member (.var "d") "A")))
      [.mark .minus, .identifier "d", .mark .dot, .identifier "A"] :=
    .plainTest (.plainChain (.operand (.operand (.operand (.operand (.operand (.operand (.plainUnary
      (.sign (.plainSuffixed (.access (.plainPrimary (.var "d")))))))))))))
  refine ((expression_accepts_grammar ⟨fun _ => false, 0⟩ maxDepth ["d"] _).2
    ([.mark .minus, .identifier "d", .mark .dot, .identifier "A"].map bare) [bare (.mark .closeParen)] _ rfl derived
    List.mem_cons_self (fun next found => ?_)).resolve_right fun refused => absurd refused.1 (by decide)
  obtain rfl := Option.some.inj found
  rfl

end DocumentViews.Grammar
