import DocumentViews.Proofs.Query.Calls

set_option autoImplicit false

namespace DocumentViews.Grammar

-- What a routine reads at a cursor. There are as many stages below as levels are left.
def Routine.read (context : Context) (tokens : List Lexeme) (routine : Routine) (cursor : Cursor) :
    Except QueryError (Parsed (cursor.ahead tokens) routine.Answer) :=
  let below := staged context (maxDepth - cursor.depth)
  match routine with
  | .expression => below.conditional cursor.scope (cursor.ahead tokens)
  | .conditional => Grammar.conditional context below below.conditional cursor.scope (cursor.ahead tokens)
  | .coalesce => Grammar.coalesce context below below.conditional cursor.scope (cursor.ahead tokens)
  | .operands level =>
      Grammar.operands context below below.conditional (level :: level.tighter) cursor.scope (cursor.ahead tokens)
  | .unary => Grammar.unary context below below.conditional cursor.scope (cursor.ahead tokens)
  | .suffixed => postfixed context below below.conditional cursor.scope (cursor.ahead tokens)
  | .primary => Grammar.primary context below.conditional cursor.scope (cursor.ahead tokens)
  | .object => do
      let brace ← expectMark context .openBrace (cursor.ahead tokens)
      let members ← objectMembers context below.conditional cursor.scope brace.rest
      .ok ((brace.after members).map .object)
  | .lambda => Grammar.lambda context below.conditional cursor.scope (cursor.ahead tokens)
  | .arguments => Grammar.arguments context below.conditional cursor.scope (cursor.ahead tokens)

structure Near (entry left : Cursor) : Prop where
  scope : left.scope = entry.scope
  above : entry.depth ≤ left.depth
  below : left.depth ≤ max entry.depth maxDepth + 1

-- An answer agrees with what the grammar reads, and leaves the cursor where it was entered,
-- but for the tokens that were read.
inductive Meets (tokens : List Lexeme) (entry : Cursor) {input : List Lexeme} {α : Type} :
    Except QueryError (Parsed input α) → Except QueryError α → Cursor → Prop
  | ok {value : α} {index : Nat} {shorter : (tokens.drop index).length < input.length} :
      index ≤ tokens.length →
      Meets tokens entry (.ok ⟨value, tokens.drop index, shorter⟩) (.ok value) ⟨index, entry.scope, entry.depth⟩
  | error {error : QueryError} {left : Cursor} : Near entry left → Meets tokens entry (.error error) (.error error) left

structure Stands (base checks depth : Nat) : Prop where
  raised : depth = base + checks
  bounded : checks = 0 ∨ depth ≤ maxDepth

section

variable (context : Context) (tokens : List Lexeme) (entry : Cursor)

-- A round stands for the rest of what its routine reads.
def Round.Continues {input : List Lexeme} : {routine : Routine} → Round routine → Cursor →
    Except QueryError (Parsed input routine.Answer) → Prop
  | _, .operands level mark left, cursor, expected =>
      mark = entry.depth ∧ ∃ shorter, expected =
        Grammar.moreOperands (staged context (maxDepth - cursor.depth)) level level.tighter cursor.scope
          ⟨left, cursor.ahead tokens, shorter⟩
  | _, .suffixes mark target, cursor, expected =>
      mark = entry.depth ∧ ∃ shorter, expected =
        Grammar.suffixes (staged context (maxDepth - cursor.depth)) cursor.scope ⟨target, cursor.ahead tokens, shorter⟩
  | _, .members found, cursor, expected =>
      cursor.depth = entry.depth ∧ ∃ fewer, expected = do
        let others ← moreObjectMembers context (staged context (maxDepth - cursor.depth)).conditional cursor.scope
          (found.map Prod.fst).reverse (cursor.ahead tokens)
        .ok ((others.map fun members => .object (found ++ members)).within fewer)
  | _, .arguments found, cursor, expected =>
      cursor.depth = entry.depth ∧ ∃ fewer, expected = do
        let others ← Grammar.moreArguments context (staged context (maxDepth - cursor.depth)).conditional cursor.scope
          (cursor.ahead tokens)
        .ok ((others.map fun list => found ++ list).within fewer)

-- A task of a routine that was entered at a cursor, when so many checks are passed: it calls
-- only what it may call, begins its next round with fewer tokens ahead than so many, and its
-- own answer meets what is expected if the answers that it gets do.
def Task.Keeps {input : List Lexeme} {routine : Routine} (bound : Nat) :
    Task routine → (checks : Nat) → Except QueryError (Parsed input routine.Answer) → Prop
  | .done result cursor, _, expected => Meets tokens entry expected result cursor
  | .call callee cursor resume, checks, expected =>
      Stands entry.depth checks cursor.depth ∧ (checks = 0 → callee.rank < routine.rank) ∧
        ∀ result left, Meets tokens cursor (callee.read context tokens cursor) result left →
          (resume result left).Keeps bound checks expected
  | .descend cursor resume, checks, expected =>
      Stands entry.depth checks cursor.depth ∧
        (maxDepth ≤ cursor.depth → Meets tokens entry expected
          (.error ⟨.nestedTooDeeply, context.position (cursor.ahead tokens)⟩) cursor.sink) ∧
        (cursor.depth < maxDepth → (resume cursor.sink).Keeps bound (checks + 1) expected)
  | .again round cursor, checks, expected =>
      Stands entry.depth checks cursor.depth ∧ cursor.scope = entry.scope ∧ cursor.index ≤ tokens.length ∧
        (cursor.ahead tokens).length < bound ∧ round.Continues context tokens entry cursor expected

end

theorem Stands.start (depth : Nat) : Stands depth 0 depth := ⟨rfl, .inl rfl⟩

theorem Stands.deeper {base checks depth : Nat} (stands : Stands base checks depth) (room : depth < maxDepth) :
    Stands base (checks + 1) (depth + 1) := ⟨by rw [stands.raised, Nat.add_assoc], .inr room⟩

theorem Stands.unchecked {checks depth : Nat} (stands : Stands depth checks depth) : checks = 0 :=
  Nat.left_eq_add.mp stands.raised

theorem Stands.near {base checks depth index left : Nat} {scope : List String} (stands : Stands base checks depth) :
    Near ⟨index, scope, base⟩ ⟨left, scope, depth⟩ := by
  obtain ⟨raised, bounded⟩ := stands
  exact ⟨rfl, by dsimp only; omega, by dsimp only; omega⟩

theorem staged_refuses (context : Context) {depth : Nat} (full : maxDepth ≤ depth) :
    staged context (maxDepth - depth) = Stage.refusing context := by rw [Nat.sub_eq_zero_of_le full, staged]

theorem staged_descends (context : Context) {depth : Nat} (room : depth < maxDepth) :
    staged context (maxDepth - depth) = above context (staged context (maxDepth - (depth + 1))) := by
  rw [show maxDepth - depth = maxDepth - (depth + 1) + 1 by omega, staged]

section

variable {context : Context} {tokens input : List Lexeme} {routine : Routine} {bound checks base depth start index : Nat}
  {scope : List String} {α β : Type}

theorem keeps_done {value : routine.Answer} {shorter : (tokens.drop index).length < input.length}
    (within : index ≤ tokens.length) :
    (Task.done (.ok value) ⟨index, scope, depth⟩ : Task routine).Keeps context tokens ⟨start, scope, depth⟩ bound checks
      (.ok ⟨value, tokens.drop index, shorter⟩) := .ok within

theorem keeps_done_of_eq {value read : routine.Answer} {shorter : (tokens.drop index).length < input.length}
    (within : index ≤ tokens.length) (same : read = value) :
    (Task.done (.ok value) ⟨index, scope, depth⟩ : Task routine).Keeps context tokens ⟨start, scope, depth⟩ bound checks
      (.ok ⟨read, tokens.drop index, shorter⟩) := by
  subst same
  exact keeps_done within

theorem keeps_fail {error : QueryError} (stands : Stands base checks depth) :
    (Task.done (.error error) ⟨index, scope, depth⟩ : Task routine).Keeps context tokens ⟨start, scope, base⟩ bound
      checks (.error error : Except QueryError (Parsed input routine.Answer)) := .error stands.near

theorem keeps_call_then {callee : Routine} {change : Cursor → Cursor} {inner : List String}
    {next : callee.Answer → Cursor → Task routine}
    {more : Parsed (tokens.drop index) callee.Answer → Except QueryError (Parsed input routine.Answer)}
    (stands : Stands base checks depth) (ranked : checks = 0 → callee.rank < routine.rank)
    (failed : ∀ left, Near ⟨index, inner, depth⟩ left → Near ⟨start, scope, base⟩ (change left))
    (goes : ∀ value left shorter, left ≤ tokens.length →
      (next value (change ⟨left, inner, depth⟩)).Keeps context tokens ⟨start, scope, base⟩ bound checks
        (more ⟨value, tokens.drop left, shorter⟩)) :
    ((Code.callThen callee change).run ⟨index, inner, depth⟩ next).Keeps context tokens ⟨start, scope, base⟩ bound checks
      (callee.read context tokens ⟨index, inner, depth⟩ >>= more) := by
  refine ⟨stands, ranked, fun result left meets => ?_⟩
  generalize callee.read context tokens ⟨index, inner, depth⟩ = parsed at meets
  cases meets with
  | ok within => exact goes _ _ _ within
  | error near => exact .error (failed _ near)

theorem keeps_call {callee : Routine} {code : callee.Answer → Code routine α} {next : α → Cursor → Task routine}
    {more : Parsed (tokens.drop index) callee.Answer → Except QueryError (Parsed input routine.Answer)}
    (stands : Stands base checks depth) (ranked : checks = 0 → callee.rank < routine.rank)
    (goes : ∀ value left shorter, left ≤ tokens.length →
      ((code value).run ⟨left, scope, depth⟩ next).Keeps context tokens ⟨start, scope, base⟩ bound checks
        (more ⟨value, tokens.drop left, shorter⟩)) :
    ((Code.call callee >>= code).run ⟨index, scope, depth⟩ next).Keeps context tokens ⟨start, scope, base⟩ bound checks
      (callee.read context tokens ⟨index, scope, depth⟩ >>= more) := by
  rw [Code.bind_run, Code.call]
  refine keeps_call_then stands ranked (fun left near => ?_) goes
  obtain ⟨sameScope, above, below⟩ := near
  obtain ⟨raised, bounded⟩ := stands
  dsimp only at sameScope above below
  exact ⟨sameScope, show base ≤ left.depth by omega, show left.depth ≤ max base maxDepth + 1 by omega⟩

theorem keeps_descend {code : Code routine α} {next : α → Cursor → Task routine}
    {expected : Except QueryError (Parsed input routine.Answer)} (stands : Stands base checks depth)
    (refused : maxDepth ≤ depth → expected = context.fail (tokens.drop index) .nestedTooDeeply)
    (goes : depth < maxDepth → (code.run ⟨index, scope, depth + 1⟩ next).Keeps context tokens ⟨start, scope, base⟩ bound
      (checks + 1) expected) :
    ((do Code.descend; code).run ⟨index, scope, depth⟩ next).Keeps context tokens ⟨start, scope, base⟩ bound checks
      expected := by
  obtain ⟨raised, bounded⟩ := stands
  refine ⟨⟨raised, bounded⟩, fun full => ?_, goes⟩
  rw [refused full]
  exact .error ⟨rfl, show base ≤ depth + 1 by omega, show depth + 1 ≤ max base maxDepth + 1 by omega⟩

-- A call one level deeper, after which the cursor rises again. The stage below reads what the
-- routine reads there.
theorem keeps_nested (callee : Routine) {code : callee.Answer → Code routine α} {next : α → Cursor → Task routine}
    {more : Parsed (tokens.drop index) callee.Answer → Except QueryError (Parsed input routine.Answer)}
    (parser : Stage → Except QueryError (Parsed (tokens.drop index) callee.Answer)) (stands : Stands base checks depth)
    (refused : parser (Stage.refusing context) = context.fail (tokens.drop index) .nestedTooDeeply)
    (deeper : parser (above context (staged context (maxDepth - (depth + 1)))) =
      callee.read context tokens ⟨index, scope, depth + 1⟩)
    (goes : ∀ value left shorter, left ≤ tokens.length →
      ((code value).run ⟨left, scope, depth⟩ next).Keeps context tokens ⟨start, scope, base⟩ bound (checks + 1)
        (more ⟨value, tokens.drop left, shorter⟩)) :
    ((Code.nested callee >>= code).run ⟨index, scope, depth⟩ next).Keeps context tokens ⟨start, scope, base⟩ bound checks
      (parser (staged context (maxDepth - depth)) >>= more) := by
  rw [Code.bind_run, Code.nested]
  refine keeps_descend stands (fun full => ?_) fun room => ?_
  · rw [staged_refuses context full, refused]
    rfl
  · rw [staged_descends context room, deeper]
    refine keeps_call_then (stands.deeper room) (fun none => absurd none (Nat.succ_ne_zero _)) (fun left near => ?_) goes
    obtain ⟨sameScope, above, below⟩ := near
    obtain ⟨raised, -⟩ := stands
    dsimp only at room sameScope above below
    exact ⟨sameScope, show base ≤ left.depth - 1 by omega, show left.depth - 1 ≤ max base maxDepth + 1 by omega⟩

theorem behind_first {lexeme : Lexeme} {rest : List Lexeme} (ahead : tokens.drop index = lexeme :: rest) :
    tokens.drop (index + 1) = rest ∧ index + 1 ≤ tokens.length := by
  have behind : tokens.drop (index + 1) = rest := by rw [← List.tail_drop, ahead, List.tail_cons]
  have longer := congrArg List.length ahead
  rw [List.length_drop, List.length_cons] at longer
  exact ⟨behind, by omega⟩

def Takes (count : Nat) (read? : (tokens : List Lexeme) → Option (Parsed tokens α)) : Prop :=
  ∀ tokens found, read? tokens = some found → found.rest = tokens.drop count ∧ count ≤ tokens.length

theorem takes_of_spans {rest : List Lexeme} {word : List Token} (spans : Spans word tokens rest) :
    rest = tokens.drop word.length ∧ word.length ≤ tokens.length := by
  obtain ⟨consumed, rfl, rfl⟩ := spans
  simp

theorem mark_takes (mark : Mark) : Takes 1 (takeMark? mark) := fun _ _ taken =>
  takes_of_spans (take_spans (Token.mark_sign mark) taken)

theorem operator_takes (level : Level) : Takes 1 (takeOperator? level) := by
  intro tokens found taken
  obtain ⟨mark, _, spans⟩ := take_operator_spans taken
  exact takes_of_spans spans

theorem sign_takes : Takes 1 takeUnary? := fun _ _ taken => takes_of_spans (take_unary_spans taken)

theorem name_takes : Takes 2 givenName? := fun _ _ taken => takes_of_spans (given_name_spans taken)

theorem keeps_optional {count : Nat} {read? : (tokens : List Lexeme) → Option (Parsed tokens α)}
    {code : Option α → Code routine β} {next : β → Cursor → Task routine} {entry : Cursor}
    {expected : Except QueryError (Parsed input routine.Answer)} (takes : Takes count read?)
    (missing : read? (tokens.drop index) = none →
      ((code none).run ⟨index, scope, depth⟩ next).Keeps context tokens entry bound checks expected)
    (taken : ∀ value shorter, index + count ≤ tokens.length →
      read? (tokens.drop index) = some ⟨value, tokens.drop (index + count), shorter⟩ →
      ((code (some value)).run ⟨index + count, scope, depth⟩ next).Keeps context tokens entry bound checks expected) :
    ((Code.optional tokens count read? >>= code).run ⟨index, scope, depth⟩ next).Keeps context tokens entry bound checks
      expected := by
  simp only [Code.bind_run, Code.optional]
  cases found : read? (tokens.drop index) with
  | none => exact missing found
  | some parsed =>
      obtain ⟨behind, enough⟩ := takes _ _ found
      obtain ⟨value, rest, shorter⟩ := parsed
      rw [List.drop_drop] at behind
      obtain rfl : rest = tokens.drop (index + count) := behind
      simp only [List.length_drop] at enough shorter
      exact taken value _ (by omega) found

theorem keeps_if {mark : Mark} {yes no : Code routine α} {next : α → Cursor → Task routine} {entry : Cursor}
    {expected : Except QueryError (Parsed input routine.Answer)}
    (missing : takeMark? mark (tokens.drop index) = none →
      (no.run ⟨index, scope, depth⟩ next).Keeps context tokens entry bound checks expected)
    (taken : ∀ shorter, index + 1 ≤ tokens.length →
      takeMark? mark (tokens.drop index) = some ⟨(), tokens.drop (index + 1), shorter⟩ →
      (yes.run ⟨index + 1, scope, depth⟩ next).Keeps context tokens entry bound checks expected) :
    ((do if ← Code.consume tokens mark then yes else no : Code routine α).run ⟨index, scope, depth⟩ next).Keeps context
      tokens entry bound checks expected := by
  rw [Code.bind_run, Code.consume]
  exact keeps_optional (mark_takes mark) missing fun _ => taken

theorem keeps_expect {mark : Mark} {code : Unit → Code routine α} {next : α → Cursor → Task routine}
    {more : Parsed (tokens.drop index) Unit → Except QueryError (Parsed input routine.Answer)}
    (stands : Stands base checks depth)
    (goes : ∀ shorter, index + 1 ≤ tokens.length →
      ((code ()).run ⟨index + 1, scope, depth⟩ next).Keeps context tokens ⟨start, scope, base⟩ bound checks
        (more ⟨(), tokens.drop (index + 1), shorter⟩)) :
    ((Code.expect context tokens mark >>= code).run ⟨index, scope, depth⟩ next).Keeps context tokens ⟨start, scope, base⟩
      bound checks (expectMark context mark (tokens.drop index) >>= more) := by
  rw [Code.bind_run, Code.expect]
  refine keeps_if (fun missing => ?_) fun shorter within taken => ?_
  · rw [expectMark, expect, ← takeMark?, missing]
    exact keeps_fail stands
  · rw [expectMark, expect, ← takeMark?, taken]
    exact goes shorter within

theorem keeps_next {code : Option Token → Code routine α} {next : α → Cursor → Task routine} {entry : Cursor}
    {expected : Except QueryError (Parsed input routine.Answer)}
    (ended : tokens.drop index = [] →
      ((code none).run ⟨index, scope, depth⟩ next).Keeps context tokens entry bound checks expected)
    (found : ∀ lexeme, tokens.drop index = lexeme :: tokens.drop (index + 1) → index + 1 ≤ tokens.length →
      ((code (some lexeme.token)).run ⟨index + 1, scope, depth⟩ next).Keeps context tokens entry bound checks expected) :
    ((Code.next? tokens >>= code).run ⟨index, scope, depth⟩ next).Keeps context tokens entry bound checks expected := by
  simp only [Code.bind_run, Code.next?, Cursor.ahead]
  cases ahead : tokens.drop index with
  | nil => exact ended ahead
  | cons lexeme rest =>
      obtain ⟨rfl, within⟩ := behind_first ahead
      exact found lexeme ahead within

theorem identifier_ended (ended : input = []) :
    identifier context input = context.fail input (.expectedIdentifier none) := by
  subst ended
  rfl

theorem identifier_eq {lexeme : Lexeme} {rest : List Lexeme} (ahead : input = lexeme :: rest) :
    identifier context input = match lexeme.token with
      | .identifier name => .ok ⟨name, rest, by rw [ahead]; exact Nat.lt_succ_self _⟩
      | found => context.fail input (.expectedIdentifier (some found)) := by
  subst ahead
  rfl

theorem keeps_identifier {code : String → Code routine α} {next : α → Cursor → Task routine}
    {more : Parsed (tokens.drop index) String → Except QueryError (Parsed input routine.Answer)}
    (stands : Stands base checks depth)
    (goes : ∀ name shorter, index + 1 ≤ tokens.length →
      ((code name).run ⟨index + 1, scope, depth⟩ next).Keeps context tokens ⟨start, scope, base⟩ bound checks
        (more ⟨name, tokens.drop (index + 1), shorter⟩)) :
    ((Code.identifier context tokens >>= code).run ⟨index, scope, depth⟩ next).Keeps context tokens ⟨start, scope, base⟩
      bound checks (identifier context (tokens.drop index) >>= more) := by
  rw [Code.bind_run, Code.identifier, Code.position_run]
  refine keeps_next (fun ended => ?_) fun lexeme ahead within => ?_
  · rw [identifier_ended ended]
    exact keeps_fail stands
  · rw [identifier_eq ahead]
    cases lexeme.token with
    | identifier name => exact goes name _ within
    | _ => exact keeps_fail stands

end

end DocumentViews.Grammar
