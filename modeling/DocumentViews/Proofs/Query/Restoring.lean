import DocumentViews.Proofs.Query.Contract

set_option autoImplicit false

namespace DocumentViews.Grammar

variable {context : Context} {tokens input : List Lexeme} {routine : Routine} {bound checks base depth start index : Nat}
  {scope : List String} {α : Type}

theorem keeps_operand {level : Level} {code : Expr → Code (.operands level) α} {next : α → Cursor → Task (.operands level)}
    {more : Parsed (tokens.drop index) Expr → Except QueryError (Parsed input Expr)}
    (stands : Stands base checks depth)
    (goes : ∀ value left shorter, left ≤ tokens.length →
      ((code value).run ⟨left, scope, depth⟩ next).Keeps context tokens ⟨start, scope, base⟩ bound checks
        (more ⟨value, tokens.drop left, shorter⟩)) :
    ((Code.operand level >>= code).run ⟨index, scope, depth⟩ next).Keeps context tokens ⟨start, scope, base⟩ bound checks
      (operands context (staged context (maxDepth - depth)) (staged context (maxDepth - depth)).conditional level.tighter
        scope (tokens.drop index) >>= more) := by
  cases level <;> exact keeps_call stands (fun _ => by decide) goes

theorem expression_keeps (entry : Cursor) :
    (Code.expression.task entry).Keeps context tokens entry bound 0 (Routine.expression.read context tokens entry) := by
  obtain ⟨start, scope, depth⟩ := entry
  have read := bind_pure ((staged context (maxDepth - depth)).conditional scope (tokens.drop start))
  rw [Code.task, Code.expression, Code.last_run, Routine.read, ← read]
  refine keeps_nested .conditional (fun below => below.conditional scope (tokens.drop start)) (Stands.start depth) rfl rfl
    fun value left shorter within => ?_
  exact keeps_done within

theorem conditional_keeps (entry : Cursor) :
    ((Code.conditional context tokens).task entry).Keeps context tokens entry bound 0
      (Routine.conditional.read context tokens entry) := by
  obtain ⟨start, scope, depth⟩ := entry
  have stands := Stands.start depth
  rw [Code.task, Code.conditional, Routine.read, Grammar.conditional]
  refine keeps_call stands (fun _ => by decide) fun test index shorter within => ?_
  refine keeps_if (fun missing => ?_) fun shorter within taken => ?_
  · simp only [missing]
    exact keeps_done within
  · simp only [taken]
    refine keeps_call stands (fun _ => by decide) fun consequent index shorter within => ?_
    refine keeps_expect stands fun shorter within => ?_
    refine keeps_call stands (fun _ => by decide) fun alternative index shorter within => ?_
    exact keeps_done within

theorem coalesce_keeps (entry : Cursor) :
    ((Code.coalesce tokens).task entry).Keeps context tokens entry bound 0
      (Routine.coalesce.read context tokens entry) := by
  obtain ⟨start, scope, depth⟩ := entry
  have stands := Stands.start depth
  rw [Code.task, Code.coalesce, Routine.read, Grammar.coalesce]
  refine keeps_call stands (fun _ => by decide) fun left index shorter within => ?_
  refine keeps_if (fun missing => ?_) fun shorter within taken => ?_
  · simp only [missing]
    exact keeps_done within
  · simp only [taken]
    refine keeps_nested .coalesce (fun below => below.coalesce scope (tokens.drop (index + 1))) stands rfl rfl
      fun right left shorter within => ?_
    exact keeps_done within

theorem operands_keep (level : Level) (entry : Cursor) :
    ((Code.operands level).task entry).Keeps context tokens entry (entry.ahead tokens).length 0
      ((Routine.operands level).read context tokens entry) := by
  obtain ⟨start, scope, depth⟩ := entry
  have stands := Stands.start depth
  rw [Code.task, Code.operands, Routine.read, Grammar.operands]
  refine keeps_operand stands fun left index shorter within => ?_
  exact ⟨stands, rfl, within, shorter, rfl, shorter, rfl⟩

theorem more_operands_keep {level : Level} {left : Expr} {shorter : (tokens.drop index).length < input.length}
    (stands : Stands base checks depth) (within : index ≤ tokens.length) :
    ((Code.moreOperands tokens level base left).task ⟨index, scope, depth⟩).Keeps context tokens ⟨start, scope, base⟩
      (tokens.drop index).length checks
      (moreOperands (staged context (maxDepth - depth)) level level.tighter scope
        (⟨left, tokens.drop index, shorter⟩ : Parsed input Expr)) := by
  rw [Code.task, Code.moreOperands, moreOperands]
  refine keeps_optional (operator_takes level) (fun missing => ?_) fun op fewer within taken => ?_
  · simp only [missing]
    exact keeps_done within
  · simp only [taken]
    refine keeps_descend stands (fun full => ?_) fun room => ?_
    · rw [staged_refuses context full]
      rfl
    · rw [staged_descends context room]
      refine keeps_operand (stands.deeper room) fun right left fewest within => ?_
      exact ⟨stands.deeper room, rfl, within, Nat.lt_trans fewest fewer, rfl, _, rfl⟩

theorem unary_keeps (entry : Cursor) :
    ((Code.unary tokens).task entry).Keeps context tokens entry bound 0 (Routine.unary.read context tokens entry) := by
  obtain ⟨start, scope, depth⟩ := entry
  have stands := Stands.start depth
  rw [Code.task, Code.unary, Routine.read, Grammar.unary]
  refine keeps_optional sign_takes (fun missing => ?_) fun op shorter within taken => ?_
  · simp only [missing]
    rw [Code.last_run, ← bind_pure (postfixed ..)]
    exact keeps_call stands (fun _ => by decide) fun expr left shorter within => keeps_done within
  · simp only [taken]
    refine keeps_nested .unary (fun below => below.unary scope (tokens.drop (start + 1))) stands rfl rfl
      fun operand left shorter within => ?_
    exact keeps_done within

theorem suffixed_keeps (entry : Cursor) :
    (Code.suffixed.task entry).Keeps context tokens entry (entry.ahead tokens).length 0
      (Routine.suffixed.read context tokens entry) := by
  obtain ⟨start, scope, depth⟩ := entry
  have stands := Stands.start depth
  rw [Code.task, Code.suffixed, Routine.read, postfixed]
  refine keeps_call stands (fun _ => by decide) fun target index shorter within => ?_
  exact ⟨stands, rfl, within, shorter, rfl, shorter, rfl⟩

theorem keeps_aggregate_rest {source : Expr} {function : Aggregate} {code : Expr → Code .suffixed α}
    {next : α → Cursor → Task .suffixed} {more : Parsed (tokens.drop index) Expr → Except QueryError (Parsed input Expr)}
    (stands : Stands base checks depth)
    (goes : ∀ value left shorter, left ≤ tokens.length →
      ((code value).run ⟨left, scope, depth⟩ next).Keeps context tokens ⟨start, scope, base⟩ bound checks
        (more ⟨value, tokens.drop left, shorter⟩)) :
    ((Code.aggregateRest context tokens source function >>= code).run ⟨index, scope, depth⟩ next).Keeps context tokens
      ⟨start, scope, base⟩ bound checks
      (aggregateRest context (staged context (maxDepth - depth)).conditional scope source function (tokens.drop index) >>=
        more) := by
  rw [Code.bind_run, Code.aggregateRest, aggregateRest]
  refine keeps_if (fun missing => ?_) fun shorter within taken => ?_
  · simp only [missing, bind_assoc]
    refine keeps_call stands (fun _ => by decide) fun found index shorter within => ?_
    refine keeps_expect stands fun shorter within => ?_
    exact goes _ _ _ within
  · simp only [taken]
    exact goes _ _ _ within

theorem keeps_suffix {target : Expr} {code : Expr → Code .suffixed α} {next : α → Cursor → Task .suffixed}
    {more : Parsed (tokens.drop index) Expr → Except QueryError (Parsed input Expr)} (stands : Stands base checks depth)
    (goes : ∀ value left shorter, left ≤ tokens.length →
      ((code value).run ⟨left, scope, depth⟩ next).Keeps context tokens ⟨start, scope, base⟩ bound checks
        (more ⟨value, tokens.drop left, shorter⟩)) :
    ((Code.suffix context tokens target >>= code).run ⟨index, scope, depth⟩ next).Keeps context tokens ⟨start, scope, base⟩
      bound checks
      (suffix context (staged context (maxDepth - depth)).conditional scope target (tokens.drop index) >>= more) := by
  rw [Code.bind_run, Code.suffix, Code.position_run, suffix, bind_assoc]
  refine keeps_identifier stands fun name shorter within => ?_
  refine keeps_if (fun missing => ?_) fun shorter within taken => ?_
  · simp only [missing]
    exact goes _ _ _ within
  · simp only [taken]
    cases Aggregate.named? name with
    | some function =>
        dsimp only
        rw [Code.last_run, bind_assoc]
        exact keeps_aggregate_rest stands fun value left shorter within => goes _ _ _ within
    | none =>
        cases TextMethod.named? name with
        | none => exact keeps_fail stands
        | some method =>
            dsimp only
            rw [bind_assoc]
            refine keeps_call stands (fun _ => by decide) fun found left shorter within => ?_
            dsimp only
            split
            · exact goes _ _ _ within
            · exact keeps_fail stands

theorem suffixes_keep {target : Expr} {shorter : (tokens.drop index).length < input.length}
    (stands : Stands base checks depth) (within : index ≤ tokens.length) :
    ((Code.suffixes context tokens base target).task ⟨index, scope, depth⟩).Keeps context tokens ⟨start, scope, base⟩
      (tokens.drop index).length checks
      (suffixes (staged context (maxDepth - depth)) scope (⟨target, tokens.drop index, shorter⟩ : Parsed input Expr)) := by
  rw [Code.task, Code.suffixes, suffixes]
  refine keeps_if (fun missing => ?_) fun fewer within taken => ?_
  · simp only [missing]
    exact keeps_done within
  · simp only [taken]
    refine keeps_descend stands (fun full => ?_) fun room => ?_
    · rw [staged_refuses context full]
      rfl
    · rw [staged_descends context room]
      refine keeps_suffix (stands.deeper room) fun longer left fewest within => ?_
      exact ⟨stands.deeper room, rfl, within, Nat.lt_trans fewest fewer, rfl, _, rfl⟩

theorem lambda_keeps (entry : Cursor) :
    ((Code.lambda context tokens).task entry).Keeps context tokens entry bound 0
      (Routine.lambda.read context tokens entry) := by
  obtain ⟨start, scope, depth⟩ := entry
  have stands := Stands.start depth
  rw [Code.task, Code.lambda, Routine.read, Grammar.lambda]
  refine keeps_identifier stands fun parameter shorter within => ?_
  refine keeps_expect stands fun shorter within => ?_
  refine keeps_call_then stands (fun _ => by decide) (fun left near => ?_) fun body left shorter within => keeps_done within
  exact ⟨by rw [Cursor.pop, near.scope]; rfl, near.above, near.below⟩

theorem arguments_keep (entry : Cursor) :
    ((Code.arguments tokens).task entry).Keeps context tokens entry (entry.ahead tokens).length 0
      (Routine.arguments.read context tokens entry) := by
  obtain ⟨start, scope, depth⟩ := entry
  have stands := Stands.start depth
  rw [Code.task, Code.arguments, Routine.read, Grammar.arguments]
  refine keeps_if (fun missing => ?_) fun shorter within taken => ?_
  · simp only [missing]
    refine keeps_call stands (fun _ => by decide) fun argument left shorter within => ?_
    exact ⟨stands, rfl, within, shorter, rfl, Nat.le_of_lt shorter, rfl⟩
  · simp only [taken]
    exact keeps_done within

theorem joined_rest {β γ : Type} {found : List β} {item : β} {inner outer : List Lexeme} (whole : List β → γ)
    (others : Parsed inner (List β)) {shorter : others.rest.length < outer.length} :
    (.ok ⟨whole (found ++ item :: others.value), others.rest, shorter⟩ : Except QueryError (Parsed outer γ)) =
      .ok ⟨whole (found ++ [item] ++ others.value), others.rest, shorter⟩ := by rw [List.append_cons]

theorem more_arguments_keep {found : List Expr} {fewer : (tokens.drop index).length ≤ input.length}
    (stands : Stands depth checks depth) :
    ((Code.moreArguments context tokens found).task ⟨index, scope, depth⟩).Keeps context tokens ⟨start, scope, depth⟩
      (tokens.drop index).length checks
      (do
        let others ← moreArguments context (staged context (maxDepth - depth)).conditional scope (tokens.drop index)
        .ok ((others.map fun list => found ++ list).within fewer)) := by
  obtain rfl := stands.unchecked
  rw [Code.task, Code.moreArguments, moreArguments]
  refine keeps_if (fun missing => ?_) fun shorter within taken => ?_
  · simp only [missing, bind_assoc]
    refine keeps_expect stands fun less within => ?_
    refine keeps_call stands (fun _ => by decide) fun argument left least within => ?_
    refine ⟨stands, rfl, within, Nat.lt_trans least less, rfl, ?_, ?_⟩
    · exact Nat.le_trans (Nat.le_of_lt (Nat.lt_trans least less)) fewer
    · exact congrArg _ (funext fun others => joined_rest id others)
  · simp only [taken]
    exact keeps_done_of_eq within (List.append_nil found)

theorem keeps_new_member {found : List (String × Expr)} {name : String} {value : Expr} {left position : Nat}
    {next : α → Cursor → Task .object} {member : Parsed (tokens.drop index) (String × Expr)}
    {more : Parsed (tokens.drop index) (String × Expr) → Except QueryError (Parsed input Expr)}
    (stands : Stands base checks depth) (named : member.value.1 = name)
    (here : position = context.position (tokens.drop index))
    (goes : (Task.again (.members (found ++ [(name, value)])) ⟨left, scope, depth⟩).Keeps context tokens
      ⟨start, scope, base⟩ bound checks (more member)) :
    ((if (found.map Prod.fst).contains name then Code.fail (.duplicateMember name) position
      else Code.again (.members (found ++ [(name, value)])) : Code .object α).run ⟨left, scope, depth⟩ next).Keeps context
      tokens ⟨start, scope, base⟩ bound checks
      ((if (found.map Prod.fst).reverse.contains member.value.1 then
          context.fail (tokens.drop index) (.duplicateMember member.value.1)
        else .ok member) >>= more) := by
  subst named here
  rw [List.contains_reverse]
  split
  · exact keeps_fail stands
  · exact goes

theorem keeps_member {found : List (String × Expr)} {next : Expr → Cursor → Task .object}
    {more : Parsed (tokens.drop index) (String × Expr) → Except QueryError (Parsed input Expr)}
    (stands : Stands base 0 depth)
    (goes : ∀ name value left shorter, left ≤ tokens.length →
      (Task.again (.members (found ++ [(name, value)])) ⟨left, scope, depth⟩).Keeps context tokens ⟨start, scope, base⟩
        bound 0 (more ⟨(name, value), tokens.drop left, shorter⟩)) :
    ((Code.member context tokens found).run ⟨index, scope, depth⟩ next).Keeps context tokens ⟨start, scope, base⟩ bound 0
      (objectMember context (staged context (maxDepth - depth)).conditional scope (found.map Prod.fst).reverse
        (tokens.drop index) >>= more) := by
  rw [Code.member, Code.position_run, Code.bind_run, Code.memberValue, objectMember]
  refine keeps_optional name_takes (fun missing => ?_) fun name shorter within taken => ?_
  · simp only [missing, bind_assoc]
    refine keeps_call stands (fun _ => by decide) fun value left shorter within => ?_
    dsimp only
    cases impliedName? value with
    | none => exact keeps_fail stands
    | some name => exact keeps_new_member stands rfl rfl (goes name value left _ within)
  · simp only [taken, bind_assoc]
    refine keeps_call stands (fun _ => by decide) fun value left shorter within => ?_
    exact keeps_new_member stands rfl rfl (goes name value left _ within)

theorem object_keeps (entry : Cursor) :
    ((Code.object context tokens).task entry).Keeps context tokens entry (entry.ahead tokens).length 0
      (Routine.object.read context tokens entry) := by
  obtain ⟨start, scope, depth⟩ := entry
  have stands := Stands.start depth
  rw [Code.task, Code.object, Routine.read]
  refine keeps_expect stands fun less within => ?_
  simp only [objectMembers]
  refine keeps_if (fun missing => ?_) fun shorter within taken => ?_
  · simp only [missing, bind_assoc]
    refine keeps_member stands fun name value left shorter within => ?_
    exact ⟨stands, rfl, within, Nat.lt_trans shorter less, rfl, Nat.le_of_lt (Nat.lt_trans shorter less), rfl⟩
  · simp only [taken]
    exact keeps_done within

theorem more_members_keep {found : List (String × Expr)} {fewer : (tokens.drop index).length ≤ input.length}
    (stands : Stands depth checks depth) :
    ((Code.moreMembers context tokens found).task ⟨index, scope, depth⟩).Keeps context tokens ⟨start, scope, depth⟩
      (tokens.drop index).length checks
      (do
        let others ← moreObjectMembers context (staged context (maxDepth - depth)).conditional scope
          (found.map Prod.fst).reverse (tokens.drop index)
        .ok ((others.map fun members => .object (found ++ members)).within fewer)) := by
  obtain rfl := stands.unchecked
  rw [Code.task, Code.moreMembers, moreObjectMembers]
  refine keeps_if (fun missing => ?_) fun shorter within taken => ?_
  · simp only [missing, bind_assoc]
    refine keeps_expect stands fun less within => ?_
    refine keeps_if (fun missing => ?_) fun shorter within taken => ?_
    · simp only [missing, bind_assoc]
      refine keeps_member stands fun name value left shorter within => ?_
      have least := Nat.lt_trans shorter less
      refine ⟨stands, rfl, within, least, rfl, Nat.le_trans (Nat.le_of_lt least) fewer, ?_⟩
      rw [List.map_append, List.reverse_append]
      exact congrArg _ (funext fun others => joined_rest Expr.object others)
    · simp only [taken]
      exact keeps_done_of_eq within (congrArg Expr.object (List.append_nil found))
  · simp only [taken]
    exact keeps_done_of_eq within (congrArg Expr.object (List.append_nil found))

theorem keeps_named {name : String} {position : Nat} {next : Expr → Cursor → Task .primary}
    {more : Expr × { left : List Lexeme // left.length ≤ (tokens.drop index).length } →
      Except QueryError (Parsed input Expr)}
    (stands : Stands base 0 depth) (within : index ≤ tokens.length)
    (goes : ∀ value left fewer, left ≤ tokens.length →
      (next value ⟨left, scope, depth⟩).Keeps context tokens ⟨start, scope, base⟩ bound 0
        (more (value, ⟨tokens.drop left, fewer⟩))) :
    ((Code.named context tokens name position).run ⟨index, scope, depth⟩ next).Keeps context tokens ⟨start, scope, base⟩
      bound 0
      (named context (staged context (maxDepth - depth)).conditional scope name position (tokens.drop index) >>= more) := by
  rw [Code.named, named]
  refine keeps_if (fun missing => ?_) fun shorter within taken => ?_
  · simp only [missing, Code.scope_run]
    split
    · exact goes _ _ _ within
    · exact keeps_fail stands
  · simp only [taken]
    split
    · rw [bind_assoc]
      refine keeps_call stands (fun _ => by decide) fun found left fewer within => ?_
      exact goes _ _ _ within
    · exact keeps_fail stands

theorem primary_keeps (entry : Cursor) :
    ((Code.primary context tokens).task entry).Keeps context tokens entry bound 0
      (Routine.primary.read context tokens entry) := by
  obtain ⟨start, scope, depth⟩ := entry
  have stands := Stands.start depth
  rw [Code.task, Code.primary, Code.position_run, Routine.read]
  dsimp only [Cursor.ahead]
  refine keeps_next (fun ended => ?_) fun lexeme ahead within => ?_
  · rw [ended]
    exact keeps_fail stands
  · rw [ahead]
    obtain ⟨gap, spelling, token, position⟩ := lexeme
    cases token with
    | number value => exact keeps_done within
    | text content => exact keeps_done within
    | keyword word =>
        cases word with
        | trueWord | falseWord | nullWord => exact keeps_done within
        | newWord =>
            have read : primary context (staged context (maxDepth - depth)).conditional scope
                (⟨gap, spelling, .keyword .newWord, position⟩ :: tokens.drop (start + 1)) =
                  (do
                    let object ← Routine.object.read context tokens ⟨start + 1, scope, depth⟩
                    .ok object.behind) := by
              simp only [Routine.read, bind_assoc]
              rfl
            rw [Code.last_run, read]
            exact keeps_call stands (fun _ => by decide) fun object left shorter within => keeps_done within
        | _ => exact keeps_fail stands
    | mark mark =>
        cases mark with
        | openParen =>
            refine keeps_call stands (fun _ => by decide) fun inner left shorter within => ?_
            exact keeps_expect stands fun shorter within => keeps_done within
        | _ => exact keeps_fail stands
    | identifier name => exact keeps_named stands within fun value left fewer within => keeps_done within

variable (context tokens)

theorem routine_keeps (routine : Routine) (entry : Cursor) :
    ((routine.code context tokens).task entry).Keeps context tokens entry (entry.ahead tokens).length 0
      (routine.read context tokens entry) := by
  cases routine with
  | expression => exact expression_keeps entry
  | conditional => exact conditional_keeps entry
  | coalesce => exact coalesce_keeps entry
  | operands level => exact operands_keep level entry
  | unary => exact unary_keeps entry
  | suffixed => exact suffixed_keeps entry
  | primary => exact primary_keeps entry
  | object => exact object_keeps entry
  | lambda => exact lambda_keeps entry
  | arguments => exact arguments_keep entry

theorem round_keeps {entry cursor : Cursor} (round : Round routine)
    {expected : Except QueryError (Parsed input routine.Answer)} (stands : Stands entry.depth checks cursor.depth)
    (sameScope : cursor.scope = entry.scope) (within : cursor.index ≤ tokens.length)
    (continues : round.Continues context tokens entry cursor expected) :
    ((round.code context tokens).task cursor).Keeps context tokens entry (cursor.ahead tokens).length checks expected := by
  obtain ⟨start, scope, base⟩ := entry
  obtain ⟨index, _, depth⟩ := cursor
  obtain rfl := sameScope
  cases round with
  | operands level mark left =>
      obtain ⟨rfl, shorter, rfl⟩ := continues
      exact more_operands_keep stands within
  | suffixes mark target =>
      obtain ⟨rfl, shorter, rfl⟩ := continues
      exact suffixes_keep stands within
  | members found =>
      obtain ⟨rfl, fewer, rfl⟩ := continues
      exact more_members_keep stands
  | arguments found =>
      obtain ⟨rfl, fewer, rfl⟩ := continues
      exact more_arguments_keep stands

end DocumentViews.Grammar
