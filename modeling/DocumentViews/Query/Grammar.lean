import DocumentViews.Query.Expr
import DocumentViews.Query.Lexeme

-- Every part that lies one level deeper is read by the stage below, and the lowest stage
-- refuses. Parentheses, lists of arguments, unary operators, further operators of a chain and
-- further members behind a dot each lead one stage down.

set_option autoImplicit false

namespace DocumentViews

def maxDepth : Nat := 64

inductive Level
  | either
  | both
  | equality
  | comparison
  | sum
  | product
deriving DecidableEq, Repr

namespace Level

def all : List Level := [either, both, equality, comparison, sum, product]

def operator? : Level → Mark → Option BinaryOp
  | either, .either => some .either
  | both, .both => some .both
  | equality, .equal => some .equal
  | equality, .notEqual => some .notEqual
  | comparison, .less => some .less
  | comparison, .lessEqual => some .lessEqual
  | comparison, .greater => some .greater
  | comparison, .greaterEqual => some .greaterEqual
  | sum, .plus => some .add
  | sum, .minus => some .subtract
  | product, .star => some .multiply
  | product, .slash => some .divide
  | product, .percent => some .remainder
  | _, _ => none

end Level

namespace Grammar

structure Context where
  isFunction : String → Bool
  finish : Nat

def Context.position (context : Context) : List Lexeme → Nat
  | [] => context.finish
  | lexeme :: _ => lexeme.position

def Context.fail {α : Type} (context : Context) (tokens : List Lexeme) (fault : QueryFault) : Except QueryError α :=
  .error ⟨fault, context.position tokens⟩

def take? (wanted : Token) : (tokens : List Lexeme) → Option (Parsed tokens Unit)
  | [] => none
  | lexeme :: rest => if lexeme.token.same wanted then some (.first () rest) else none

def takeMark? (mark : Mark) (tokens : List Lexeme) : Option (Parsed tokens Unit) := take? (.mark mark) tokens

def expect (context : Context) (wanted : Token) (tokens : List Lexeme) : Except QueryError (Parsed tokens Unit) :=
  match take? wanted tokens with
  | some taken => .ok taken
  | none => context.fail tokens (.expected wanted (tokens.head?.map Lexeme.token))

def expectMark (context : Context) (mark : Mark) (tokens : List Lexeme) : Except QueryError (Parsed tokens Unit) :=
  expect context (.mark mark) tokens

def identifier (context : Context) (tokens : List Lexeme) : Except QueryError (Parsed tokens String) :=
  match tokens with
  | [] => context.fail [] (.expectedIdentifier none)
  | lexeme :: rest =>
      match lexeme.token with
      | .identifier name => .ok (.first name rest)
      | found => context.fail (lexeme :: rest) (.expectedIdentifier (some found))

def takeOperator? (level : Level) : (tokens : List Lexeme) → Option (Parsed tokens BinaryOp)
  | [] => none
  | lexeme :: rest =>
      match lexeme.token with
      | .mark mark => (level.operator? mark).map fun op => .first op rest
      | _ => none

abbrev ExprParser := (scope : List String) → (tokens : List Lexeme) → Except QueryError (Parsed tokens Expr)

abbrev Extender :=
  (scope : List String) → {tokens : List Lexeme} → Parsed tokens Expr → Except QueryError (Parsed tokens Expr)

structure Stage where
  expression : ExprParser
  conditional : ExprParser
  coalesce : ExprParser
  unary : ExprParser
  afterOperator : (level : Level) → (tighter : List Level) → BinaryOp → Extender
  afterDot : Extender

def Stage.refusing (context : Context) : Stage :=
  let refuse : ExprParser := fun _ tokens => context.fail tokens .nestedTooDeeply
  let refuseMore : Extender := fun _ _ left => context.fail left.rest .nestedTooDeeply
  ⟨refuse, refuse, refuse, refuse, fun _ _ _ => refuseMore, refuseMore⟩

def moreArguments (context : Context) (expression : ExprParser) (scope : List String) (tokens : List Lexeme) :
    Except QueryError (Parsed tokens (List Expr)) :=
  match takeMark? .closeParen tokens with
  | some close => .ok (close.map fun _ => [])
  | none => do
      let comma ← expectMark context .comma tokens
      let argument ← expression scope comma.rest
      let others ← moreArguments context expression scope argument.rest
      .ok (comma.after (argument.after (others.map (argument.value :: ·))))
termination_by tokens.length
decreasing_by
  have := comma.shorter
  have := argument.shorter
  omega

def arguments (context : Context) (expression : ExprParser) (scope : List String) (tokens : List Lexeme) :
    Except QueryError (Parsed tokens (List Expr)) :=
  match takeMark? .closeParen tokens with
  | some close => .ok (close.map fun _ => [])
  | none => do
      let argument ← expression scope tokens
      let others ← moreArguments context expression scope argument.rest
      .ok (argument.after (others.map (argument.value :: ·)))

def impliedName? : Expr → Option String
  | .member _ name => some name
  | .var name => some name
  | _ => none

def givenName? : (tokens : List Lexeme) → Option (Parsed tokens String)
  | lexeme :: next :: rest =>
      match lexeme.token, next.token with
      | .identifier name, .mark .assign => some ⟨name, rest, by simp only [List.length_cons]; omega⟩
      | _, _ => none
  | _ => none

def objectMember (context : Context) (expression : ExprParser) (scope used : List String) (tokens : List Lexeme) :
    Except QueryError (Parsed tokens (String × Expr)) := do
  let named ← match givenName? tokens with
    | some name => do
        let value ← expression scope name.rest
        .ok (name.after (value.map (name.value, ·)))
    | none => do
        let value ← expression scope tokens
        match impliedName? value.value with
        | some name => .ok (value.map (name, ·))
        | none => context.fail tokens .unnamedMember
  if used.contains named.value.1 then context.fail tokens (.duplicateMember named.value.1)
  else .ok named

def moreObjectMembers (context : Context) (expression : ExprParser) (scope used : List String)
    (tokens : List Lexeme) : Except QueryError (Parsed tokens (List (String × Expr))) :=
  match takeMark? .closeBrace tokens with
  | some close => .ok (close.map fun _ => [])
  | none => do
      let comma ← expectMark context .comma tokens
      match takeMark? .closeBrace comma.rest with
      | some close => .ok (comma.after (close.map fun _ => []))
      | none => do
          let member ← objectMember context expression scope used comma.rest
          let others ← moreObjectMembers context expression scope (member.value.1 :: used) member.rest
          .ok (comma.after (member.after (others.map (member.value :: ·))))
termination_by tokens.length
decreasing_by
  have := comma.shorter
  have := member.shorter
  omega

def objectMembers (context : Context) (expression : ExprParser) (scope : List String) (tokens : List Lexeme) :
    Except QueryError (Parsed tokens (List (String × Expr))) :=
  match takeMark? .closeBrace tokens with
  | some close => .ok (close.map fun _ => [])
  | none => do
      let member ← objectMember context expression scope [] tokens
      let others ← moreObjectMembers context expression scope [member.value.1] member.rest
      .ok (member.after (others.map (member.value :: ·)))

def named (context : Context) (expression : ExprParser) (scope : List String) (name : String) (position : Nat)
    (rest : List Lexeme) : Except QueryError (Expr × { left : List Lexeme // left.length ≤ rest.length }) :=
  match takeMark? .openParen rest with
  | some paren =>
      if context.isFunction name then do
        let found ← arguments context expression scope paren.rest
        .ok (.call name found.value, ⟨found.rest, by
          have := paren.shorter
          have := found.shorter
          omega⟩)
      else .error ⟨.unknownFunction name, position⟩
  | none =>
      if scope.contains name then .ok (.var name, ⟨rest, Nat.le_refl _⟩)
      else .error ⟨.undefinedVariable name, position⟩

def primary (context : Context) (expression : ExprParser) : ExprParser := fun scope tokens =>
  match tokens with
  | [] => context.fail [] (.expectedExpression none)
  | lexeme :: rest =>
      let literal (value : Value) : Except QueryError (Parsed (lexeme :: rest) Expr) :=
        .ok (.first (.literal value) rest)
      match lexeme.token with
      | .number value => literal (.ofFloat value)
      | .text content => literal (.string content)
      | .keyword .trueWord => literal (.bool true)
      | .keyword .falseWord => literal (.bool false)
      | .keyword .nullWord => literal .null
      | .mark .openParen => do
          let inner ← expression scope rest
          let close ← expectMark context .closeParen inner.rest
          .ok ((inner.after close).map fun _ => inner.value).behind
      | .keyword .newWord => do
          let brace ← expectMark context .openBrace rest
          let members ← objectMembers context expression scope brace.rest
          .ok ((brace.after members).map .object).behind
      | .identifier name => do
          let (expr, left) ← named context expression scope name lexeme.position rest
          .ok ⟨expr, left.1, Nat.lt_succ_of_le left.2⟩
      | found => context.fail (lexeme :: rest) (.expectedExpression (some found))

def suffixes (below : Stage) : Extender := fun scope _ target =>
  match takeMark? .dot target.rest with
  | some dot => below.afterDot scope (target.after (dot.map fun _ => target.value))
  | none => .ok target

def lambda (context : Context) (expression : ExprParser) (scope : List String) (tokens : List Lexeme) :
    Except QueryError (Parsed tokens (String × Expr)) := do
  let parameter ← identifier context tokens
  let arrow ← expectMark context .arrow parameter.rest
  let body ← expression (parameter.value :: scope) arrow.rest
  .ok (parameter.after (arrow.after (body.map (parameter.value, ·))))

def aggregateRest (context : Context) (expression : ExprParser) (scope : List String) (source : Expr)
    (function : Aggregate) (tokens : List Lexeme) : Except QueryError (Parsed tokens Expr) :=
  match takeMark? .closeParen tokens with
  | some close => .ok (close.map fun _ => .aggregate source function)
  | none => do
      let found ← lambda context expression scope tokens
      let close ← expectMark context .closeParen found.rest
      .ok (found.after (close.map fun _ => .aggregateOf source function found.value.1 found.value.2))

def suffix (context : Context) (expression : ExprParser) (scope : List String) (target : Expr)
    (tokens : List Lexeme) : Except QueryError (Parsed tokens Expr) := do
  let name ← identifier context tokens
  match takeMark? .openParen name.rest with
  | none => .ok (name.map fun _ => .member target name.value)
  | some paren =>
      match Aggregate.named? name.value with
      | some function => do
          let found ← aggregateRest context expression scope target function paren.rest
          .ok (name.after (paren.after found))
      | none =>
          match TextMethod.named? name.value with
          | some method => do
              let found ← arguments context expression scope paren.rest
              if found.value.length = method.arity then
                .ok (name.after (paren.after (found.map (.method target method))))
              else context.fail tokens (.wrongArgumentCount name.value method.arity found.value.length)
          | none => context.fail tokens (.unknownMethod name.value)

def postfixed (context : Context) (below : Stage) (expression : ExprParser) : ExprParser := fun scope tokens => do
  let target ← primary context expression scope tokens
  suffixes below scope target

def takeUnary? : (tokens : List Lexeme) → Option (Parsed tokens UnaryOp)
  | [] => none
  | lexeme :: rest =>
      match lexeme.token with
      | .mark .bang => some (.first .not rest)
      | .mark .minus => some (.first .negate rest)
      | _ => none

def unary (context : Context) (below : Stage) (expression : ExprParser) : ExprParser := fun scope tokens =>
  match takeUnary? tokens with
  | some op => do
      let operand ← below.unary scope op.rest
      .ok (op.after (operand.map (.unary op.value)))
  | none => postfixed context below expression scope tokens

def moreOperands (below : Stage) (level : Level) (tighter : List Level) : Extender := fun scope _ left =>
  match takeOperator? level left.rest with
  | some op => below.afterOperator level tighter op.value scope (left.after (op.map fun _ => left.value))
  | none => .ok left

def operands (context : Context) (below : Stage) (expression : ExprParser) : List Level → ExprParser
  | [] => unary context below expression
  | level :: tighter => fun scope tokens => do
      let left ← operands context below expression tighter scope tokens
      moreOperands below level tighter scope left

def coalesce (context : Context) (below : Stage) (expression : ExprParser) : ExprParser := fun scope tokens => do
  let left ← operands context below expression Level.all scope tokens
  match takeMark? .coalesce left.rest with
  | some mark => do
      let right ← below.coalesce scope mark.rest
      .ok (left.after (mark.after (right.map (.binary .coalesce left.value))))
  | none => .ok left

def conditional (context : Context) (below : Stage) (expression : ExprParser) : ExprParser := fun scope tokens => do
  let test ← coalesce context below expression scope tokens
  match takeMark? .question test.rest with
  | some mark => do
      let consequent ← expression scope mark.rest
      let colon ← expectMark context .colon consequent.rest
      let alternative ← expression scope colon.rest
      .ok (test.after (mark.after (consequent.after (colon.after
        (alternative.map (.conditional test.value consequent.value))))))
  | none => .ok test

def above (context : Context) (below : Stage) : Stage :=
  let expression := below.conditional
  { expression
    conditional := conditional context below expression
    coalesce := coalesce context below expression
    unary := unary context below expression
    afterOperator := fun level tighter op scope _ left => do
      let right ← operands context below expression tighter scope left.rest
      moreOperands below level tighter scope (left.after (right.map (.binary op left.value)))
    afterDot := fun scope _ target => do
      let found ← suffix context expression scope target.value target.rest
      suffixes below scope (target.after found) }

def stage (context : Context) : (levels : Nat) → Stage
  | 0 => above context (Stage.refusing context)
  | levels + 1 => above context (stage context levels)

def expression (context : Context) : ExprParser := (stage context maxDepth).expression

end Grammar
end DocumentViews
