import DocumentViews.Proofs.Query.Yields
import Mathlib.Logic.Relation

-- The grammar as routines that call one another and move one cursor between them. A machine
-- walks the calls of a routine and keeps the unfinished ones on a stack.

set_option autoImplicit false

namespace DocumentViews

def Level.tighter : Level → List Level
  | either => [both, equality, comparison, sum, product]
  | both => [equality, comparison, sum, product]
  | equality => [comparison, sum, product]
  | comparison => [sum, product]
  | sum => [product]
  | product => []

namespace Grammar

-- Where the reader stands among all tokens, which names it knows and how deep it is.
structure Cursor where
  index : Nat
  scope : List String
  depth : Nat
deriving DecidableEq, Repr

namespace Cursor

abbrev ahead (tokens : List Lexeme) (cursor : Cursor) : List Lexeme := tokens.drop cursor.index

def advance (count : Nat) (cursor : Cursor) : Cursor := { cursor with index := cursor.index + count }

def rise (cursor : Cursor) : Cursor := { cursor with depth := cursor.depth - 1 }

def sink (cursor : Cursor) : Cursor := { cursor with depth := cursor.depth + 1 }

def restore (mark : Nat) (cursor : Cursor) : Cursor := { cursor with depth := mark }

def push (name : String) (cursor : Cursor) : Cursor := { cursor with scope := name :: cursor.scope }

def pop (cursor : Cursor) : Cursor := { cursor with scope := cursor.scope.tail }

end Cursor

inductive Routine
  | expression
  | conditional
  | coalesce
  | operands (level : Level)
  | unary
  | suffixed
  | primary
  | object
  | lambda
  | arguments
deriving DecidableEq, Repr

namespace Routine

abbrev Answer : Routine → Type
  | expression | conditional | coalesce | operands _ | unary | suffixed | primary | object => Expr
  | lambda => String × Expr
  | arguments => List Expr

-- A routine that calls another without a check stands above it.
def rank : Routine → Nat
  | expression => 0
  | object | lambda | arguments => 1
  | primary => 2
  | suffixed => 3
  | unary => 4
  | operands level => 5 + level.tighter.length
  | coalesce => 11
  | conditional => 12

theorem rank_le (routine : Routine) : routine.rank ≤ 12 := by
  cases routine with
  | operands level => cases level <;> decide
  | _ => decide

end Routine

-- A loop within a routine, at the start of its next round: the depth to go back to in the end
-- and what was read so far. Lists get here with their first item read.
inductive Round : Routine → Type
  | operands (level : Level) (mark : Nat) (left : Expr) : Round (.operands level)
  | suffixes (mark : Nat) (target : Expr) : Round .suffixed
  | members (found : List (String × Expr)) : Round .object
  | arguments (found : List Expr) : Round .arguments

inductive Task (routine : Routine) : Type
  | done (result : Except QueryError routine.Answer) (cursor : Cursor)
  | call (callee : Routine) (cursor : Cursor) (resume : Except QueryError callee.Answer → Cursor → Task routine)
  | descend (cursor : Cursor) (resume : Cursor → Task routine)
  | again (round : Round routine) (cursor : Cursor)

structure Code (routine : Routine) (α : Type) where
  run : Cursor → (α → Cursor → Task routine) → Task routine

namespace Code

variable {routine : Routine} {α β : Type}

instance : Monad (Code routine) where
  pure value := ⟨fun cursor next => next value cursor⟩
  bind code more := ⟨fun cursor next => code.run cursor fun value cursor => (more value).run cursor next⟩

theorem bind_run (code : Code routine α) (more : α → Code routine β) (cursor : Cursor)
    (next : β → Cursor → Task routine) :
    (code >>= more).run cursor next = code.run cursor fun value cursor => (more value).run cursor next := rfl

theorem last_run (code : Code routine α) (cursor : Cursor) (next : α → Cursor → Task routine) :
    code.run cursor next = (code >>= pure).run cursor next := rfl

def depth : Code routine Nat := ⟨fun cursor next => next cursor.depth cursor⟩

def scope : Code routine (List String) := ⟨fun cursor next => next cursor.scope cursor⟩

theorem scope_run (code : List String → Code routine α) (cursor : Cursor) (next : α → Cursor → Task routine) :
    (scope >>= code).run cursor next = (code cursor.scope).run cursor next := rfl

def move (change : Cursor → Cursor) : Code routine Unit := ⟨fun cursor next => next () (change cursor)⟩

def descend : Code routine Unit := ⟨fun cursor next => .descend cursor (next ())⟩

def callThen (callee : Routine) (change : Cursor → Cursor) : Code routine callee.Answer where
  run cursor next := .call callee cursor fun result left =>
    match result with
    | .ok value => next value (change left)
    | .error error => .done (.error error) (change left)

def call (callee : Routine) : Code routine callee.Answer := callThen callee id

def nested (callee : Routine) : Code routine callee.Answer := do
  descend
  callThen callee Cursor.rise

def again (round : Round routine) : Code routine α := ⟨fun cursor _ => .again round cursor⟩

def fail (fault : QueryFault) (position : Nat) : Code routine α :=
  ⟨fun cursor _ => .done (.error ⟨fault, position⟩) cursor⟩

section

variable (context : Context) (tokens : List Lexeme)

def position : Code routine Nat := ⟨fun cursor next => next (context.position (cursor.ahead tokens)) cursor⟩

theorem position_run (code : Nat → Code routine α) (cursor : Cursor) (next : α → Cursor → Task routine) :
    (position context tokens >>= code).run cursor next =
      (code (context.position (cursor.ahead tokens))).run cursor next := rfl

def found? : Code routine (Option Token) :=
  ⟨fun cursor next => next ((cursor.ahead tokens).head?.map Lexeme.token) cursor⟩

def next? : Code routine (Option Token) where
  run cursor next :=
    match cursor.ahead tokens with
    | [] => next none cursor
    | lexeme :: _ => next (some lexeme.token) (cursor.advance 1)

def optional (count : Nat) (read? : (tokens : List Lexeme) → Option (Parsed tokens α)) : Code routine (Option α) where
  run cursor next :=
    match read? (cursor.ahead tokens) with
    | some found => next (some found.value) (cursor.advance count)
    | none => next none cursor

def consume (mark : Mark) : Code routine Bool := do
  let taken ← optional tokens 1 (takeMark? mark)
  pure taken.isSome

def expect (mark : Mark) : Code routine Unit := do
  if ← consume tokens mark then pure ()
  else
    let found ← found? tokens
    let position ← position context tokens
    fail (.expected (.mark mark) found) position

def identifier : Code routine String := do
  let position ← position context tokens
  match ← next? tokens with
  | some (.identifier name) => pure name
  | found => fail (.expectedIdentifier found) position

def operand : Level → Code routine Expr
  | .either => call (.operands .both)
  | .both => call (.operands .equality)
  | .equality => call (.operands .comparison)
  | .comparison => call (.operands .sum)
  | .sum => call (.operands .product)
  | .product => call .unary

def expression : Code .expression Expr := nested .conditional

def conditional : Code .conditional Expr := do
  let test ← call .coalesce
  if ← consume tokens .question then
    let consequent ← call .expression
    expect context tokens .colon
    let alternative ← call .expression
    pure (.conditional test consequent alternative)
  else pure test

def coalesce : Code .coalesce Expr := do
  let left ← call (.operands .either)
  if ← consume tokens .coalesce then
    let right ← nested .coalesce
    pure (.binary .coalesce left right)
  else pure left

def operands (level : Level) : Code (.operands level) Expr := do
  let mark ← depth
  let left ← operand level
  again (.operands level mark left)

def moreOperands (level : Level) (mark : Nat) (left : Expr) : Code (.operands level) Expr := do
  match ← optional tokens 1 (takeOperator? level) with
  | none => do
      move (Cursor.restore mark)
      pure left
  | some op => do
      descend
      let right ← operand level
      again (.operands level mark (.binary op left right))

def unary : Code .unary Expr := do
  match ← optional tokens 1 takeUnary? with
  | none => call .suffixed
  | some op => do
      let operand ← nested .unary
      pure (.unary op operand)

def suffixed : Code .suffixed Expr := do
  let mark ← depth
  let target ← call .primary
  again (.suffixes mark target)

def aggregateRest (source : Expr) (function : Aggregate) : Code .suffixed Expr := do
  if ← consume tokens .closeParen then pure (.aggregate source function)
  else
    let (parameter, body) ← call .lambda
    expect context tokens .closeParen
    pure (.aggregateOf source function parameter body)

def suffix (target : Expr) : Code .suffixed Expr := do
  let position ← position context tokens
  let name ← identifier context tokens
  if ← consume tokens .openParen then
    match Aggregate.named? name with
    | some function => aggregateRest context tokens target function
    | none =>
        match TextMethod.named? name with
        | some method => do
            let found ← call .arguments
            if found.length = method.arity then pure (.method target method found)
            else fail (.wrongArgumentCount name method.arity found.length) position
        | none => fail (.unknownMethod name) position
  else pure (.member target name)

def suffixes (mark : Nat) (target : Expr) : Code .suffixed Expr := do
  if ← consume tokens .dot then
    descend
    let longer ← suffix context tokens target
    again (.suffixes mark longer)
  else
    move (Cursor.restore mark)
    pure target

def named (name : String) (position : Nat) : Code .primary Expr := do
  if ← consume tokens .openParen then
    if context.isFunction name then
      let found ← call .arguments
      pure (.call name found)
    else fail (.unknownFunction name) position
  else if (← scope).contains name then pure (.var name)
  else fail (.undefinedVariable name) position

def primary : Code .primary Expr := do
  let position ← position context tokens
  match ← next? tokens with
  | some (.number value) => pure (.literal (.ofFloat value))
  | some (.text content) => pure (.literal (.string content))
  | some (.keyword .trueWord) => pure (.literal (.bool true))
  | some (.keyword .falseWord) => pure (.literal (.bool false))
  | some (.keyword .nullWord) => pure (.literal .null)
  | some (.mark .openParen) => do
      let inner ← call .expression
      expect context tokens .closeParen
      pure inner
  | some (.keyword .newWord) => call .object
  | some (.identifier name) => named context tokens name position
  | found => fail (.expectedExpression found) position

def memberValue (position : Nat) : Code .object (String × Expr) := do
  match ← optional tokens 2 givenName? with
  | some name => do
      let value ← call .expression
      pure (name, value)
  | none => do
      let value ← call .expression
      match impliedName? value with
      | some name => pure (name, value)
      | none => fail .unnamedMember position

def member (found : List (String × Expr)) : Code .object Expr := do
  let position ← position context tokens
  let (name, value) ← memberValue tokens position
  if (found.map Prod.fst).contains name then fail (.duplicateMember name) position
  else again (.members (found ++ [(name, value)]))

def object : Code .object Expr := do
  expect context tokens .openBrace
  if ← consume tokens .closeBrace then pure (.object [])
  else member context tokens []

def moreMembers (found : List (String × Expr)) : Code .object Expr := do
  if ← consume tokens .closeBrace then pure (.object found)
  else
    expect context tokens .comma
    if ← consume tokens .closeBrace then pure (.object found)
    else member context tokens found

def lambda : Code .lambda (String × Expr) := do
  let parameter ← identifier context tokens
  expect context tokens .arrow
  move (Cursor.push parameter)
  let body ← callThen .expression Cursor.pop
  pure (parameter, body)

def arguments : Code .arguments (List Expr) := do
  if ← consume tokens .closeParen then pure []
  else
    let argument ← call .expression
    again (.arguments [argument])

def moreArguments (found : List Expr) : Code .arguments (List Expr) := do
  if ← consume tokens .closeParen then pure found
  else
    expect context tokens .comma
    let argument ← call .expression
    again (.arguments (found ++ [argument]))

end

end Code

section

variable (context : Context) (tokens : List Lexeme)

def Routine.code : (routine : Routine) → Code routine routine.Answer
  | .expression => Code.expression
  | .conditional => Code.conditional context tokens
  | .coalesce => Code.coalesce tokens
  | .operands level => Code.operands level
  | .unary => Code.unary tokens
  | .suffixed => Code.suffixed
  | .primary => Code.primary context tokens
  | .object => Code.object context tokens
  | .lambda => Code.lambda context tokens
  | .arguments => Code.arguments tokens

def Round.code : {routine : Routine} → Round routine → Code routine routine.Answer
  | _, .operands level mark left => Code.moreOperands tokens level mark left
  | _, .suffixes mark target => Code.suffixes context tokens mark target
  | _, .members found => Code.moreMembers context tokens found
  | _, .arguments found => Code.moreArguments context tokens found

def Code.task {routine : Routine} (code : Code routine routine.Answer) (cursor : Cursor) : Task routine :=
  code.run cursor fun value left => .done (.ok value) left

-- The routines that wait for an answer, from the inside out to the one that was started, each
-- with the checks that it has passed.
inductive Stack (started : Routine) : Routine → Type
  | bottom : Stack started started
  | push {callee : Routine} (caller : Routine) (checks : Nat)
      (resume : Except QueryError callee.Answer → Cursor → Task caller) (below : Stack started caller) :
      Stack started callee

def Stack.calls {started : Routine} : {callee : Routine} → Stack started callee → List (Routine × Nat)
  | _, .bottom => []
  | _, .push caller checks _ below => (caller, checks) :: below.calls

def levelsOf : List (Routine × Nat) → Nat
  | [] => 0
  | (_, checks) :: calls => checks + levelsOf calls

structure Machine (started : Routine) where
  routine : Routine
  checks : Nat
  task : Task routine
  below : Stack started routine

namespace Machine

variable {started : Routine}

def enter (started : Routine) (cursor : Cursor) : Machine started :=
  ⟨started, 0, (started.code context tokens).task cursor, .bottom⟩

def calls (machine : Machine started) : List (Routine × Nat) :=
  (machine.routine, machine.checks) :: machine.below.calls

def levels (machine : Machine started) : Nat := levelsOf machine.calls

def cursor (machine : Machine started) : Cursor :=
  match machine.task with
  | .done _ cursor | .call _ cursor _ | .descend cursor _ | .again _ cursor => cursor

def step : Machine started → Option (Machine started)
  | ⟨routine, checks, .call callee cursor resume, below⟩ =>
      some ⟨callee, 0, (callee.code context tokens).task cursor, .push routine checks resume below⟩
  | ⟨routine, checks, .descend cursor resume, below⟩ =>
      if cursor.depth < maxDepth then some ⟨routine, checks + 1, resume cursor.sink, below⟩
      else some ⟨routine, checks,
        .done (.error ⟨.nestedTooDeeply, context.position (cursor.ahead tokens)⟩) cursor.sink, below⟩
  | ⟨routine, checks, .again round cursor, below⟩ =>
      some ⟨routine, checks, (round.code context tokens).task cursor, below⟩
  | ⟨_, _, .done result cursor, .push caller checks resume below⟩ =>
      some ⟨caller, checks, resume result cursor, below⟩
  | ⟨_, _, .done _ _, .bottom⟩ => none

abbrev Reaches (machine later : Machine started) : Prop :=
  Relation.ReflTransGen (fun now next => now.step context tokens = some next) machine later

end Machine

end

end Grammar
end DocumentViews
