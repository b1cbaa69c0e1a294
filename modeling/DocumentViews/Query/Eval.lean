import DocumentViews.Query.Extension

set_option autoImplicit false

namespace DocumentViews

structure Grouping where
  key : Value
  items : List Value

inductive Binding
  | value (value : Value)
  | group (grouping : Grouping)

abbrev Scope := List (String × Binding)

namespace Grouping

def member (grouping : Grouping) (name : String) : Value :=
  if name = "Key" then grouping.key
  else if name = "Count" ∨ name = "Length" then .ofNat grouping.items.length
  else .null

end Grouping

namespace Expr

def grouping? (scope : Scope) : Expr → Option Grouping
  | .var name =>
      match scope.lookup name with
      | some (.group grouping) => some grouping
      | _ => none
  | _ => none

def variableValue (scope : Scope) (name : String) : Value :=
  match scope.lookup name with
  | some (.value value) => value
  | some (.group grouping) => .array grouping.items
  | none => .null

mutual

-- The value of an expression. The right operand of `&&`, `||` and `??` and the branches of
-- a conditional are evaluated only if they are needed.
def eval (extensions : Extensions) (scope : Scope) : Expr → Value
  | .literal value => value
  | .var name => variableValue scope name
  | .member target name =>
      match target.grouping? scope with
      | some grouping => grouping.member name
      | none => (eval extensions scope target).member name
  | .unary op operand => op.apply (eval extensions scope operand)
  | .binary op left right =>
      match op with
      | .both => .bool ((eval extensions scope left).truthy && (eval extensions scope right).truthy)
      | .either => .bool ((eval extensions scope left).truthy || (eval extensions scope right).truthy)
      | .coalesce =>
          let value := eval extensions scope left
          if value.isNull then eval extensions scope right else value
      | op => op.apply (eval extensions scope left) (eval extensions scope right)
  | .conditional test consequent alternative =>
      if (eval extensions scope test).truthy then eval extensions scope consequent
      else eval extensions scope alternative
  | .method target asked arguments =>
      asked.apply (eval extensions scope target) (evalAll extensions scope arguments)
  | .aggregate source function => function.apply false (eval extensions scope source).items
  | .aggregateOf source function parameter body =>
      function.apply true
        ((eval extensions scope source).items.map fun item =>
          eval extensions ((parameter, .value item) :: scope) body)
  | .call function arguments => extensions.call function (evalAll extensions scope arguments)
  | .object members => .ofMembers (evalMembers extensions scope members)

def evalAll (extensions : Extensions) (scope : Scope) : List Expr → List Value
  | [] => []
  | expr :: rest => eval extensions scope expr :: evalAll extensions scope rest

def evalMembers (extensions : Extensions) (scope : Scope) : List (String × Expr) → List (String × Value)
  | [] => []
  | (name, expr) :: rest => (name, eval extensions scope expr) :: evalMembers extensions scope rest

end

end Expr

abbrev Row := List (String × Value)

namespace Row

def scope (row : Row) : Scope := row.map fun entry => (entry.1, .value entry.2)

def eval (extensions : Extensions) (row : Row) (expr : Expr) : Value := expr.eval extensions row.scope

end Row

def Clause.expand (extensions : Extensions) (row : Row) : Clause → List Row
  | each name source => (Row.eval extensions row source).items.map fun item => (name, item) :: row
  | define name value => [(name, Row.eval extensions row value) :: row]
  | filter condition => if (Row.eval extensions row condition).truthy then [row] else []

namespace GroupClause

def fingerprint (key : Value) : String := key.compact

def insert (key element : Value) : List Grouping → List Grouping
  | [] => [⟨key, [element]⟩]
  | grouping :: rest =>
      if fingerprint grouping.key = fingerprint key then { grouping with items := grouping.items ++ [element] } :: rest
      else grouping :: insert key element rest

def groupings (extensions : Extensions) (group : GroupClause) (rows : List Row) : List Grouping :=
  rows.foldl
    (fun groupings row => insert (row.eval extensions group.key) (row.eval extensions group.element) groupings) []

end GroupClause

namespace Query

def rows (extensions : Extensions) (query : Query) (input : List Value) : List Row :=
  query.clauses.foldl (fun rows clause => rows.flatMap fun row => clause.expand extensions row)
    (input.map fun item => [(query.range, item)])

def run (extensions : Extensions) (query : Query) (input : List Value) : List Value :=
  let rows := query.rows extensions input
  match query.group with
  | none => rows.map fun row => row.eval extensions query.select
  | some group =>
      (group.groupings extensions rows).map fun grouping =>
        query.select.eval extensions [(group.into, .group grouping)]

end Query
end DocumentViews
