import DocumentViews.Json.Printer

set_option autoImplicit false

namespace DocumentViews

inductive UnaryOp
  | not
  | negate
deriving DecidableEq, Repr

def UnaryOp.symbol : UnaryOp → String
  | not => "!"
  | negate => "-"

inductive BinaryOp
  | multiply
  | divide
  | remainder
  | add
  | subtract
  | less
  | lessEqual
  | greater
  | greaterEqual
  | equal
  | notEqual
  | both
  | either
  | coalesce
deriving DecidableEq, Repr

def BinaryOp.symbol : BinaryOp → String
  | multiply => "*"
  | divide => "/"
  | remainder => "%"
  | add => "+"
  | subtract => "-"
  | less => "<"
  | lessEqual => "<="
  | greater => ">"
  | greaterEqual => ">="
  | equal => "=="
  | notEqual => "!="
  | both => "&&"
  | either => "||"
  | coalesce => "??"

inductive TextMethod
  | toLower
  | toUpper
  | trim
  | contains
  | startsWith
  | endsWith
deriving DecidableEq, Repr

namespace TextMethod

def name : TextMethod → String
  | toLower => "ToLower"
  | toUpper => "ToUpper"
  | trim => "Trim"
  | contains => "Contains"
  | startsWith => "StartsWith"
  | endsWith => "EndsWith"

def arity : TextMethod → Nat
  | toLower | toUpper | trim => 0
  | contains | startsWith | endsWith => 1

def all : List TextMethod := [toLower, toUpper, trim, contains, startsWith, endsWith]

theorem mem_all (method : TextMethod) : method ∈ all := by cases method <;> simp [all]

def named? (name : String) : Option TextMethod := all.find? fun method => method.name == name

end TextMethod

inductive Aggregate
  | count
  | sum
  | min
  | max
  | average
  | any
deriving DecidableEq, Repr

namespace Aggregate

def name : Aggregate → String
  | count => "Count"
  | sum => "Sum"
  | min => "Min"
  | max => "Max"
  | average => "Average"
  | any => "Any"

def all : List Aggregate := [count, sum, min, max, average, any]

theorem mem_all (function : Aggregate) : function ∈ all := by cases function <;> simp [all]

def named? (name : String) : Option Aggregate := all.find? fun function => function.name == name

end Aggregate

inductive Expr
  | literal (value : Value)
  | var (name : String)
  | member (target : Expr) (name : String)
  | unary (op : UnaryOp) (operand : Expr)
  | binary (op : BinaryOp) (left right : Expr)
  | conditional (test consequent alternative : Expr)
  | method (target : Expr) (asked : TextMethod) (arguments : List Expr)
  | aggregate (source : Expr) (function : Aggregate)
  | aggregateOf (source : Expr) (function : Aggregate) (parameter : String) (body : Expr)
  | call (function : String) (arguments : List Expr)
  | object (members : List (String × Expr))

namespace Expr

instance : Inhabited Expr := ⟨.literal .null⟩

def memberNames? : Expr → Option (List String)
  | .object members => some (members.map Prod.fst)
  | _ => none

mutual

def text : Expr → String
  | .literal value => value.compact
  | .var name => name
  | .member target name => text target ++ "." ++ name
  | .unary op operand => op.symbol ++ text operand
  | .binary op left right => "(" ++ text left ++ " " ++ op.symbol ++ " " ++ text right ++ ")"
  | .conditional test consequent alternative =>
      "(" ++ text test ++ " ? " ++ text consequent ++ " : " ++ text alternative ++ ")"
  | .method target asked arguments => text target ++ "." ++ asked.name ++ "(" ++ argumentText arguments ++ ")"
  | .aggregate source function => text source ++ "." ++ function.name ++ "()"
  | .aggregateOf source function parameter body =>
      text source ++ "." ++ function.name ++ "(" ++ parameter ++ " => " ++ text body ++ ")"
  | .call function arguments => function ++ "(" ++ argumentText arguments ++ ")"
  | .object members => "new \x7b " ++ memberText members ++ " \x7d"

def argumentText : List Expr → String
  | [] => ""
  | [argument] => text argument
  | argument :: rest => text argument ++ ", " ++ argumentText rest

def memberText : List (String × Expr) → String
  | [] => ""
  | [(name, value)] => name ++ " = " ++ text value
  | (name, value) :: rest => name ++ " = " ++ text value ++ ", " ++ memberText rest

end

end Expr

inductive Source
  | documents (collection : Option String)
  | results
deriving DecidableEq, Repr

namespace Source

def text : Source → String
  | documents none => "docs"
  | documents (some collection) => "docs." ++ collection
  | results => "results"

end Source

inductive Clause
  | each (name : String) (source : Expr)
  | define (name : String) (value : Expr)
  | filter (condition : Expr)

def Clause.text : Clause → String
  | each name source => "\nfrom " ++ name ++ " in " ++ source.text
  | define name value => "\nlet " ++ name ++ " = " ++ value.text
  | filter condition => "\nwhere " ++ condition.text

structure GroupClause where
  element : Expr
  key : Expr
  into : String

def GroupClause.text (group : GroupClause) : String :=
  "\ngroup " ++ group.element.text ++ " by " ++ group.key.text ++ " into " ++ group.into

structure Query where
  range : String
  source : Source
  clauses : List Clause
  group : Option GroupClause
  select : Expr

namespace Query

def outputFields? (query : Query) : Option (List String) := query.select.memberNames?

def text (query : Query) : String :=
  "from " ++ query.range ++ " in " ++ query.source.text ++ String.join (query.clauses.map Clause.text) ++
    (match query.group with
      | some group => group.text
      | none => "") ++
    "\nselect " ++ query.select.text

end Query
end DocumentViews
