import DocumentViews.Json.Printer
import DocumentViews.Query.Expr
import DocumentViews.Text.Blank
import DocumentViews.Text.LetterCase

set_option autoImplicit false

namespace DocumentViews

namespace Value

def joined : Value → String
  | .null => ""
  | .string text => text
  | other => other.compact

def truthy : Value → Bool
  | .null => false
  | .bool flag => flag
  | .number amount => amount.toFloat != 0
  | .string text => !text.isEmpty
  | .array _ => true
  | .object _ => true

def equal (left right : Value) : Bool :=
  match left.toFloat?, right.toFloat? with
  | some one, some other => one == other
  | _, _ => left.same right

def order? : Value → Value → Option Ordering
  | .number left, .number right =>
      let one := left.toFloat
      let other := right.toFloat
      if one < other then some .lt
      else if one == other then some .eq
      else if one > other then some .gt
      else none
  | .string left, .string right => some (compare left right)
  | .bool left, .bool right => some (compare left right)
  | _, _ => none

def member (target : Value) (name : String) : Value :=
  match target with
  | .object members => (members.lookup name).getD .null
  | .array items => if name = "Length" ∨ name = "Count" then .ofNat items.length else .null
  | .string text => if name = "Length" then .ofNat text.length else .null
  | _ => .null

def items : Value → List Value
  | .array items => items
  | _ => []

end Value

namespace Arithmetic

def remainder (dividend divisor : Float) : Float :=
  match Dyadic.ofFloat? dividend, Dyadic.ofFloat? divisor with
  | some dividend, some divisor => (dividend.remainder divisor).toFloat
  | _, _ => dividend

def result? (op : BinaryOp) (left right : Float) : Option Float :=
  match op with
  | .add => some (left + right)
  | .subtract => some (left - right)
  | .multiply => some (left * right)
  | .divide => if right == 0 then none else some (left / right)
  | .remainder => if right == 0 then none else some (remainder left right)
  | _ => none

end Arithmetic

namespace BinaryOp

def apply (op : BinaryOp) (left right : Value) : Value :=
  match op with
  | equal => .bool (left.equal right)
  | notEqual => .bool (!left.equal right)
  | less => .bool (left.order? right == some .lt)
  | lessEqual => .bool (left.order? right == some .lt || left.order? right == some .eq)
  | greater => .bool (left.order? right == some .gt)
  | greaterEqual => .bool (left.order? right == some .gt || left.order? right == some .eq)
  | op =>
      if op = add ∧ (left.text?.isSome ∨ right.text?.isSome) then .string (left.joined ++ right.joined)
      else match left.toFloat?, right.toFloat? with
        | some one, some other =>
            match Arithmetic.result? op one other with
            | some result => .ofFloat result
            | none => .null
        | _, _ => .null

end BinaryOp

namespace UnaryOp

def apply (op : UnaryOp) (operand : Value) : Value :=
  match op with
  | not => .bool (!operand.truthy)
  | negate =>
      match operand.toFloat? with
      | some amount => .ofFloat (-amount)
      | none => .null

end UnaryOp

namespace TextMethod

def occurs (part : List Char) : List Char → Bool
  | [] => part.isEmpty
  | char :: rest => part.isPrefixOf (char :: rest) || occurs part rest

def apply (method : TextMethod) (target : Value) (arguments : List Value) : Value :=
  match target with
  | .string text =>
      let holds (test : List Char → List Char → Bool) : Value :=
        .bool (match arguments.head?.bind Value.text? with
          | some part => test part.toList text.toList
          | none => false)
      match method with
      | toLower => .string (LetterCase.toLower text)
      | toUpper => .string (LetterCase.toUpper text)
      | trim => .string (Blank.trim text)
      | contains => holds occurs
      | startsWith => holds List.isPrefixOf
      | endsWith => holds List.isSuffixOf
  | _ => .null

end TextMethod

namespace Aggregate

-- The extreme of the items that are not null. An item replaces the best so far only if it
-- is beyond it.
def extreme (wanted : Ordering) (items : List Value) : Value :=
  match items.filter fun item => !item.isNull with
  | [] => .null
  | first :: rest => rest.foldl (fun best item => if item.order? best == some wanted then item else best) first

def apply (function : Aggregate) (projected : Bool) (items : List Value) : Value :=
  let numbers := items.filterMap Value.toFloat?
  let total := numbers.foldl (· + ·) 0
  match function with
  | count => .ofNat items.length
  | any => .bool (if projected then items.any Value.truthy else !items.isEmpty)
  | sum => .ofFloat total
  | average => if numbers.isEmpty then .null else .ofFloat (total / Dyadic.nearest false numbers.length 1)
  | min => extreme .lt items
  | max => extreme .gt items

end Aggregate
end DocumentViews
