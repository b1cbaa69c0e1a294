import DocumentViews.Number.Binary
import DocumentViews.SortedMap

-- The members of an object stand in ascending order of their names, so equal objects are
-- equal as lists.

set_option autoImplicit false

namespace DocumentViews

-- An integer and a double are different numbers even where they have the same value.
inductive Number
  | integer (value : Int) (inRange : -0x8000000000000000 ≤ value ∧ value < 0x10000000000000000)
  | double (value : Float)

namespace Number

def ofInt (value : Int) : Number :=
  if inRange : -0x8000000000000000 ≤ value ∧ value < 0x10000000000000000 then .integer value inRange
  else .double (Dyadic.nearest (decide (value < 0)) value.natAbs 1)

def toFloat : Number → Float
  | .integer value _ => Dyadic.nearest (decide (value < 0)) value.natAbs 1
  | .double value => value

def same : Number → Number → Bool
  | .integer left _, .integer right _ => left == right
  | .double left, .double right => left == right
  | _, _ => false

end Number

inductive Value
  | null
  | bool (flag : Bool)
  | number (number : Number)
  | string (text : String)
  | array (items : List Value)
  | object (members : List (String × Value))

namespace Value

instance : Inhabited Value := ⟨.null⟩

def ofNat (count : Nat) : Value := .number (.ofInt count)

-- What arithmetic yields: an integer where the double is integral and below 2⁶³ in
-- magnitude, so that negative zero becomes zero, and null where the double is not finite.
def ofFloat (value : Float) : Value :=
  match Dyadic.ofFloat? value with
  | none => .null
  | some exact =>
      match exact.toInt? with
      | some whole => if whole.natAbs < 0x8000000000000000 then .number (.ofInt whole) else .number (.double value)
      | none => .number (.double value)

def toFloat? : Value → Option Float
  | .number operand => some operand.toFloat
  | _ => none

def isNull : Value → Bool
  | .null => true
  | _ => false

def text? : Value → Option String
  | .string text => some text
  | _ => none

mutual

def same : Value → Value → Bool
  | .null, .null => true
  | .bool left, .bool right => left == right
  | .number left, .number right => left.same right
  | .string left, .string right => left == right
  | .array left, .array right => sameItems left right
  | .object left, .object right => sameMembers left right
  | _, _ => false

def sameItems : List Value → List Value → Bool
  | [], [] => true
  | left :: lefts, right :: rights => same left right && sameItems lefts rights
  | _, _ => false

def sameMembers : List (String × Value) → List (String × Value) → Bool
  | [], [] => true
  | (leftName, left) :: lefts, (rightName, right) :: rights =>
      leftName == rightName && same left right && sameMembers lefts rights
  | _, _ => false

end

def ofMembers (members : List (String × Value)) : Value :=
  .object (members.foldl (fun sorted member => SortedMap.insertEntry member.1 member.2 sorted) [])

end Value
end DocumentViews
