import DocumentViews.Query.Operation

set_option autoImplicit false

namespace DocumentViews

namespace Builtin

def onNumber (change : Float → Value) (arguments : List Value) : Value :=
  match arguments.head?.bind Value.toFloat? with
  | some amount => change amount
  | none => .null

def abs : List Value → Value := onNumber fun amount => .ofFloat (if amount < 0 then -amount else amount)

def rounded (rounding : Dyadic.Rounding) : List Value → Value := onNumber fun amount =>
  match Dyadic.ofFloat? amount with
  | some exact =>
      if exact.toInt?.isSome then .ofFloat amount else .number (.ofInt (exact.round rounding))
  | none => .null

def len (arguments : List Value) : Value :=
  match arguments.head? with
  | some (.string text) => .ofNat text.length
  | some (.array items) => .ofNat items.length
  | some (.object members) => .ofNat members.length
  | _ => .null

def concat (arguments : List Value) : Value := .string (String.join (arguments.map Value.joined))

def isNullOrEmpty (arguments : List Value) : Value :=
  match arguments.head? with
  | none => .bool true
  | some .null => .bool true
  | some (.string text) => .bool text.isEmpty
  | some _ => .bool false

def splitAt (separator : List Char) : (skip : Nat) → List Char → List (List Char)
  | _, [] => [[]]
  | skip + 1, _ :: rest => splitAt separator skip rest
  | 0, char :: rest =>
      if separator.isPrefixOf (char :: rest) then [] :: splitAt separator (separator.length - 1) rest
      else match splitAt separator 0 rest with
        | [] => [[char]]
        | part :: parts => (char :: part) :: parts

def split (arguments : List Value) : Value :=
  match arguments with
  | .string text :: .string separator :: _ =>
      if separator.isEmpty then .array [.string text]
      else .array ((splitAt separator.toList 0 text.toList).map fun part => .string (String.ofList part))
  | _ => .null

end Builtin
end DocumentViews
