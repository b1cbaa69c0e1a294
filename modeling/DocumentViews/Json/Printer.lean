import DocumentViews.Json.Value
import DocumentViews.Number.Layout

set_option autoImplicit false

namespace DocumentViews

def escape (char : Char) : List Char :=
  if char = '"' then ['\\', '"']
  else if char = '\\' then ['\\', '\\']
  else if char = '\x08' then ['\\', 'b']
  else if char = '\x0c' then ['\\', 'f']
  else if char = '\n' then ['\\', 'n']
  else if char = '\r' then ['\\', 'r']
  else if char = '\t' then ['\\', 't']
  else if char.toNat < 0x20 then
    ['\\', 'u', '0', '0', Nat.digitChar (char.toNat / 16), Nat.digitChar (char.toNat % 16)]
  else [char]

def quoted (text : String) : List Char := '"' :: (text.toList.flatMap escape ++ ['"'])

namespace Number

def chars : Number → List Char
  | .integer value _ => (if value < 0 then ['-'] else []) ++ Nat.toDigits 10 value.natAbs
  | .double value => (NumberLayout.json.write value).toList

end Number

namespace Value

def flagText (flag : Bool) : List Char :=
  if flag then ['t', 'r', 'u', 'e'] else ['f', 'a', 'l', 's', 'e']

mutual

def chars : Value → List Char
  | .null => ['n', 'u', 'l', 'l']
  | .bool flag => flagText flag
  | .number amount => amount.chars
  | .string text => quoted text
  | .array items => '[' :: (itemChars items ++ [']'])
  | .object members => '\x7b' :: (memberChars members ++ ['\x7d'])

def itemChars : List Value → List Char
  | [] => []
  | [item] => chars item
  | item :: rest => chars item ++ ',' :: itemChars rest

def memberChars : List (String × Value) → List Char
  | [] => []
  | [(name, value)] => quoted name ++ ':' :: chars value
  | (name, value) :: rest => quoted name ++ ':' :: (chars value ++ ',' :: memberChars rest)

end

def compact (value : Value) : String := String.ofList value.chars

def newLine (level : Nat) : List Char := '\n' :: List.replicate (2 * level) ' '

mutual

def lines (level : Nat) : Value → List Char
  | .array (item :: items) =>
      '[' :: (newLine (level + 1) ++ lines (level + 1) item ++ moreItems level items ++ newLine level ++ [']'])
  | .object ((name, value) :: members) =>
      '\x7b' :: (newLine (level + 1) ++ quoted name ++ ':' :: ' ' :: lines (level + 1) value ++
        moreMembers level members ++ newLine level ++ ['\x7d'])
  | .array [] => ['[', ']']
  | .object [] => ['\x7b', '\x7d']
  | .null => ['n', 'u', 'l', 'l']
  | .bool flag => flagText flag
  | .number amount => amount.chars
  | .string text => quoted text

def moreItems (level : Nat) : List Value → List Char
  | [] => []
  | item :: rest => ',' :: (newLine (level + 1) ++ lines (level + 1) item ++ moreItems level rest)

def moreMembers (level : Nat) : List (String × Value) → List Char
  | [] => []
  | (name, value) :: rest =>
      ',' :: (newLine (level + 1) ++ quoted name ++ ':' :: ' ' :: lines (level + 1) value ++
        moreMembers level rest)

end

def pretty (value : Value) : String := String.ofList (value.lines 0)

end Value
end DocumentViews
