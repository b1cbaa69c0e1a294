import DocumentViews.Parsed
import DocumentViews.Query.Fault

set_option autoImplicit false

namespace DocumentViews

structure Lexeme where
  gap : List Char
  spelling : List Char
  token : Token
  position : Nat

namespace Lexeme

def byteSize : List Char → Nat
  | [] => 0
  | char :: rest => char.utf8Size + byteSize rest

def isGap (char : Char) : Bool :=
  char == ' ' || char == '\t' || char == '\r' || char == '\n' || char == '\x0c'

-- A comment runs from two slashes to the end of the line.
def splitGap (inComment : Bool) : List Char → List Char × List Char
  | [] => ([], [])
  | char :: rest =>
      if inComment then
        let (gap, text) := splitGap (char != '\n') rest
        (char :: gap, text)
      else if isGap char || (char == '/' && rest.head? == some '/') then
        let (gap, text) := splitGap (char == '/') rest
        (char :: gap, text)
      else ([], char :: rest)

def isNameStart (char : Char) : Bool := char.isAlpha || char == '_'

def isNamePart (char : Char) : Bool := char.isAlphanum || char == '_'

def unescape : Char → Char
  | 'n' => '\n'
  | 't' => '\t'
  | 'r' => '\r'
  | '0' => '\x00'
  | char => char

def numberOf (whole fraction : List Char) : Float :=
  let mantissa := (whole ++ fraction).foldl (fun number char => number * 10 + (char.toNat - '0'.toNat)) 0
  Dyadic.nearestDecimal false mantissa (-(fraction.length : Int))

-- A text that is not closed yields what it consists of so far.
def quoted (quote : Char) : List Char → Except (List Char) ((List Char × List Char) × List Char)
  | [] => .error []
  | '\\' :: char :: rest =>
      if char = '\n' then .error []
      else match quoted quote rest with
        | .ok ((content, spelling), text) => .ok ((unescape char :: content, '\\' :: char :: spelling), text)
        | .error piece => .error ('\\' :: char :: piece)
  | char :: rest =>
      if char = quote then .ok (([], [char]), rest)
      else if char = '\\' then .error []
      else match quoted quote rest with
        | .ok ((content, spelling), text) => .ok ((char :: content, char :: spelling), text)
        | .error piece => .error (char :: piece)

def scan (first : Char) (rest : List Char) : Except (List Char) (Token × List Char) :=
  if isNameStart first then
    let name := first :: rest.takeWhile isNamePart
    match Keyword.named? (String.ofList name) with
    | some word => .ok (.keyword word, name)
    | none => .ok (.identifier (String.ofList name), name)
  else if first.isDigit then
    let whole := first :: rest.takeWhile Char.isDigit
    let fraction := match rest.dropWhile Char.isDigit with
      | '.' :: more => more.takeWhile Char.isDigit
      | _ => []
    .ok (.number (numberOf whole fraction), if fraction.isEmpty then whole else whole ++ '.' :: fraction)
  else if first = '"' ∨ first = '\'' then
    match quoted first rest with
    | .ok ((content, spelling), _) => .ok (.text (String.ofList content), first :: spelling)
    | .error piece => .error (first :: piece)
  else
    match Mark.all.find? fun mark => mark.spelling.isPrefixOf (first :: rest) with
    | some mark => .ok (.mark mark, mark.spelling)
    | none => .error [first]

theorem splitGap_length (inComment : Bool) (text : List Char) :
    (splitGap inComment text).2.length ≤ text.length := by
  induction text generalizing inComment with
  | nil => simp [splitGap]
  | cons char rest ih =>
      simp only [splitGap]
      split
      · exact Nat.le_succ_of_le (ih _)
      · split
        · exact Nat.le_succ_of_le (ih _)
        · simp

def lexemesFrom (position : Nat) (text : List Char) : Except QueryError (List Lexeme) :=
  match _found : splitGap false text with
  | (_, []) => .ok []
  | (gap, first :: rest) =>
      let start := position + byteSize gap
      match scan first rest with
      | .error piece => .error ⟨.unexpectedInput (String.ofList piece), start⟩
      | .ok (token, spelling) => do
          let others ← lexemesFrom (start + byteSize spelling) (rest.drop (spelling.length - 1))
          .ok (⟨gap, spelling, token, start⟩ :: others)
termination_by text.length
decreasing_by
  have := splitGap_length false text
  simp only [_found, List.length_cons] at this
  simp only [List.length_drop]
  omega

end Lexeme

def tokenize (text : String) : Except QueryError (List Lexeme) := Lexeme.lexemesFrom 0 text.toList

-- A text that cannot be split into tokens is like itself only.
def sameTokens (left right : String) : Bool :=
  left == right ||
    match tokenize left, tokenize right with
    | .ok left, .ok right =>
        left.length == right.length && (left.zip right).all fun (one, other) => one.token.same other.token
    | _, _ => false

end DocumentViews
