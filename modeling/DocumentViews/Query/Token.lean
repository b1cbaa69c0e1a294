import DocumentViews.Number.Layout

set_option autoImplicit false

namespace DocumentViews

inductive Keyword
  | fromWord
  | inWord
  | whereWord
  | letWord
  | selectWord
  | groupWord
  | byWord
  | intoWord
  | newWord
  | trueWord
  | falseWord
  | nullWord
deriving DecidableEq, Repr

namespace Keyword

def spelling : Keyword → String
  | fromWord => "from"
  | inWord => "in"
  | whereWord => "where"
  | letWord => "let"
  | selectWord => "select"
  | groupWord => "group"
  | byWord => "by"
  | intoWord => "into"
  | newWord => "new"
  | trueWord => "true"
  | falseWord => "false"
  | nullWord => "null"

def all : List Keyword :=
  [fromWord, inWord, whereWord, letWord, selectWord, groupWord, byWord, intoWord, newWord, trueWord, falseWord,
    nullWord]

theorem mem_all (word : Keyword) : word ∈ all := by cases word <;> simp [all]

def named? (name : String) : Option Keyword := all.find? fun word => word.spelling == name

end Keyword

inductive Mark
  | arrow
  | equal
  | notEqual
  | lessEqual
  | greaterEqual
  | both
  | either
  | coalesce
  | less
  | greater
  | question
  | colon
  | bang
  | assign
  | plus
  | minus
  | star
  | slash
  | percent
  | dot
  | comma
  | openParen
  | closeParen
  | openBrace
  | closeBrace
deriving DecidableEq, Repr

namespace Mark

def spelling : Mark → List Char
  | arrow => ['=', '>']
  | equal => ['=', '=']
  | notEqual => ['!', '=']
  | lessEqual => ['<', '=']
  | greaterEqual => ['>', '=']
  | both => ['&', '&']
  | either => ['|', '|']
  | coalesce => ['?', '?']
  | less => ['<']
  | greater => ['>']
  | question => ['?']
  | colon => [':']
  | bang => ['!']
  | assign => ['=']
  | plus => ['+']
  | minus => ['-']
  | star => ['*']
  | slash => ['/']
  | percent => ['%']
  | dot => ['.']
  | comma => [',']
  | openParen => ['(']
  | closeParen => [')']
  | openBrace => ['\x7b']
  | closeBrace => ['\x7d']

def all : List Mark :=
  [arrow, equal, notEqual, lessEqual, greaterEqual, both, either, coalesce, less, greater, question, colon, bang,
    assign, plus, minus, star, slash, percent, dot, comma, openParen, closeParen, openBrace, closeBrace]

theorem mem_all (mark : Mark) : mark ∈ all := by cases mark <;> simp [all]

end Mark

-- A word of a query. Numbers are not negative; a sign is a mark of its own.
inductive Token
  | keyword (word : Keyword)
  | mark (mark : Mark)
  | identifier (name : String)
  | number (value : Float)
  | text (content : String)

namespace Token

def same : Token → Token → Bool
  | keyword left, keyword right => left == right
  | mark left, mark right => left == right
  | identifier left, identifier right => left == right
  | number left, number right => left == right
  | text left, text right => left == right
  | _, _ => false

def describe : Token → String
  | keyword word => "'" ++ word.spelling ++ "'"
  | mark found => "'" ++ String.ofList found.spelling ++ "'"
  | identifier name => "identifier '" ++ name ++ "'"
  | number value => "number " ++ NumberLayout.message.write value
  | text content => "string \"" ++ content ++ "\""

end Token
end DocumentViews
