import DocumentViews.Query.Token

set_option autoImplicit false

namespace DocumentViews

inductive QueryFault
  | unexpectedInput (piece : String)
  | emptyText
  | afterSelect (found : Token)
  | expected (wanted : Token) (found : Option Token)
  | expectedIdentifier (found : Option Token)
  | expectedExpression (found : Option Token)
  | unknownSource (name : String)
  | unknownMethod (name : String)
  | unknownFunction (name : String)
  | undefinedVariable (name : String)
  | definedTwice (name : String)
  | wrongArgumentCount (method : String) (wanted got : Nat)
  | unnamedMember
  | duplicateMember (name : String)
  | nestedTooDeeply

namespace QueryFault

def message : QueryFault → String
  | unexpectedInput piece => "unexpected input '" ++ piece ++ "'"
  | emptyText => "expression is empty"
  | afterSelect found => "unexpected " ++ found.describe ++ " after select"
  | expected wanted none => "expected " ++ wanted.describe ++ ", found end of input"
  | expected wanted (some found) => "expected " ++ wanted.describe ++ ", found " ++ found.describe
  | expectedIdentifier none => "expected identifier but reached end of input"
  | expectedIdentifier (some found) => "expected identifier, found " ++ found.describe
  | expectedExpression none => "expected expression but reached end of input"
  | expectedExpression (some found) => "expected expression, found " ++ found.describe
  | unknownSource name => "unknown source '" ++ name ++ "', expected 'docs' or 'results'"
  | unknownMethod name => "unknown method '" ++ name ++ "'"
  | unknownFunction name => "unknown function '" ++ name ++ "'"
  | undefinedVariable name => "'" ++ name ++ "' is not defined"
  | definedTwice name => "'" ++ name ++ "' is already defined"
  | wrongArgumentCount method wanted got =>
      method ++ " expects " ++ toString wanted ++ " argument(s), got " ++ toString got
  | unnamedMember => "anonymous object members must be named (Name = ...)"
  | duplicateMember name => "duplicate member '" ++ name ++ "'"
  | nestedTooDeeply => "expression nested too deeply"

end QueryFault

structure QueryError where
  fault : QueryFault
  position : Nat

def QueryError.message (error : QueryError) : String :=
  error.fault.message ++ " near byte " ++ toString error.position

end DocumentViews
