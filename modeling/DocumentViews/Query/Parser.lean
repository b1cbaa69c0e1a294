import DocumentViews.Query.Grammar

set_option autoImplicit false

namespace DocumentViews.Grammar

def expectKeyword (context : Context) (word : Keyword) (tokens : List Lexeme) :
    Except QueryError (Parsed tokens Unit) :=
  expect context (.keyword word) tokens

def takeKeyword? (word : Keyword) (tokens : List Lexeme) : Option (Parsed tokens Unit) := take? (.keyword word) tokens

def source (context : Context) (tokens : List Lexeme) : Except QueryError (Parsed tokens Source) := do
  let name ← identifier context tokens
  if name.value = "docs" then
    match takeMark? .dot name.rest with
    | some dot => do
        let collection ← identifier context dot.rest
        .ok (name.after (dot.after (collection.map fun collection => .documents (some collection))))
    | none => .ok (name.map fun _ => .documents none)
  else if name.value = "results" then .ok (name.map fun _ => .results)
  else context.fail tokens (.unknownSource name.value)

def definition (context : Context) (scope : List String) (mark : Token) (tokens : List Lexeme) :
    Except QueryError (Parsed tokens (String × Expr)) := do
  let name ← identifier context tokens
  let sign ← expect context mark name.rest
  let value ← expression context scope sign.rest
  if scope.contains name.value then context.fail value.rest (.definedTwice name.value)
  else .ok (name.after (sign.after (value.map (name.value, ·))))

def clause? (context : Context) (scope : List String) (tokens : List Lexeme) :
    Except QueryError (Option (Parsed tokens (Clause × List String))) :=
  match takeKeyword? .fromWord tokens with
  | some word => do
      let found ← definition context scope (.keyword .inWord) word.rest
      .ok (some (word.after (found.map fun (name, list) => (.each name list, name :: scope))))
  | none =>
      match takeKeyword? .letWord tokens with
      | some word => do
          let found ← definition context scope (.mark .assign) word.rest
          .ok (some (word.after (found.map fun (name, value) => (.define name value, name :: scope))))
      | none =>
          match takeKeyword? .whereWord tokens with
          | some word => do
              let condition ← expression context scope word.rest
              .ok (some (word.after (condition.map fun condition => (.filter condition, scope))))
          | none => .ok none

def clauses (context : Context) (scope : List String) (tokens : List Lexeme) :
    Except QueryError (List Clause × List String × List Lexeme) := do
  match ← clause? context scope tokens with
  | none => .ok ([], scope, tokens)
  | some found => do
      let (others, scope, rest) ← clauses context found.value.2 found.rest
      .ok (found.value.1 :: others, scope, rest)
termination_by tokens.length
decreasing_by exact found.shorter

def group (context : Context) (scope : List String) (tokens : List Lexeme) :
    Except QueryError (Option GroupClause × List String × List Lexeme) :=
  match takeKeyword? .groupWord tokens with
  | none => .ok (none, scope, tokens)
  | some word => do
      let element ← expression context scope word.rest
      let byWord ← expectKeyword context .byWord element.rest
      let key ← expression context scope byWord.rest
      let intoWord ← expectKeyword context .intoWord key.rest
      let name ← identifier context intoWord.rest
      .ok (some ⟨element.value, key.value, name.value⟩, [name.value], name.rest)

def query (context : Context) (tokens : List Lexeme) : Except QueryError (Query × List Lexeme) := do
  let fromWord ← expectKeyword context .fromWord tokens
  let range ← identifier context fromWord.rest
  let inWord ← expectKeyword context .inWord range.rest
  let source ← source context inWord.rest
  let (clauses, scope, rest) ← clauses context [range.value] source.rest
  let (group, scope, rest) ← group context scope rest
  let selectWord ← expectKeyword context .selectWord rest
  let select ← expression context scope selectWord.rest
  .ok (⟨range.value, source.value, clauses, group, select.value⟩, select.rest)

end DocumentViews.Grammar

namespace DocumentViews.Query

def parse (isFunction : String → Bool) (text : String) : Except QueryError Query := do
  let tokens ← tokenize text
  if tokens.isEmpty then .error ⟨.emptyText, 0⟩
  else do
    let context : Grammar.Context := ⟨isFunction, text.utf8ByteSize⟩
    let (query, rest) ← Grammar.query context tokens
    match rest with
    | [] => .ok query
    | lexeme :: _ => .error ⟨.afterSelect lexeme.token, lexeme.position⟩

end DocumentViews.Query
