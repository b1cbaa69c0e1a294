import DocumentViews.Proofs.Query.QueryGrammar

-- Runs that break off where a variable is looked up that is not bound, instead of taking
-- null for it. They follow `Expr.eval` and `Query.run` step by step, so they look up the same
-- variables in the same scopes. The run of a query that was parsed never breaks off.

set_option autoImplicit false

namespace DocumentViews

def Binding.read : Binding → Value
  | value item => item
  | group grouping => .array grouping.items

namespace Expr

mutual

def eval? (extensions : Extensions) (scope : Scope) : Expr → Option Value
  | .literal value => some value
  | .var name => (scope.lookup name).map Binding.read
  | .member target name =>
      match target.grouping? scope with
      | some grouping => some (grouping.member name)
      | none => (eval? extensions scope target).map fun value => value.member name
  | .unary op operand => (eval? extensions scope operand).map op.apply
  | .binary op left right =>
      match op with
      | .both => do
          let value ← eval? extensions scope left
          if value.truthy then (eval? extensions scope right).map fun other => .bool other.truthy
          else some (.bool false)
      | .either => do
          let value ← eval? extensions scope left
          if value.truthy then some (.bool true)
          else (eval? extensions scope right).map fun other => .bool other.truthy
      | .coalesce => do
          let value ← eval? extensions scope left
          if value.isNull then eval? extensions scope right else some value
      | op => do
          let value ← eval? extensions scope left
          let other ← eval? extensions scope right
          some (op.apply value other)
  | .conditional test consequent alternative => do
      let value ← eval? extensions scope test
      if value.truthy then eval? extensions scope consequent else eval? extensions scope alternative
  | .method target asked arguments => do
      let value ← eval? extensions scope target
      let values ← evalAll? extensions scope arguments
      some (asked.apply value values)
  | .aggregate source function => do
      let value ← eval? extensions scope source
      some (function.apply false value.items)
  | .aggregateOf source function parameter body => do
      let value ← eval? extensions scope source
      let projected ← value.items.mapM fun item => eval? extensions ((parameter, .value item) :: scope) body
      some (function.apply true projected)
  | .call function arguments => (evalAll? extensions scope arguments).map (extensions.call function)
  | .object members => (evalMembers? extensions scope members).map .ofMembers

def evalAll? (extensions : Extensions) (scope : Scope) : List Expr → Option (List Value)
  | [] => some []
  | expr :: rest => do
      let value ← eval? extensions scope expr
      let values ← evalAll? extensions scope rest
      some (value :: values)

def evalMembers? (extensions : Extensions) (scope : Scope) :
    List (String × Expr) → Option (List (String × Value))
  | [] => some []
  | (name, expr) :: rest => do
      let value ← eval? extensions scope expr
      let values ← evalMembers? extensions scope rest
      some ((name, value) :: values)

end

end Expr

def Row.eval? (extensions : Extensions) (row : Row) (expr : Expr) : Option Value := expr.eval? extensions row.scope

def Clause.expand? (extensions : Extensions) (row : Row) : Clause → Option (List Row)
  | each name source => do
      let value ← Row.eval? extensions row source
      some (value.items.map fun item => (name, item) :: row)
  | define name value => do
      let value ← Row.eval? extensions row value
      some [(name, value) :: row]
  | filter condition => do
      let value ← Row.eval? extensions row condition
      some (if value.truthy then [row] else [])

def GroupClause.groupings? (extensions : Extensions) (group : GroupClause) (rows : List Row) :
    Option (List Grouping) :=
  rows.foldlM
    (fun groupings row => do
      let key ← Row.eval? extensions row group.key
      let element ← Row.eval? extensions row group.element
      some (insert key element groupings)) []

namespace Query

def rows? (extensions : Extensions) (query : Query) (input : List Value) : Option (List Row) :=
  query.clauses.foldlM (fun rows clause => (rows.mapM fun row => clause.expand? extensions row).map List.flatten)
    (input.map fun item => [(query.range, item)])

def run? (extensions : Extensions) (query : Query) (input : List Value) : Option (List Value) := do
  let rows ← query.rows? extensions input
  match query.group with
  | none => rows.mapM fun row => Row.eval? extensions row query.select
  | some group => do
      let groupings ← group.groupings? extensions rows
      groupings.mapM fun grouping => query.select.eval? extensions [(group.into, .group grouping)]

end Query

theorem map_all_some {α β : Type} {list : List α} {change? : α → Option β} {change : α → β}
    (changes : ∀ item ∈ list, change? item = some (change item)) : list.mapM change? = some (list.map change) := by
  induction list with
  | nil => rfl
  | cons item rest ih =>
      rw [List.mapM_cons, changes item List.mem_cons_self,
        ih fun other present => changes other (List.mem_cons_of_mem _ present)]
      rfl

def Binds (scope : Scope) (names : List String) : Prop := ∀ name ∈ names, ∃ binding, scope.lookup name = some binding

theorem binds_cons {scope : Scope} {names : List String} (bound : Binds scope names) (name : String)
    (binding : Binding) : Binds ((name, binding) :: scope) (name :: names) := by
  intro other present
  by_cases same : other = name
  · exact ⟨binding, by simp [same]⟩
  · obtain ⟨found, known⟩ := bound other ((List.mem_cons.mp present).resolve_left same)
    exact ⟨found, by rw [List.lookup_cons, beq_false_of_ne same, known]⟩

namespace Expr

variable {isFunction : String → Bool} {extensions : Extensions}

theorem variable_value_read {scope : Scope} {name : String} {binding : Binding} (known : scope.lookup name = some binding) :
    variableValue scope name = binding.read := by
  simp only [variableValue, known]
  cases binding <;> rfl

mutual

theorem eval_of_bound {scope : Scope} {names : List String} (bound : Binds scope names) (expr : Expr)
    (fits : expr.Fits isFunction names) :
    expr.eval? extensions scope = some (expr.eval extensions scope) := by
  cases expr with
  | literal value => rfl
  | var name =>
      obtain ⟨binding, known⟩ := bound name fits
      rw [eval?, eval, known, variable_value_read known]
      rfl
  | member target name =>
      have evaluated := eval_of_bound bound target fits
      rw [eval?, eval]
      cases target.grouping? scope with
      | some grouping => rfl
      | none => simp only [evaluated, Option.map_some]
  | unary op operand => rw [eval?, eval, eval_of_bound bound operand fits, Option.map_some]
  | binary op left right =>
      have evaluated := eval_of_bound bound left fits.1
      have otherEvaluated := eval_of_bound bound right fits.2
      cases op with
      | both =>
          cases holds : (left.eval extensions scope).truthy <;> simp [eval?, eval, evaluated, otherEvaluated, holds]
      | either =>
          cases holds : (left.eval extensions scope).truthy <;> simp [eval?, eval, evaluated, otherEvaluated, holds]
      | coalesce =>
          cases holds : (left.eval extensions scope).isNull <;> simp [eval?, eval, evaluated, otherEvaluated, holds]
      | _ => simp [eval?, eval, evaluated, otherEvaluated]
  | conditional test consequent alternative =>
      rw [eval?, eval, eval_of_bound bound test fits.1, eval_of_bound bound consequent fits.2.1,
        eval_of_bound bound alternative fits.2.2]
      exact (apply_ite some _ _ _).symm
  | method target asked arguments =>
      rw [eval?, eval, eval_of_bound bound target fits.1, eval_all_of_bound bound arguments fits.2.2]
      rfl
  | aggregate source function =>
      rw [eval?, eval, eval_of_bound bound source fits]
      rfl
  | aggregateOf source function parameter body =>
      -- The parameter is bound to each item in turn, whatever it hides.
      have projected : ∀ item ∈ (source.eval extensions scope).items,
          body.eval? extensions ((parameter, .value item) :: scope) =
            some (body.eval extensions ((parameter, .value item) :: scope)) :=
        fun item _ => eval_of_bound (binds_cons bound parameter (.value item)) body fits.2
      rw [eval?, eval, eval_of_bound bound source fits.1]
      simp only [Option.bind_eq_bind, Option.bind_some]
      rw [map_all_some projected]
      rfl
  | call function arguments => rw [eval?, eval, eval_all_of_bound bound arguments fits.2, Option.map_some]
  | object members => rw [eval?, eval, eval_members_of_bound bound members fits.2, Option.map_some]

theorem eval_all_of_bound {scope : Scope} {names : List String} (bound : Binds scope names) (list : List Expr)
    (fits : AllFit isFunction names list) :
    evalAll? extensions scope list = some (evalAll extensions scope list) := by
  cases list with
  | nil => rfl
  | cons expr rest =>
      rw [evalAll?, evalAll, eval_of_bound bound expr fits.1, eval_all_of_bound bound rest fits.2]
      rfl

theorem eval_members_of_bound {scope : Scope} {names : List String} (bound : Binds scope names)
    (list : List (String × Expr)) (fits : MembersFit isFunction names list) :
    evalMembers? extensions scope list = some (evalMembers extensions scope list) := by
  cases list with
  | nil => rfl
  | cons member rest =>
      obtain ⟨name, expr⟩ := member
      rw [evalMembers?, evalMembers, eval_of_bound bound expr fits.1, eval_members_of_bound bound rest fits.2]
      rfl

end

end Expr

-- A row holds the variables of the scope in which the parser read what the row goes through.
def Row.Holds (names : List String) (row : Row) : Prop := row.map Prod.fst = names

variable {isFunction : String → Bool} {extensions : Extensions} {names : List String} {row : Row}

theorem Row.Holds.binds (holds : row.Holds names) : Binds row.scope names := by
  subst holds
  induction row with
  | nil => exact fun name absent => nomatch absent
  | cons entry rest ih => exact binds_cons ih entry.1 (.value entry.2)

theorem Row.Holds.eval (holds : row.Holds names) {expr : Expr} (fits : expr.Fits isFunction names) :
    row.eval? extensions expr = some (row.eval extensions expr) := Expr.eval_of_bound holds.binds expr fits

namespace Clause

theorem expand_of_holds (holds : row.Holds names) {clause : Clause} (fits : clause.Fits isFunction names) :
    clause.expand? extensions row = some (clause.expand extensions row) ∧
      ∀ next ∈ clause.expand extensions row, Row.Holds (clause.binds names) next := by
  cases clause with
  | each name source =>
      rw [expand?, expand, holds.eval fits.1]
      refine ⟨rfl, fun next present => ?_⟩
      obtain ⟨item, _, rfl⟩ := List.mem_map.mp present
      exact congrArg (List.cons name) holds
  | define name value =>
      rw [expand?, expand, holds.eval fits.1]
      refine ⟨rfl, fun next present => ?_⟩
      rw [List.mem_singleton.mp present]
      exact congrArg (List.cons name) holds
  | filter condition =>
      rw [expand?, expand, holds.eval fits]
      refine ⟨rfl, fun next present => ?_⟩
      split at present
      · rw [List.mem_singleton.mp present]
        exact holds
      · cases present

end Clause

theorem expand_all_of_hold {clauses : List Clause} {rows : List Row} (hold : ∀ row ∈ rows, row.Holds names)
    (fits : ClausesFit isFunction names clauses) :
    clauses.foldlM (fun rows clause => (rows.mapM fun row => clause.expand? extensions row).map List.flatten) rows =
        some (clauses.foldl (fun rows clause => rows.flatMap fun row => clause.expand extensions row) rows) ∧
      ∀ row ∈ clauses.foldl (fun rows clause => rows.flatMap fun row => clause.expand extensions row) rows,
        row.Holds (clauses.foldl Clause.binds names) := by
  induction clauses generalizing rows names with
  | nil => exact ⟨rfl, hold⟩
  | cons clause rest ih =>
      have expanded : rows.mapM (fun row => clause.expand? extensions row) =
          some (rows.map fun row => clause.expand extensions row) :=
        map_all_some fun row present => (Clause.expand_of_holds (hold row present) fits.1).1
      have holdNext : ∀ next ∈ rows.flatMap fun row => clause.expand extensions row, next.Holds (clause.binds names) := by
        intro next present
        obtain ⟨row, before, comes⟩ := List.mem_flatMap.mp present
        exact (Clause.expand_of_holds (hold row before) fits.1).2 next comes
      rw [List.foldlM_cons, List.foldl_cons, expanded]
      exact ih holdNext fits.2

theorem GroupClause.groupings_of_hold {group : GroupClause} {rows : List Row} (hold : ∀ row ∈ rows, row.Holds names)
    (elementFits : group.element.Fits isFunction names) (keyFits : group.key.Fits isFunction names) :
    group.groupings? extensions rows = some (group.groupings extensions rows) := by
  rw [groupings?, groupings]
  generalize ([] : List Grouping) = groupings
  induction rows generalizing groupings with
  | nil => rfl
  | cons row rest ih =>
      have holds := hold row List.mem_cons_self
      rw [List.foldlM_cons, List.foldl_cons, holds.eval keyFits, holds.eval elementFits]
      exact ih (fun other present => hold other (List.mem_cons_of_mem _ present)) _

theorem Query.Fits.run {query : Query} (fits : query.Fits isFunction) (input : List Value) :
    query.run? extensions input = some (query.run extensions input) := by
  have start : ∀ row ∈ input.map fun item => [(query.range, item)], Row.Holds [query.range] row := by
    intro row present
    obtain ⟨item, _, rfl⟩ := List.mem_map.mp present
    rfl
  have rows : query.rows? extensions input = some (query.rows extensions input) :=
    (expand_all_of_hold start fits.clauses).1
  have hold : ∀ row ∈ query.rows extensions input, row.Holds query.rowScope :=
    (expand_all_of_hold start fits.clauses).2
  have groupFits := fits.group
  have selectFits := fits.select
  rw [Query.run?, Query.run, rows]
  rw [Query.selectScope] at selectFits
  cases grouped : query.group with
  | none =>
      rw [grouped] at selectFits
      exact map_all_some fun row present => (hold row present).eval selectFits
  | some group =>
      rw [grouped] at selectFits groupFits
      simp only [Option.bind_eq_bind, Option.bind_some]
      rw [GroupClause.groupings_of_hold hold groupFits.1 groupFits.2]
      refine map_all_some fun grouping _ => Expr.eval_of_bound (binds_cons ?_ _ _) _ selectFits
      exact fun name absent => absurd absent List.not_mem_nil

/-- Every variable that the run of a parsed query looks up is bound in the scope where it is
looked up: the run that breaks off at unbound variables goes through and has the same outputs. -/
theorem Query.parsed_run_bound {extensions : Extensions} {text : String} {query : Query}
    (parsed : Query.parse extensions.isFunction text = .ok query) (input : List Value) :
    query.run? extensions input = some (query.run extensions input) := by
  obtain ⟨_, _, _, fits⟩ := Query.parsed_derives parsed
  exact fits.run input

theorem Query.parsed_run_bound_shadowed : ∃ query,
    Query.parse Extensions.builtins.isFunction
      "from d in docs from l in d.L let n = l.N group n by d.K into g select new \x7b g.Key, S = g.Sum(g => g + 1) \x7d" =
        .ok query ∧
    query.run? Extensions.builtins [.object [("K", .null), ("L", .array [.null])]] =
      some (query.run Extensions.builtins [.object [("K", .null), ("L", .array [.null])]]) := by
  have accepted : (Query.parse Extensions.builtins.isFunction
      "from d in docs from l in d.L let n = l.N group n by d.K into g select new \x7b g.Key, S = g.Sum(g => g + 1) \x7d").isOk =
        true := by decide +kernel
  obtain ⟨query, parsed⟩ := is_ok_exists accepted
  exact ⟨query, parsed, Query.parsed_run_bound parsed _⟩

end DocumentViews
