import DocumentViews.Proofs.Query.CanonicalQuery
import DocumentViews.Proofs.Query.QueryCompleteness
import DocumentViews.Proofs.Query.Splitting
import Mathlib.Order.Bounds.Basic

-- The parser counts the levels that lead to a part and forgets those of a chain where the chain
-- ends, so an expression can nest much deeper than the levels.

set_option autoImplicit false

namespace DocumentViews

namespace Expr

mutual

-- The number of nodes on the longest way down an expression.
def nesting : Expr → Nat
  | .literal _ => 1
  | .var _ => 1
  | .member target _ => nesting target + 1
  | .unary _ operand => nesting operand + 1
  | .binary _ left right => max (nesting left) (nesting right) + 1
  | .conditional test consequent alternative =>
      max (nesting test) (max (nesting consequent) (nesting alternative)) + 1
  | .method target _ arguments => max (nesting target) (nestingOfAll arguments) + 1
  | .aggregate source _ => nesting source + 1
  | .aggregateOf source _ _ body => max (nesting source) (nesting body) + 1
  | .call _ arguments => nestingOfAll arguments + 1
  | .object members => nestingOfMembers members + 1

def nestingOfAll : List Expr → Nat
  | [] => 0
  | expr :: rest => max (nesting expr) (nestingOfAll rest)

def nestingOfMembers : List (String × Expr) → Nat
  | [] => 0
  | (_, expr) :: rest => max (nesting expr) (nestingOfMembers rest)

end

end Expr

def Clause.expr : Clause → Expr
  | each _ expr | define _ expr | filter expr => expr

def GroupClause.exprs (group : GroupClause) : List Expr := [group.element, group.key]

def Query.exprs (query : Query) : List Expr :=
  query.clauses.map Clause.expr ++ query.group.toList.flatMap GroupClause.exprs ++ [query.select]

namespace Grammar

-- The nesting of chains of so many kinds, with as many links as there are levels below, over
-- an expression.
def steep (nesting below : Nat) : (kinds : Nat) → Nat
  | 0 => nesting + 1 + below
  | kinds + 1 => steep nesting below kinds + below

-- The greatest nesting that so many levels allow. What stands in parentheses has one level
-- less. Around it there are suffixes, six kinds of chains and, where a level is left for
-- their other operands, `??` and `?`.
def reach : (levels : Nat) → Nat
  | 0 => 0
  | levels + 1 => steep (reach levels) levels Level.all.length + 2 * min levels 1

theorem reach_greatest : reach maxDepth = 14302 := by decide +kernel

theorem steep_from (nesting below kinds : Nat) : nesting + 1 + below ≤ steep nesting below kinds := by
  induction kinds with
  | zero => exact Nat.le_refl _
  | succ kinds ih => exact Nat.le_add_right_of_le ih

theorem steep_climbs {nesting other : Nat} (less : nesting ≤ other) (below kinds : Nat) :
    steep nesting below kinds + 1 ≤ steep other (below + 1) kinds := by
  induction kinds with
  | zero =>
      simp only [steep]
      omega
  | succ kinds ih =>
      simp only [steep]
      omega

theorem reach_climbs (levels : Nat) : reach levels ≤ reach (levels + 1) := by
  have above := steep_from (reach levels) levels Level.all.length
  rw [reach]
  omega

def Phrase.Within : Phrase → (links cost : Nat) → Prop
  | expression expr, _, cost | member _ expr, _, cost => ∀ levels, cost ≤ levels → expr.nesting ≤ reach levels
  | coalesce expr, _, cost =>
      ∀ below, cost ≤ below + 1 → expr.nesting ≤ steep (reach below) below Level.all.length + min below 1
  | chain [] expr, _, cost | unary expr, _, cost =>
      ∀ below, cost ≤ below + 1 → expr.nesting ≤ steep (reach below) below 0
  | chain (_ :: tighter) expr, links, cost =>
      ∀ below, cost ≤ below + 1 → links ≤ below ∧ expr.nesting ≤ steep (reach below) below tighter.length + links
  | suffixed expr, links, cost => ∀ below, cost ≤ below + 1 → links ≤ below ∧ expr.nesting ≤ reach below + 1 + links
  | primary expr, _, cost => ∀ below, cost ≤ below + 1 → expr.nesting ≤ reach below + 1
  | arguments list, _, cost | moreArguments list, _, cost =>
      ∀ levels, cost ≤ levels → Expr.nestingOfAll list ≤ reach levels
  | members list, _, cost | moreMembers list, _, cost =>
      ∀ levels, cost ≤ levels → Expr.nestingOfMembers list ≤ reach levels

variable {levels : List Level} {expr : Expr} {word : List Token} {links cost : Nat}

theorem chain_within (within : (Phrase.chain levels expr).Within links cost) (below : Nat) (enough : cost ≤ below + 1) :
    expr.nesting ≤ steep (reach below) below levels.length := by
  cases levels with
  | nil => exact within below enough
  | cons level tighter =>
      obtain ⟨few, bound⟩ := within below enough
      exact Nat.le_trans bound (Nat.add_le_add_left few _)

-- The other operands of a chain need levels of their own, so the links are fewer than the
-- levels.
theorem needs_within {phrase : Phrase} (needs : Needs phrase word links cost) : phrase.Within links cost := by
  induction needs with
  | plainTest needs within =>
      intro levels enough
      have takes : 0 < _ := needs.takes
      obtain ⟨below, rfl⟩ := Nat.exists_eq_add_one_of_ne_zero (Nat.ne_of_gt (Nat.lt_of_lt_of_le takes enough))
      have bound := within below enough
      rw [reach]
      omega
  | conditional testNeeds consequentNeeds _ test consequent alternative =>
      intro levels enough
      have takes : 0 < _ := testNeeds.takes
      have branchTakes : 0 < _ := consequentNeeds.takes
      obtain ⟨below, rfl⟩ : ∃ below, levels = below + 1 := ⟨levels - 1, by omega⟩
      have testBound := test below (by omega)
      have consequentBound := consequent below (by omega)
      have alternativeBound := alternative below (by omega)
      have above := steep_from (reach below) below Level.all.length
      rw [Expr.nesting, reach]
      omega
  | plainChain _ within =>
      intro below enough
      exact Nat.le_add_right_of_le (chain_within within below enough)
  | coalesce _ rightNeeds left right =>
      intro below enough
      have takes : 0 < _ := rightNeeds.takes
      obtain ⟨less, rfl⟩ : ∃ less, below = less + 1 := ⟨below - 1, by omega⟩
      have leftBound := chain_within left (less + 1) (by omega)
      have rightBound := right less (by omega)
      have climbs := steep_climbs (reach_climbs less) less Level.all.length
      have small : min less 1 ≤ 1 := Nat.min_le_right _ _
      rw [Expr.nesting]
      omega
  | plainUnary _ within => exact within
  | operand _ within =>
      intro below enough
      exact ⟨Nat.zero_le _, chain_within within below enough⟩
  | operator _ _ rightNeeds left right =>
      intro below enough
      have takes : 0 < _ := rightNeeds.takes
      obtain ⟨few, leftBound⟩ := left below (by omega)
      have rightBound := chain_within right below (by omega)
      refine ⟨by omega, ?_⟩
      rw [Expr.nesting]
      omega
  | plainSuffixed _ within =>
      intro below enough
      obtain ⟨few, bound⟩ := within below enough
      rw [steep]
      omega
  | sign needs within =>
      intro below enough
      have takes : 0 < _ := needs.takes
      obtain ⟨less, rfl⟩ : ∃ less, below = less + 1 := ⟨below - 1, by omega⟩
      have bound := within less (by omega)
      have climbs := steep_climbs (reach_climbs less) less 0
      rw [Expr.nesting]
      omega
  | plainPrimary _ within =>
      intro below enough
      exact ⟨Nat.zero_le _, within below enough⟩
  | access _ within =>
      intro below enough
      obtain ⟨few, bound⟩ := within below (by omega)
      refine ⟨by omega, ?_⟩
      rw [Expr.nesting]
      omega
  | method _ _ target list =>
      intro below enough
      obtain ⟨few, targetBound⟩ := target below (by omega)
      have listBound := list below (by omega)
      refine ⟨by omega, ?_⟩
      rw [Expr.nesting]
      omega
  | aggregate _ within =>
      intro below enough
      obtain ⟨few, bound⟩ := within below (by omega)
      refine ⟨by omega, ?_⟩
      rw [Expr.nesting]
      omega
  | aggregateOf _ _ source body =>
      intro below enough
      obtain ⟨few, sourceBound⟩ := source below (by omega)
      have bodyBound := body below (by omega)
      refine ⟨by omega, ?_⟩
      rw [Expr.nesting]
      omega
  | number | text | true | false | null | var =>
      intro below _
      rw [Expr.nesting]
      omega
  | call _ within =>
      intro below enough
      exact Nat.succ_le_succ (within below (Nat.le_of_succ_le_succ enough))
  | parenthesized _ within =>
      intro below enough
      exact Nat.le_succ_of_le (within below (Nat.le_of_succ_le_succ enough))
  | object _ within =>
      intro below enough
      exact Nat.succ_le_succ (within below (Nat.le_of_succ_le_succ enough))
  | noArguments | noMoreArguments | noMembers | noMoreMembers | trailingComma => exact fun _ _ => Nat.zero_le _
  | arguments _ _ argument others | moreArguments _ _ argument others =>
      intro levels enough
      obtain ⟨first, rest⟩ := Nat.max_le.mp enough
      exact Nat.max_le.mpr ⟨argument levels first, others levels rest⟩
  | named _ within | implied _ _ within => exact within
  | members _ _ member others | moreMembers _ _ member others =>
      intro levels enough
      obtain ⟨first, rest⟩ := Nat.max_le.mp enough
      exact Nat.max_le.mpr ⟨member levels first, others levels rest⟩

theorem needs_clause_exprs {clauses : List Clause} (needs : NeedsClauses clauses word cost) :
    ∀ expr ∈ clauses.map Clause.expr, ∃ word links own, Needs (.expression expr) word links own ∧ own ≤ cost := by
  induction needs with
  | none => exact fun _ absent => nomatch absent
  | each needs _ ih | define needs _ ih | filter needs _ ih =>
      intro expr member
      rcases List.mem_cons.mp member with rfl | later
      · exact ⟨_, _, _, needs, Nat.le_max_left _ _⟩
      · obtain ⟨word, links, own, others, fits⟩ := ih expr later
        exact ⟨word, links, own, others, Nat.le_trans fits (Nat.le_max_right _ _)⟩

theorem needs_exprs {query : Query} (needs : NeedsQuery query word cost) :
    ∀ expr ∈ query.exprs, ∃ word links own, Needs (.expression expr) word links own ∧ own ≤ cost := by
  cases needs with
  | query clauses group select =>
      intro expr member
      rcases List.mem_append.mp member with before | last
      · rcases List.mem_append.mp before with inClauses | inGroup
        · obtain ⟨word, links, own, needs, fits⟩ := needs_clause_exprs clauses expr inClauses
          exact ⟨word, links, own, needs, Nat.le_trans fits (Nat.le_max_left _ _)⟩
        · cases group with
          | none => cases inGroup
          | group element key =>
              obtain ⟨group, only, inside⟩ := List.mem_flatMap.mp inGroup
              obtain rfl := List.mem_singleton.mp only
              rcases List.mem_pair.mp inside with rfl | rfl
              · exact ⟨_, _, _, element, by omega⟩
              · exact ⟨_, _, _, key, by omega⟩
      · rw [List.mem_singleton.mp last]
        exact ⟨_, _, _, select, by omega⟩

section Steepest

open Lexeme

def Written (word : List Token) : Prop := ∀ token ∈ word, token.IsWord ∧ token.Lexed

theorem written_append {first second : List Token} (front : Written first) (back : Written second) :
    Written (first ++ second) := List.forall_mem_append.mpr ⟨front, back⟩

theorem written_mark (mark : Mark) (written : Written word) : Written (.mark mark :: word) :=
  List.forall_mem_cons.mpr ⟨⟨trivial, trivial⟩, written⟩

theorem written_keyword (keyword : Keyword) (written : Written word) : Written (.keyword keyword :: word) :=
  List.forall_mem_cons.mpr ⟨⟨trivial, trivial⟩, written⟩

theorem written_name {name : String} (isName : IsName name) (written : Written word) : Written (.identifier name :: word) :=
  List.forall_mem_cons.mpr ⟨⟨trivial, isName⟩, written⟩

theorem written_nil : Written [] := fun _ absent => nomatch absent

theorem written_spelled (written : Written word) : ∃ text, Spells True text word := by
  induction word with
  | nil => exact ⟨[], .done⟩
  | cons token others ih =>
      obtain ⟨⟨isWord, lexed⟩, othersWritten⟩ := List.forall_mem_cons.mp written
      obtain ⟨text, spells⟩ := ih othersWritten
      cases token with
      | keyword keyword => exact ⟨_, spells_keyword keyword spells⟩
      | mark mark => exact ⟨_, spells_spaced mark spells⟩
      | identifier name => exact ⟨_, spells_name lexed (by rintro char ⟨⟩; rfl) (spells_space spells)⟩
      | number | text => cases isWord

theorem written_split (written : Written word) :
    ∃ text lexemes, tokenize text = .ok lexemes ∧ lexemes.map Lexeme.token = word := by
  obtain ⟨chars, spells⟩ := written_spelled written
  obtain ⟨lexemes, split, isWord⟩ := spells_splits trivial spells 0
  exact ⟨String.ofList chars, lexemes, by rw [tokenize, String.toList_ofList, split], isWord⟩

structure Tall (isFunction : String → Bool) (expr : Expr) (word : List Token) (nesting : Nat) : Prop where
  nested : expr.nesting = nesting
  fits : expr.Fits isFunction ["d"]
  written : Written word

variable {isFunction : String → Bool} {nesting below : Nat}

theorem variable_tall (isFunction : String → Bool) : Tall isFunction (.var "d") [.identifier "d"] 1 :=
  ⟨rfl, List.mem_cons_self, written_name (is_name_of (by decide) (by decide)) written_nil⟩

theorem member_name : IsName "A" := is_name_of (by decide) (by decide)

theorem variable_chain (levels : List Level) : Needs (.chain levels (.var "d")) [.identifier "d"] 0 1 :=
  chain_of_unary (.plainSuffixed (.plainPrimary (.var "d"))) levels

theorem tall_suffixed (needs : Needs (.suffixed expr) word 0 (below + 1)) (tall : Tall isFunction expr word nesting)
    (count : Nat) (few : count ≤ below) :
    ∃ expr word, Needs (.suffixed expr) word count (below + 1) ∧ Tall isFunction expr word (nesting + count) := by
  induction count with
  | zero => exact ⟨expr, word, needs, tall⟩
  | succ count ih =>
      obtain ⟨target, word, targetNeeds, targetTall⟩ := ih (Nat.le_of_succ_le few)
      have whole : Needs (.suffixed (.member target "A")) _ _ _ := targetNeeds.access
      rw [Nat.max_eq_left (by omega)] at whole
      refine ⟨_, _, whole, ?_, targetTall.fits, ?_⟩
      · rw [Expr.nesting, targetTall.nested, Nat.add_assoc]
      · exact written_append targetTall.written (written_mark .dot (written_name member_name written_nil))

theorem level_mark (level : Level) : ∃ mark op, level.operator? mark = some op := by
  cases level with
  | either => exact ⟨.either, _, rfl⟩
  | both => exact ⟨.both, _, rfl⟩
  | equality => exact ⟨.equal, _, rfl⟩
  | comparison => exact ⟨.less, _, rfl⟩
  | sum => exact ⟨.plus, _, rfl⟩
  | product => exact ⟨.star, _, rfl⟩

theorem tall_chained {level : Level} {tighter : List Level} (needs : Needs (.chain (level :: tighter) expr) word 0 (below + 1))
    (tall : Tall isFunction expr word nesting) (positive : 0 < nesting) (count : Nat) (few : count ≤ below) :
    ∃ expr word, Needs (.chain (level :: tighter) expr) word count (below + 1) ∧
      Tall isFunction expr word (nesting + count) := by
  induction count with
  | zero => exact ⟨expr, word, needs, tall⟩
  | succ count ih =>
      obtain ⟨left, word, leftNeeds, leftTall⟩ := ih (Nat.le_of_succ_le few)
      obtain ⟨mark, op, known⟩ := level_mark level
      have right := variable_tall isFunction
      have whole := Needs.operator known leftNeeds (variable_chain tighter)
      rw [Nat.max_eq_left (by omega)] at whole
      refine ⟨_, _, whole, ?_, ⟨leftTall.fits, right.fits⟩, ?_⟩
      · rw [Expr.nesting, leftTall.nested, right.nested]
        omega
      · exact written_append leftTall.written (written_mark mark right.written)

theorem steep_positive (nesting below kinds : Nat) : 0 < steep nesting below kinds :=
  Nat.lt_of_lt_of_le (by omega) (steep_from nesting below kinds)

theorem tall_levels (needs : Needs (.unary expr) word links (below + 1))
    (tall : Tall isFunction expr word (nesting + 1 + below)) (levels : List Level) :
    ∃ expr word links, Needs (.chain levels expr) word links (below + 1) ∧
      Tall isFunction expr word (steep nesting below levels.length) := by
  induction levels with
  | nil => exact ⟨expr, word, 0, .plainUnary needs, tall⟩
  | cons level tighter ih =>
      obtain ⟨inner, word, _, innerNeeds, innerTall⟩ := ih
      obtain ⟨expr, word, needs, whole⟩ :=
        tall_chained (.operand innerNeeds) innerTall (steep_positive _ _ _) below (Nat.le_refl _)
      exact ⟨expr, word, below, needs, whole⟩

theorem tall_finished (needs : Needs (.chain Level.all expr) word links (below + 1))
    (tall : Tall isFunction expr word nesting) (positive : 0 < nesting) :
    ∃ expr word, Needs (.expression expr) word 0 (below + 1) ∧ Tall isFunction expr word (nesting + 2 * min below 1) := by
  cases below with
  | zero => exact ⟨expr, word, .plainTest (.plainChain needs), tall⟩
  | succ below =>
      have other := variable_tall isFunction
      have operand : Needs (.coalesce (.var "d")) [.identifier "d"] 0 1 := .plainChain (variable_chain Level.all)
      have whole := Needs.conditional (.coalesce needs operand) (.plainTest operand) (.plainTest operand)
      have size : max (max (below + 1 + 1) (1 + 1)) (max (1 + 1) (1 + 1)) = below + 1 + 1 := by omega
      rw [size] at whole
      refine ⟨_, _, whole, ?_, ⟨⟨tall.fits, other.fits⟩, other.fits, other.fits⟩, ?_⟩
      · simp only [Expr.nesting, tall.nested]
        omega
      · exact written_append (written_append tall.written (written_mark .coalesce other.written))
          (written_mark .question (written_append other.written (written_mark .colon other.written)))

theorem tall_step (needs : Needs (.primary expr) word links (below + 1)) (tall : Tall isFunction expr word (reach below + 1)) :
    ∃ expr word, Needs (.expression expr) word 0 (below + 1) ∧ Tall isFunction expr word (reach (below + 1)) := by
  obtain ⟨_, _, suffixed, suffixedTall⟩ := tall_suffixed (.plainPrimary needs) tall below (Nat.le_refl _)
  obtain ⟨_, _, _, chained, chainedTall⟩ := tall_levels (.plainSuffixed suffixed) suffixedTall Level.all
  exact tall_finished chained chainedTall (steep_positive _ _ _)

-- The expression of the levels below stands as the member of an object.
theorem tall_object (isFunction : String → Bool) (below : Nat) :
    ∃ expr word, Needs (.primary expr) word 0 (below + 1) ∧ Tall isFunction expr word (reach below + 1) := by
  induction below with
  | zero =>
      exact ⟨_, _, .object .noMembers, rfl, ⟨List.nodup_nil, trivial⟩,
        written_keyword .newWord (written_mark .openBrace (written_mark .closeBrace written_nil))⟩
  | succ below ih =>
      obtain ⟨_, _, inner, innerTall⟩ := ih
      obtain ⟨expr, word, needs, tall⟩ := tall_step inner innerTall
      have member : Needs (.member "A" expr) _ _ _ := .named needs
      have whole := Needs.object (.members member .noMoreMembers)
      rw [Nat.max_eq_left (Nat.zero_le _), List.append_nil] at whole
      refine ⟨_, _, whole, ?_, ⟨List.nodup_singleton _, tall.fits, trivial⟩, ?_⟩
      · rw [Expr.nesting, Expr.nestingOfMembers, tall.nested]
        exact congrArg (· + 1) (Nat.max_eq_left (Nat.zero_le _))
      · exact written_keyword .newWord (written_mark .openBrace (written_append
          (written_name member_name (written_mark .assign tall.written)) (written_mark .closeBrace written_nil)))

theorem tallest (isFunction : String → Bool) (below : Nat) :
    ∃ expr word, Needs (.expression expr) word 0 (below + 1) ∧ Tall isFunction expr word (reach (below + 1)) := by
  obtain ⟨_, _, needs, tall⟩ := tall_object isFunction below
  exact tall_step needs tall

end Steepest

end Grammar

namespace Query

open Grammar

variable {isFunction : String → Bool}

theorem parsed_nesting {text : String} {query : Query} (parsed : Query.parse isFunction text = .ok query) {expr : Expr}
    (inside : expr ∈ query.exprs) : expr.nesting ≤ reach maxDepth := by
  obtain ⟨lexemes, split, derived, fits⟩ := Query.parsed_derives parsed
  obtain ⟨cost, needs⟩ := derived.needs
  rcases Query.parse_depends split needs fits with ⟨enough, _⟩ | ⟨_, position, refused⟩
  · obtain ⟨word, links, own, exprNeeds, least⟩ := needs_exprs needs expr inside
    have within : (Phrase.expression expr).Within links own := needs_within exprNeeds
    exact within maxDepth (Nat.le_trans least enough)
  · rw [parsed] at refused
    cases refused

theorem parsed_nesting_reached (isFunction : String → Bool) : ∃ text query,
    Query.parse isFunction text = .ok query ∧ ∃ expr ∈ query.exprs, expr.nesting = reach maxDepth := by
  obtain ⟨expr, word, needs, tall⟩ := tallest isFunction 63
  have whole : NeedsQuery ⟨"d", .documents none, [], none, expr⟩ _ _ := .query .none .none needs
  have range : IsName "d" := is_name_of (by decide) (by decide)
  have source : IsName "docs" := is_name_of (by decide) (by decide)
  obtain ⟨text, lexemes, split, isWord⟩ := written_split (written_keyword .fromWord (written_name range
    (written_keyword .inWord (written_name source (written_keyword .selectWord tall.written)))))
  have fits : Query.Fits isFunction ⟨"d", .documents none, [], none, expr⟩ := ⟨trivial, trivial, tall.fits⟩
  refine ⟨text, ⟨"d", .documents none, [], none, expr⟩, ?_, expr, List.mem_singleton_self _, tall.nested⟩
  rcases Query.parse_depends split (isWord ▸ whole) fits with ⟨_, read⟩ | ⟨scant, _⟩
  · exact read
  · exact absurd (by decide) scant

/-- The deepest expression that a text can have, whatever functions are known, has 14302 nodes on one way
down, far more than there are levels. -/
theorem parsed_nesting_greatest (isFunction : String → Bool) :
    IsGreatest {nesting | ∃ text query, Query.parse isFunction text = .ok query ∧
      ∃ expr ∈ query.exprs, expr.nesting = nesting} 14302 := by
  rw [← reach_greatest]
  refine ⟨parsed_nesting_reached isFunction, ?_⟩
  rintro nesting ⟨text, query, parsed, expr, inside, rfl⟩
  exact parsed_nesting parsed inside

-- Two chains of no more links than there are levels, one inside of the other.
theorem parsed_nesting_beyond_levels :
    let text := "from d in docs select d" ++ String.join (List.replicate 40 "*1") ++ String.join (List.replicate 40 "+1")
    ∃ query, Query.parse Extensions.builtins.isFunction text = .ok query ∧
      ∃ expr ∈ query.exprs, ¬ expr.nesting ≤ maxDepth := by
  intro text
  have accepted : (Query.parse Extensions.builtins.isFunction text).toOption.any
      (fun query => query.select.nesting == 81) = true := by decide +kernel
  obtain ⟨query, parsed, nested⟩ := ok_with_exists accepted
  refine ⟨query, parsed, query.select, List.mem_append_right _ List.mem_cons_self, ?_⟩
  rw [beq_iff_eq.mp nested]
  decide

end Query
end DocumentViews
