import DocumentViews.Proofs.Query.QueryGrammar
import DocumentViews.Proofs.Query.Yields

-- The operators of a chain and the suffixes of an expression lead one level down each, so they
-- are counted as links.

set_option autoImplicit false

namespace DocumentViews.Grammar

inductive Needs : Phrase → List Token → (links cost : Nat) → Prop
  | plainTest {expr : Expr} {word : List Token} {links cost : Nat} : Needs (.coalesce expr) word links cost →
      Needs (.expression expr) word 0 cost
  | conditional {test consequent alternative : Expr} {first second third : List Token} {a b c i j k : Nat} :
      Needs (.coalesce test) first i a → Needs (.expression consequent) second j b →
      Needs (.expression alternative) third k c →
      Needs (.expression (.conditional test consequent alternative))
        (first ++ .mark .question :: (second ++ .mark .colon :: third)) 0 (max a (max (b + 1) (c + 1)))
  | plainChain {expr : Expr} {word : List Token} {links cost : Nat} : Needs (.chain Level.all expr) word links cost →
      Needs (.coalesce expr) word 0 cost
  | coalesce {left right : Expr} {first second : List Token} {a b i j : Nat} :
      Needs (.chain Level.all left) first i a → Needs (.coalesce right) second j b →
      Needs (.coalesce (.binary .coalesce left right)) (first ++ .mark .coalesce :: second) 0 (max a (b + 1))
  | plainUnary {expr : Expr} {word : List Token} {links cost : Nat} : Needs (.unary expr) word links cost →
      Needs (.chain [] expr) word 0 cost
  | operand {level : Level} {tighter : List Level} {expr : Expr} {word : List Token} {links cost : Nat} :
      Needs (.chain tighter expr) word links cost → Needs (.chain (level :: tighter) expr) word 0 cost
  | operator {level : Level} {tighter : List Level} {mark : Mark} {op : BinaryOp} {left right : Expr}
      {first second : List Token} {a b links j : Nat} : level.operator? mark = some op →
      Needs (.chain (level :: tighter) left) first links a → Needs (.chain tighter right) second j b →
      Needs (.chain (level :: tighter) (.binary op left right)) (first ++ .mark mark :: second) (links + 1)
        (max a (b + links + 1))
  | plainSuffixed {expr : Expr} {word : List Token} {links cost : Nat} : Needs (.suffixed expr) word links cost →
      Needs (.unary expr) word 0 cost
  | sign {op : UnaryOp} {operand : Expr} {word : List Token} {links cost : Nat} :
      Needs (.unary operand) word links cost → Needs (.unary (.unary op operand)) (.mark op.mark :: word) 0 (cost + 1)
  | plainPrimary {expr : Expr} {word : List Token} {links cost : Nat} : Needs (.primary expr) word links cost →
      Needs (.suffixed expr) word 0 cost
  | access {target : Expr} {name : String} {word : List Token} {links cost : Nat} :
      Needs (.suffixed target) word links cost →
      Needs (.suffixed (.member target name)) (word ++ [.mark .dot, .identifier name]) (links + 1)
        (max cost (links + 2))
  | method {target : Expr} {asked : TextMethod} {list : List Expr} {word inner : List Token} {links a b i : Nat} :
      Needs (.suffixed target) word links a → Needs (.arguments list) inner i b →
      Needs (.suffixed (.method target asked list))
        (word ++ .mark .dot :: .identifier asked.name :: .mark .openParen :: (inner ++ [.mark .closeParen]))
        (links + 1) (max a (b + links + 2))
  | aggregate {source : Expr} {function : Aggregate} {word : List Token} {links cost : Nat} :
      Needs (.suffixed source) word links cost →
      Needs (.suffixed (.aggregate source function))
        (word ++ [.mark .dot, .identifier function.name, .mark .openParen, .mark .closeParen]) (links + 1)
        (max cost (links + 2))
  | aggregateOf {source body : Expr} {function : Aggregate} {parameter : String} {word inner : List Token}
      {links a b i : Nat} : Needs (.suffixed source) word links a → Needs (.expression body) inner i b →
      Needs (.suffixed (.aggregateOf source function parameter body))
        (word ++ .mark .dot :: .identifier function.name :: .mark .openParen :: .identifier parameter ::
          .mark .arrow :: (inner ++ [.mark .closeParen])) (links + 1) (max a (b + links + 2))
  | number (value : Float) : Needs (.primary (.literal (.ofFloat value))) [.number value] 0 1
  | text (content : String) : Needs (.primary (.literal (.string content))) [.text content] 0 1
  | true : Needs (.primary (.literal (.bool .true))) [.keyword .trueWord] 0 1
  | false : Needs (.primary (.literal (.bool .false))) [.keyword .falseWord] 0 1
  | null : Needs (.primary (.literal .null)) [.keyword .nullWord] 0 1
  | var (name : String) : Needs (.primary (.var name)) [.identifier name] 0 1
  | call {function : String} {list : List Expr} {inner : List Token} {links cost : Nat} :
      Needs (.arguments list) inner links cost →
      Needs (.primary (.call function list))
        (.identifier function :: .mark .openParen :: (inner ++ [.mark .closeParen])) 0 (cost + 1)
  | parenthesized {expr : Expr} {inner : List Token} {links cost : Nat} : Needs (.expression expr) inner links cost →
      Needs (.primary expr) (.mark .openParen :: (inner ++ [.mark .closeParen])) 0 (cost + 1)
  | object {list : List (String × Expr)} {inner : List Token} {links cost : Nat} :
      Needs (.members list) inner links cost →
      Needs (.primary (.object list))
        (.keyword .newWord :: .mark .openBrace :: (inner ++ [.mark .closeBrace])) 0 (cost + 1)
  | noArguments : Needs (.arguments []) [] 0 0
  | arguments {argument : Expr} {list : List Expr} {first others : List Token} {a b i j : Nat} :
      Needs (.expression argument) first i a → Needs (.moreArguments list) others j b →
      Needs (.arguments (argument :: list)) (first ++ others) 0 (max a b)
  | noMoreArguments : Needs (.moreArguments []) [] 0 0
  | moreArguments {argument : Expr} {list : List Expr} {first others : List Token} {a b i j : Nat} :
      Needs (.expression argument) first i a → Needs (.moreArguments list) others j b →
      Needs (.moreArguments (argument :: list)) (.mark .comma :: (first ++ others)) 0 (max a b)
  | named {name : String} {value : Expr} {word : List Token} {links cost : Nat} :
      Needs (.expression value) word links cost →
      Needs (.member name value) (.identifier name :: .mark .assign :: word) 0 cost
  | implied {name : String} {value : Expr} {word : List Token} {links cost : Nat} :
      impliedName? value = some name → Needs (.expression value) word links cost →
      Needs (.member name value) word 0 cost
  | noMembers : Needs (.members []) [] 0 0
  | members {name : String} {value : Expr} {list : List (String × Expr)} {first others : List Token}
      {a b i j : Nat} : Needs (.member name value) first i a → Needs (.moreMembers list) others j b →
      Needs (.members ((name, value) :: list)) (first ++ others) 0 (max a b)
  | noMoreMembers : Needs (.moreMembers []) [] 0 0
  | trailingComma : Needs (.moreMembers []) [.mark .comma] 0 0
  | moreMembers {name : String} {value : Expr} {list : List (String × Expr)} {first others : List Token}
      {a b i j : Nat} : Needs (.member name value) first i a → Needs (.moreMembers list) others j b →
      Needs (.moreMembers ((name, value) :: list)) (.mark .comma :: (first ++ others)) 0 (max a b)

variable {phrase : Phrase} {word : List Token} {links cost : Nat}

theorem Needs.derives (needs : Needs phrase word links cost) : Derives phrase word := by
  induction needs with
  | plainTest _ ih => exact .plainTest ih
  | conditional _ _ _ test consequent alternative => exact .conditional test consequent alternative
  | plainChain _ ih => exact .plainChain ih
  | coalesce _ _ left right => exact .coalesce left right
  | plainUnary _ ih => exact .plainUnary ih
  | operand _ ih => exact .operand ih
  | operator known _ _ left right => exact .operator known left right
  | plainSuffixed _ ih => exact .plainSuffixed ih
  | sign _ ih => exact .sign ih
  | plainPrimary _ ih => exact .plainPrimary ih
  | access _ ih => exact .access ih
  | method _ _ target list => exact .method target list
  | aggregate _ ih => exact .aggregate ih
  | aggregateOf _ _ source body => exact .aggregateOf source body
  | number value => exact .number value
  | text content => exact .text content
  | true => exact .true
  | false => exact .false
  | null => exact .null
  | var name => exact .var name
  | call _ ih => exact .call ih
  | parenthesized _ ih => exact .parenthesized ih
  | object _ ih => exact .object ih
  | noArguments => exact .noArguments
  | arguments _ _ argument others => exact .arguments argument others
  | noMoreArguments => exact .noMoreArguments
  | moreArguments _ _ argument others => exact .moreArguments argument others
  | named _ ih => exact .named ih
  | implied implied _ ih => exact .implied implied ih
  | noMembers => exact .noMembers
  | members _ _ member others => exact .members member others
  | noMoreMembers => exact .noMoreMembers
  | trailingComma => exact .trailingComma
  | moreMembers _ _ member others => exact .moreMembers member others

-- Each link and each level shows in a token of its own.
theorem Derives.needs (derived : Derives phrase word) :
    ∃ links cost, Needs phrase word links cost ∧ links ≤ word.length ∧ cost ≤ word.length := by
  induction derived with
  | plainTest _ ih =>
      obtain ⟨_, cost, needs, _, fits⟩ := ih
      exact ⟨_, _, .plainTest needs, Nat.zero_le _, fits⟩
  | conditional _ _ _ test consequent alternative =>
      obtain ⟨_, a, testNeeds, _, testFits⟩ := test
      obtain ⟨_, b, consequentNeeds, _, consequentFits⟩ := consequent
      obtain ⟨_, c, alternativeNeeds, _, alternativeFits⟩ := alternative
      refine ⟨_, _, .conditional testNeeds consequentNeeds alternativeNeeds, Nat.zero_le _, ?_⟩
      simp only [List.length_append, List.length_cons]
      omega
  | plainChain _ ih =>
      obtain ⟨_, cost, needs, _, fits⟩ := ih
      exact ⟨_, _, .plainChain needs, Nat.zero_le _, fits⟩
  | coalesce _ _ left right =>
      obtain ⟨_, a, leftNeeds, _, leftFits⟩ := left
      obtain ⟨_, b, rightNeeds, _, rightFits⟩ := right
      refine ⟨_, _, .coalesce leftNeeds rightNeeds, Nat.zero_le _, ?_⟩
      simp only [List.length_append, List.length_cons]
      omega
  | plainUnary _ ih =>
      obtain ⟨_, cost, needs, _, fits⟩ := ih
      exact ⟨_, _, .plainUnary needs, Nat.zero_le _, fits⟩
  | operand _ ih =>
      obtain ⟨_, cost, needs, _, fits⟩ := ih
      exact ⟨_, _, .operand needs, Nat.zero_le _, fits⟩
  | operator known _ _ left right =>
      obtain ⟨links, a, leftNeeds, chained, leftFits⟩ := left
      obtain ⟨_, b, rightNeeds, _, rightFits⟩ := right
      refine ⟨_, _, .operator known leftNeeds rightNeeds, ?_, ?_⟩ <;> simp only [List.length_append, List.length_cons] <;>
        omega
  | plainSuffixed _ ih =>
      obtain ⟨_, cost, needs, _, fits⟩ := ih
      exact ⟨_, _, .plainSuffixed needs, Nat.zero_le _, fits⟩
  | sign _ ih =>
      obtain ⟨_, cost, needs, _, fits⟩ := ih
      exact ⟨_, _, .sign needs, Nat.zero_le _, Nat.succ_le_succ fits⟩
  | plainPrimary _ ih =>
      obtain ⟨_, cost, needs, _, fits⟩ := ih
      exact ⟨_, _, .plainPrimary needs, Nat.zero_le _, fits⟩
  | access _ ih =>
      obtain ⟨links, cost, needs, chained, fits⟩ := ih
      refine ⟨_, _, .access needs, ?_, ?_⟩ <;> simp only [List.length_append, List.length_cons, List.length_nil] <;> omega
  | method _ _ target list =>
      obtain ⟨links, a, targetNeeds, chained, targetFits⟩ := target
      obtain ⟨_, b, listNeeds, _, listFits⟩ := list
      refine ⟨_, _, .method targetNeeds listNeeds, ?_, ?_⟩ <;>
        simp only [List.length_append, List.length_cons, List.length_nil] <;> omega
  | aggregate _ ih =>
      obtain ⟨links, cost, needs, chained, fits⟩ := ih
      refine ⟨_, _, .aggregate needs, ?_, ?_⟩ <;> simp only [List.length_append, List.length_cons, List.length_nil] <;> omega
  | aggregateOf _ _ source body =>
      obtain ⟨links, a, sourceNeeds, chained, sourceFits⟩ := source
      obtain ⟨_, b, bodyNeeds, _, bodyFits⟩ := body
      refine ⟨_, _, .aggregateOf sourceNeeds bodyNeeds, ?_, ?_⟩ <;>
        simp only [List.length_append, List.length_cons, List.length_nil] <;> omega
  | number value => exact ⟨_, _, .number value, Nat.zero_le _, Nat.le_refl _⟩
  | text content => exact ⟨_, _, .text content, Nat.zero_le _, Nat.le_refl _⟩
  | true => exact ⟨_, _, .true, Nat.zero_le _, Nat.le_refl _⟩
  | false => exact ⟨_, _, .false, Nat.zero_le _, Nat.le_refl _⟩
  | null => exact ⟨_, _, .null, Nat.zero_le _, Nat.le_refl _⟩
  | var name => exact ⟨_, _, .var name, Nat.zero_le _, Nat.le_refl _⟩
  | call _ ih =>
      obtain ⟨_, cost, needs, _, fits⟩ := ih
      refine ⟨_, _, .call needs, Nat.zero_le _, ?_⟩
      simp only [List.length_append, List.length_cons]
      omega
  | parenthesized _ ih =>
      obtain ⟨_, cost, needs, _, fits⟩ := ih
      refine ⟨_, _, .parenthesized needs, Nat.zero_le _, ?_⟩
      simp only [List.length_append, List.length_cons]
      omega
  | object _ ih =>
      obtain ⟨_, cost, needs, _, fits⟩ := ih
      refine ⟨_, _, .object needs, Nat.zero_le _, ?_⟩
      simp only [List.length_append, List.length_cons]
      omega
  | noArguments => exact ⟨_, _, .noArguments, Nat.le_refl _, Nat.le_refl _⟩
  | arguments _ _ argument others =>
      obtain ⟨_, a, argumentNeeds, _, argumentFits⟩ := argument
      obtain ⟨_, b, othersNeed, _, othersFit⟩ := others
      refine ⟨_, _, .arguments argumentNeeds othersNeed, Nat.zero_le _, ?_⟩
      rw [List.length_append]
      omega
  | noMoreArguments => exact ⟨_, _, .noMoreArguments, Nat.le_refl _, Nat.le_refl _⟩
  | moreArguments _ _ argument others =>
      obtain ⟨_, a, argumentNeeds, _, argumentFits⟩ := argument
      obtain ⟨_, b, othersNeed, _, othersFit⟩ := others
      refine ⟨_, _, .moreArguments argumentNeeds othersNeed, Nat.zero_le _, ?_⟩
      rw [List.length_cons, List.length_append]
      omega
  | named _ ih =>
      obtain ⟨_, cost, needs, _, fits⟩ := ih
      exact ⟨_, _, .named needs, Nat.zero_le _, Nat.le_add_right_of_le (Nat.le_add_right_of_le fits)⟩
  | implied implied _ ih =>
      obtain ⟨_, cost, needs, _, fits⟩ := ih
      exact ⟨_, _, .implied implied needs, Nat.zero_le _, fits⟩
  | noMembers => exact ⟨_, _, .noMembers, Nat.le_refl _, Nat.le_refl _⟩
  | members _ _ member others =>
      obtain ⟨_, a, memberNeeds, _, memberFits⟩ := member
      obtain ⟨_, b, othersNeed, _, othersFit⟩ := others
      refine ⟨_, _, .members memberNeeds othersNeed, Nat.zero_le _, ?_⟩
      rw [List.length_append]
      omega
  | noMoreMembers => exact ⟨_, _, .noMoreMembers, Nat.le_refl _, Nat.le_refl _⟩
  | trailingComma => exact ⟨_, _, .trailingComma, Nat.zero_le _, Nat.zero_le _⟩
  | moreMembers _ _ member others =>
      obtain ⟨_, a, memberNeeds, _, memberFits⟩ := member
      obtain ⟨_, b, othersNeed, _, othersFit⟩ := others
      refine ⟨_, _, .moreMembers memberNeeds othersNeed, Nat.zero_le _, ?_⟩
      rw [List.length_cons, List.length_append]
      omega

def Phrase.Takes : Phrase → (cost : Nat) → Prop
  | arguments _, _ | moreArguments _, _ | members _, _ | moreMembers _, _ => True
  | _, cost => 0 < cost

theorem Needs.takes (needs : Needs phrase word links cost) : phrase.Takes cost := by
  induction needs with
  | plainTest _ takes | plainChain _ takes | plainUnary _ takes | operand _ takes | plainSuffixed _ takes
    | plainPrimary _ takes | named _ takes | implied _ _ takes => exact takes
  | conditional _ _ _ takes | coalesce _ _ takes | operator _ _ _ takes | method _ _ takes | aggregateOf _ _ takes =>
      exact Nat.lt_of_lt_of_le takes (Nat.le_max_left _ _)
  | access _ takes | aggregate _ takes => exact Nat.lt_of_lt_of_le takes (Nat.le_max_left _ _)
  | sign | number | text | true | false | null | var | call | parenthesized | object => exact Nat.succ_pos _
  | noArguments | arguments | noMoreArguments | moreArguments | noMembers | members | noMoreMembers | trailingComma
    | moreMembers => trivial

inductive NeedsClauses : List Clause → List Token → (cost : Nat) → Prop
  | none : NeedsClauses [] [] 0
  | each {name : String} {source : Expr} {clauses : List Clause} {word others : List Token} {a b links : Nat} :
      Needs (.expression source) word links a → NeedsClauses clauses others b →
      NeedsClauses (.each name source :: clauses)
        (.keyword .fromWord :: .identifier name :: .keyword .inWord :: (word ++ others)) (max a b)
  | define {name : String} {value : Expr} {clauses : List Clause} {word others : List Token} {a b links : Nat} :
      Needs (.expression value) word links a → NeedsClauses clauses others b →
      NeedsClauses (.define name value :: clauses)
        (.keyword .letWord :: .identifier name :: .mark .assign :: (word ++ others)) (max a b)
  | filter {condition : Expr} {clauses : List Clause} {word others : List Token} {a b links : Nat} :
      Needs (.expression condition) word links a → NeedsClauses clauses others b →
      NeedsClauses (.filter condition :: clauses) (.keyword .whereWord :: (word ++ others)) (max a b)

inductive NeedsGroup : Option GroupClause → List Token → (cost : Nat) → Prop
  | none : NeedsGroup none [] 0
  | group {element key : Expr} {into : String} {first second : List Token} {a b i j : Nat} :
      Needs (.expression element) first i a → Needs (.expression key) second j b →
      NeedsGroup (some ⟨element, key, into⟩)
        (.keyword .groupWord :: (first ++ .keyword .byWord :: (second ++ [.keyword .intoWord, .identifier into])))
        (max a b)

inductive NeedsQuery : Query → List Token → (cost : Nat) → Prop
  | query {range : String} {source : Source} {clauses : List Clause} {group : Option GroupClause} {select : Expr}
      {first second third : List Token} {a b c links : Nat} : NeedsClauses clauses first a →
      NeedsGroup group second b → Needs (.expression select) third links c →
      NeedsQuery ⟨range, source, clauses, group, select⟩
        (.keyword .fromWord :: .identifier range :: .keyword .inWord ::
          (sourceWord source ++ (first ++ (second ++ .keyword .selectWord :: third)))) (max a (max b c))

theorem NeedsClauses.derives {list : List Clause} (needs : NeedsClauses list word cost) : DerivesClauses list word := by
  induction needs with
  | none => exact .none
  | each needs _ ih => exact .each needs.derives ih
  | define needs _ ih => exact .define needs.derives ih
  | filter needs _ ih => exact .filter needs.derives ih

theorem NeedsGroup.derives {group : Option GroupClause} (needs : NeedsGroup group word cost) :
    DerivesGroup group word := by
  cases needs with
  | none => exact .none
  | group element key => exact .group element.derives key.derives

theorem NeedsQuery.derives {query : Query} (needs : NeedsQuery query word cost) : DerivesQuery query word := by
  cases needs with
  | query clauses group select => exact .query clauses.derives group.derives select.derives

theorem DerivesClauses.needs {list : List Clause} (derived : DerivesClauses list word) :
    ∃ cost, NeedsClauses list word cost := by
  induction derived with
  | none => exact ⟨_, .none⟩
  | each derived _ ih =>
      obtain ⟨_, _, needs, _⟩ := derived.needs
      exact ⟨_, .each needs ih.choose_spec⟩
  | define derived _ ih =>
      obtain ⟨_, _, needs, _⟩ := derived.needs
      exact ⟨_, .define needs ih.choose_spec⟩
  | filter derived _ ih =>
      obtain ⟨_, _, needs, _⟩ := derived.needs
      exact ⟨_, .filter needs ih.choose_spec⟩

theorem DerivesGroup.needs {group : Option GroupClause} (derived : DerivesGroup group word) :
    ∃ cost, NeedsGroup group word cost := by
  cases derived with
  | none => exact ⟨_, .none⟩
  | group element key =>
      obtain ⟨_, _, elementNeeds, _⟩ := element.needs
      obtain ⟨_, _, keyNeeds, _⟩ := key.needs
      exact ⟨_, .group elementNeeds keyNeeds⟩

theorem DerivesQuery.needs {query : Query} (derived : DerivesQuery query word) : ∃ cost, NeedsQuery query word cost := by
  cases derived with
  | query clauses group select =>
      obtain ⟨_, clausesNeed⟩ := clauses.needs
      obtain ⟨_, groupNeeds⟩ := group.needs
      obtain ⟨_, _, selectNeeds, _⟩ := select.needs
      exact ⟨_, .query clausesNeed groupNeeds selectNeeds⟩

end DocumentViews.Grammar
