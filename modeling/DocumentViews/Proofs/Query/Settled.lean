import DocumentViews.Proofs.Query.CanonicalQuery
import DocumentViews.Proofs.Query.Unambiguous

set_option autoImplicit false

namespace DocumentViews

namespace Expr

def behindSigns (build : Expr → Expr) : Expr → Expr
  | .unary op operand => .unary op (behindSigns build operand)
  | expr => build expr

mutual

-- The expression that its canonical text stands for: suffixes bind tighter than signs.
def settled : Expr → Expr
  | .literal value => .literal value
  | .var name => .var name
  | .member target name => behindSigns (fun operand => .member operand name) (settled target)
  | .unary op operand => .unary op (settled operand)
  | .binary op left right => .binary op (settled left) (settled right)
  | .conditional test consequent alternative =>
      .conditional (settled test) (settled consequent) (settled alternative)
  | .method target asked arguments =>
      behindSigns (fun operand => .method operand asked (settledAll arguments)) (settled target)
  | .aggregate source function => behindSigns (fun operand => .aggregate operand function) (settled source)
  | .aggregateOf source function parameter body =>
      behindSigns (fun operand => .aggregateOf operand function parameter (settled body)) (settled source)
  | .call function arguments => .call function (settledAll arguments)
  | .object members => .object (settledMembers members)

def settledAll : List Expr → List Expr
  | [] => []
  | expr :: rest => settled expr :: settledAll rest

def settledMembers : List (String × Expr) → List (String × Expr)
  | [] => []
  | (name, expr) :: rest => (name, settled expr) :: settledMembers rest

end

variable {build : Expr → Expr} {holds : Expr → Prop} {isFunction : String → Bool} {scope : List String}

theorem behind_signs_text {suffix : String} (spelt : ∀ operand, (build operand).text = operand.text ++ suffix)
    (target : Expr) : (behindSigns build target).text = target.text ++ suffix := by
  fun_induction behindSigns build target with
  | case1 op operand ih => rw [text, ih, text, String.append_assoc]
  | case2 expr => exact spelt expr

theorem behind_signs_of_unsigned {target : Expr} (unsigned : target.isSigned = false) :
    behindSigns build target = build target := by
  cases target with
  | unary => cases unsigned
  | _ => rfl

theorem behind_signs_every (signs : ∀ op operand, holds (.unary op operand))
    (built : ∀ operand, operand.isSigned = false → operand.Every holds → (build operand).Every holds)
    {target : Expr} (every : target.Every holds) : (behindSigns build target).Every holds := by
  fun_induction behindSigns build target with
  | case1 op operand ih => exact ⟨signs op _, ih every.2⟩
  | case2 expr notSign =>
      refine built expr ?_ every
      cases expr with
      | unary op operand => exact absurd rfl (notSign op operand)
      | _ => rfl

theorem behind_signs_fits (built : ∀ operand, operand.Fits isFunction scope → (build operand).Fits isFunction scope)
    {target : Expr} (fits : target.Fits isFunction scope) : (behindSigns build target).Fits isFunction scope := by
  fun_induction behindSigns build target with
  | case1 op operand ih => exact ih fits
  | case2 expr => exact built expr fits

mutual

theorem settled_text : (expr : Expr) → expr.settled.text = expr.text
  | .literal _ => rfl
  | .var _ => rfl
  | .member target name => by
      rw [settled, behind_signs_text (fun _ => by rw [text, String.append_assoc]), settled_text target, text,
        String.append_assoc]
  | .unary op operand => by rw [settled, text, settled_text operand, text]
  | .binary op left right => by rw [settled, text, settled_text left, settled_text right, text]
  | .conditional test consequent alternative => by
      rw [settled, text, settled_text test, settled_text consequent, settled_text alternative, text]
  | .method target asked arguments => by
      rw [settled, behind_signs_text (fun _ => by simp only [text, String.append_assoc]; rfl), settled_text target]
      simp only [text, String.append_assoc, settled_all_text arguments]
  | .aggregate source function => by
      rw [settled, behind_signs_text (fun _ => by simp only [text, String.append_assoc]; rfl), settled_text source]
      simp only [text, String.append_assoc]
  | .aggregateOf source function parameter body => by
      rw [settled, behind_signs_text (fun _ => by simp only [text, String.append_assoc]; rfl), settled_text source]
      simp only [text, String.append_assoc, settled_text body]
  | .call function arguments => by rw [settled, text, settled_all_text arguments, text]
  | .object members => by rw [settled, text, settled_members_text members, text]

theorem settled_all_text : (list : List Expr) → argumentText (settledAll list) = argumentText list
  | [] => rfl
  | [argument] => settled_text argument
  | argument :: next :: rest => by
      have others := settled_all_text (next :: rest)
      simp only [settledAll] at others
      simp only [settledAll, argumentText, settled_text argument, others]

theorem settled_members_text : (members : List (String × Expr)) → memberText (settledMembers members) = memberText members
  | [] => rfl
  | [(name, value)] => by rw [settledMembers, settledMembers, memberText, settled_text value, memberText]
  | (name, value) :: next :: rest => by
      have others := settled_members_text (next :: rest)
      simp only [settledMembers] at others
      simp only [settledMembers, memberText, settled_text value, others]

end

mutual

theorem settled_unsigned : (expr : Expr) → expr.settled.Every SuffixesUnsigned
  | .literal _ => trivial
  | .var _ => trivial
  | .member target _ => by
      rw [settled]
      refine behind_signs_every (fun _ _ => trivial) ?_ (settled_unsigned target)
      exact fun _ unsigned every => ⟨unsigned, every⟩
  | .unary _ operand => ⟨trivial, settled_unsigned operand⟩
  | .binary _ left right => ⟨trivial, settled_unsigned left, settled_unsigned right⟩
  | .conditional test consequent alternative =>
      ⟨trivial, settled_unsigned test, settled_unsigned consequent, settled_unsigned alternative⟩
  | .method target _ arguments => by
      rw [settled]
      refine behind_signs_every (fun _ _ => trivial) ?_ (settled_unsigned target)
      exact fun _ unsigned every => ⟨unsigned, every, settled_all_unsigned arguments⟩
  | .aggregate source _ => by
      rw [settled]
      refine behind_signs_every (fun _ _ => trivial) ?_ (settled_unsigned source)
      exact fun _ unsigned every => ⟨unsigned, every⟩
  | .aggregateOf source _ _ body => by
      rw [settled]
      refine behind_signs_every (fun _ _ => trivial) ?_ (settled_unsigned source)
      exact fun _ unsigned every => ⟨unsigned, every, settled_unsigned body⟩
  | .call _ arguments => ⟨trivial, settled_all_unsigned arguments⟩
  | .object members => ⟨trivial, settled_members_unsigned members⟩

theorem settled_all_unsigned : (list : List Expr) → EveryOf SuffixesUnsigned (settledAll list)
  | [] => trivial
  | expr :: rest => ⟨settled_unsigned expr, settled_all_unsigned rest⟩

theorem settled_members_unsigned : (members : List (String × Expr)) → EveryMember SuffixesUnsigned (settledMembers members)
  | [] => trivial
  | (_, expr) :: rest => ⟨settled_unsigned expr, settled_members_unsigned rest⟩

end

theorem settled_members_names (members : List (String × Expr)) :
    (settledMembers members).map Prod.fst = members.map Prod.fst := by
  induction members with
  | nil => rfl
  | cons member rest ih => rw [settledMembers, List.map_cons, ih, List.map_cons]

theorem settled_all_length (list : List Expr) : (settledAll list).length = list.length := by
  induction list with
  | nil => rfl
  | cons expr rest ih => rw [settledAll, List.length_cons, ih, List.length_cons]

mutual

theorem settled_lexed : (expr : Expr) → expr.Every Lexed → expr.settled.Every Lexed
  | .literal _, every => every
  | .var _, every => every
  | .member target _, every => by
      rw [settled]
      refine behind_signs_every (fun _ _ => trivial) ?_ (settled_lexed target every.2)
      exact fun _ _ lexed => ⟨every.1, lexed⟩
  | .unary _ operand, every => ⟨trivial, settled_lexed operand every.2⟩
  | .binary _ left right, every => ⟨trivial, settled_lexed left every.2.1, settled_lexed right every.2.2⟩
  | .conditional test consequent alternative, every =>
      ⟨trivial, settled_lexed test every.2.1, settled_lexed consequent every.2.2.1,
        settled_lexed alternative every.2.2.2⟩
  | .method target _ arguments, every => by
      rw [settled]
      refine behind_signs_every (fun _ _ => trivial) ?_ (settled_lexed target every.2.1)
      exact fun _ _ lexed => ⟨trivial, lexed, settled_all_lexed arguments every.2.2⟩
  | .aggregate source _, every => by
      rw [settled]
      refine behind_signs_every (fun _ _ => trivial) ?_ (settled_lexed source every.2)
      exact fun _ _ lexed => ⟨trivial, lexed⟩
  | .aggregateOf source _ _ body, every => by
      rw [settled]
      refine behind_signs_every (fun _ _ => trivial) ?_ (settled_lexed source every.2.1)
      exact fun _ _ lexed => ⟨every.1, lexed, settled_lexed body every.2.2⟩
  | .call _ arguments, every => ⟨every.1, settled_all_lexed arguments every.2⟩
  | .object members, every => by
      have names : ∀ name ∈ (settledMembers members).map Prod.fst, IsName name := by
        rw [settled_members_names]
        exact List.forall_mem_map.mpr every.1
      exact ⟨List.forall_mem_map.mp names, settled_members_lexed members every.2⟩

theorem settled_all_lexed : (list : List Expr) → EveryOf Lexed list → EveryOf Lexed (settledAll list)
  | [], _ => trivial
  | expr :: rest, every => ⟨settled_lexed expr every.1, settled_all_lexed rest every.2⟩

theorem settled_members_lexed : (members : List (String × Expr)) → EveryMember Lexed members →
    EveryMember Lexed (settledMembers members)
  | [], _ => trivial
  | (_, expr) :: rest, every => ⟨settled_lexed expr every.1, settled_members_lexed rest every.2⟩

end

mutual

theorem settled_fits : (expr : Expr) → {scope : List String} → expr.Fits isFunction scope →
    expr.settled.Fits isFunction scope
  | .literal _, _, _ => trivial
  | .var _, _, fits => fits
  | .member target _, _, fits => by
      rw [settled]
      refine behind_signs_fits ?_ (settled_fits target fits)
      exact fun _ operand => operand
  | .unary _ operand, _, fits => settled_fits operand fits
  | .binary _ left right, _, fits => ⟨settled_fits left fits.1, settled_fits right fits.2⟩
  | .conditional test consequent alternative, _, fits =>
      ⟨settled_fits test fits.1, settled_fits consequent fits.2.1, settled_fits alternative fits.2.2⟩
  | .method target _ arguments, _, fits => by
      rw [settled]
      refine behind_signs_fits ?_ (settled_fits target fits.1)
      exact fun _ operand =>
        ⟨operand, (settled_all_length arguments).trans fits.2.1, settled_all_fit arguments fits.2.2⟩
  | .aggregate source _, _, fits => by
      rw [settled]
      refine behind_signs_fits ?_ (settled_fits source fits)
      exact fun _ operand => operand
  | .aggregateOf source _ _ body, _, fits => by
      rw [settled]
      refine behind_signs_fits ?_ (settled_fits source fits.1)
      exact fun _ operand => ⟨operand, settled_fits body fits.2⟩
  | .call _ arguments, _, fits => ⟨fits.1, settled_all_fit arguments fits.2⟩
  | .object members, _, fits =>
      ⟨(settled_members_names members).symm ▸ fits.1, settled_members_fit members fits.2⟩

theorem settled_all_fit : (list : List Expr) → {scope : List String} → AllFit isFunction scope list →
    AllFit isFunction scope (settledAll list)
  | [], _, _ => trivial
  | expr :: rest, _, fits => ⟨settled_fits expr fits.1, settled_all_fit rest fits.2⟩

theorem settled_members_fit : (members : List (String × Expr)) → {scope : List String} →
    MembersFit isFunction scope members → MembersFit isFunction scope (settledMembers members)
  | [], _, _ => trivial
  | (_, expr) :: rest, _, fits => ⟨settled_fits expr fits.1, settled_members_fit rest fits.2⟩

end

mutual

theorem settled_of_unsigned : (expr : Expr) → expr.Every SuffixesUnsigned → expr.settled = expr
  | .literal _, _ => rfl
  | .var _, _ => rfl
  | .member target _, every => by
      rw [settled, settled_of_unsigned target every.2, behind_signs_of_unsigned every.1]
  | .unary _ operand, every => by rw [settled, settled_of_unsigned operand every.2]
  | .binary _ left right, every => by
      rw [settled, settled_of_unsigned left every.2.1, settled_of_unsigned right every.2.2]
  | .conditional test consequent alternative, every => by
      rw [settled, settled_of_unsigned test every.2.1, settled_of_unsigned consequent every.2.2.1,
        settled_of_unsigned alternative every.2.2.2]
  | .method target _ arguments, every => by
      rw [settled, settled_of_unsigned target every.2.1, behind_signs_of_unsigned every.1,
        settled_all_of_unsigned arguments every.2.2]
  | .aggregate source _, every => by
      rw [settled, settled_of_unsigned source every.2, behind_signs_of_unsigned every.1]
  | .aggregateOf source _ _ body, every => by
      rw [settled, settled_of_unsigned source every.2.1, behind_signs_of_unsigned every.1,
        settled_of_unsigned body every.2.2]
  | .call _ arguments, every => by rw [settled, settled_all_of_unsigned arguments every.2]
  | .object members, every => by rw [settled, settled_members_of_unsigned members every.2]

theorem settled_all_of_unsigned : (list : List Expr) → EveryOf SuffixesUnsigned list → settledAll list = list
  | [], _ => rfl
  | expr :: rest, every => by
      rw [settledAll, settled_of_unsigned expr every.1, settled_all_of_unsigned rest every.2]

theorem settled_members_of_unsigned : (members : List (String × Expr)) → EveryMember SuffixesUnsigned members →
    settledMembers members = members
  | [], _ => rfl
  | (_, expr) :: rest, every => by
      rw [settledMembers, settled_of_unsigned expr every.1, settled_members_of_unsigned rest every.2]

end

def isLiteral : Expr → Bool
  | .literal _ => true
  | _ => false

def OnLiterals (holds : Expr → Prop) : Prop := ∀ expr : Expr, expr.isLiteral = false → holds expr

theorem OnLiterals.both (free : OnLiterals holds) {one other : Expr} (noLiteral : one.isLiteral = false)
    (alsoNone : other.isLiteral = false) : holds one ↔ holds other :=
  iff_of_true (free one noLiteral) (free other alsoNone)

theorem behind_signs_every_iff (free : OnLiterals holds) {suffix : Prop}
    (built : ∀ operand, (build operand).Every holds ↔ operand.Every holds ∧ suffix) (target : Expr) :
    (behindSigns build target).Every holds ↔ target.Every holds ∧ suffix := by
  fun_induction behindSigns build target with
  | case1 op operand ih =>
      rw [Every, Every, and_assoc]
      exact and_congr (free.both rfl rfl) ih
  | case2 expr => exact built expr

mutual

theorem settled_every_iff (free : OnLiterals holds) : (expr : Expr) → (expr.settled.Every holds ↔ expr.Every holds)
  | .literal _ | .var _ => Iff.rfl
  | .member target name => by
      have built : ∀ operand, (Expr.member operand name).Every holds ↔ operand.Every holds ∧ True := fun operand => by
        simp only [Every, free (.member operand name) rfl, true_and, and_true]
      rw [settled, behind_signs_every_iff free built, settled_every_iff free target, built]
  | .unary _ operand => and_congr (free.both rfl rfl) (settled_every_iff free operand)
  | .binary _ left right =>
      and_congr (free.both rfl rfl) (and_congr (settled_every_iff free left) (settled_every_iff free right))
  | .conditional test consequent alternative =>
      and_congr (free.both rfl rfl) (and_congr (settled_every_iff free test)
        (and_congr (settled_every_iff free consequent) (settled_every_iff free alternative)))
  | .method target asked arguments => by
      have built : ∀ arguments operand,
          (Expr.method operand asked arguments).Every holds ↔ operand.Every holds ∧ EveryOf holds arguments :=
        fun arguments operand => by simp only [Every, free (.method operand asked arguments) rfl, true_and]
      rw [settled, behind_signs_every_iff free (built _), settled_every_iff free target,
        settled_all_every_iff free arguments, built]
  | .aggregate source function => by
      have built : ∀ operand, (Expr.aggregate operand function).Every holds ↔ operand.Every holds ∧ True :=
        fun operand => by simp only [Every, free (.aggregate operand function) rfl, true_and, and_true]
      rw [settled, behind_signs_every_iff free built, settled_every_iff free source, built]
  | .aggregateOf source function parameter body => by
      have built : ∀ body operand,
          (Expr.aggregateOf operand function parameter body).Every holds ↔ operand.Every holds ∧ body.Every holds :=
        fun body operand => by simp only [Every, free (.aggregateOf operand function parameter body) rfl, true_and]
      rw [settled, behind_signs_every_iff free (built _), settled_every_iff free source, settled_every_iff free body,
        built]
  | .call _ arguments => and_congr (free.both rfl rfl) (settled_all_every_iff free arguments)
  | .object members => and_congr (free.both rfl rfl) (settled_members_every_iff free members)

theorem settled_all_every_iff (free : OnLiterals holds) : (list : List Expr) →
    (EveryOf holds (settledAll list) ↔ EveryOf holds list)
  | [] => Iff.rfl
  | expr :: rest => and_congr (settled_every_iff free expr) (settled_all_every_iff free rest)

theorem settled_members_every_iff (free : OnLiterals holds) : (members : List (String × Expr)) →
    (EveryMember holds (settledMembers members) ↔ EveryMember holds members)
  | [] => Iff.rfl
  | (_, expr) :: rest => and_congr (settled_every_iff free expr) (settled_members_every_iff free rest)

end

end Expr

variable {isFunction : String → Bool} {scope : List String}

namespace Clause

def settled : Clause → Clause
  | each name source => each name source.settled
  | define name value => define name value.settled
  | filter condition => filter condition.settled

theorem settled_text (clause : Clause) : clause.settled.text = clause.text := by
  cases clause <;> simp only [settled, text, Expr.settled_text]

theorem settled_unsigned (clause : Clause) : clause.settled.Every Expr.SuffixesUnsigned := by
  cases clause <;> exact Expr.settled_unsigned _

theorem settled_lexed {clause : Clause} (lexed : clause.Lexed) : clause.settled.Lexed := by
  cases clause with
  | each | define => exact ⟨lexed.1, Expr.settled_lexed _ lexed.2⟩
  | filter => exact Expr.settled_lexed _ lexed

theorem settled_of_unsigned {clause : Clause} (unsigned : clause.Every Expr.SuffixesUnsigned) : clause.settled = clause := by
  cases clause <;> simp only [settled, Expr.settled_of_unsigned _ unsigned]

end Clause

theorem clauses_settled_text (clauses : List Clause) :
    String.join ((clauses.map Clause.settled).map Clause.text) = String.join (clauses.map Clause.text) := by
  rw [List.map_map]
  exact congrArg String.join (List.map_congr_left fun clause _ => clause.settled_text)

namespace GroupClause

def settled (group : GroupClause) : GroupClause :=
  { group with element := group.element.settled, key := group.key.settled }

theorem settled_text (group : GroupClause) : group.settled.text = group.text := by
  simp only [settled, text, Expr.settled_text]

theorem settled_lexed {group : GroupClause} (lexed : group.Lexed) : group.settled.Lexed where
  exprs := ⟨Expr.settled_lexed _ lexed.exprs.1, Expr.settled_lexed _ lexed.exprs.2⟩
  into := lexed.into

theorem settled_of_unsigned {group : GroupClause} (unsigned : group.Every Expr.SuffixesUnsigned) :
    group.settled = group := by
  rw [settled, Expr.settled_of_unsigned _ unsigned.1, Expr.settled_of_unsigned _ unsigned.2]

end GroupClause

namespace Query

def settled (query : Query) : Query :=
  { query with
    clauses := query.clauses.map Clause.settled
    group := query.group.map GroupClause.settled
    select := query.select.settled }

theorem settled_text (query : Query) : query.settled.text = query.text := by
  obtain ⟨range, source, clauses, group, select⟩ := query
  cases group <;>
    simp only [settled, text, Option.map_none, Option.map_some, clauses_settled_text, GroupClause.settled_text,
      Expr.settled_text]

theorem settled_unsigned (query : Query) : query.settled.Every Expr.SuffixesUnsigned where
  clauses := List.forall_mem_map.mpr fun clause _ => clause.settled_unsigned
  group := by
    rintro group member
    obtain ⟨inner, _, rfl⟩ := Option.map_eq_some_iff.mp member
    exact ⟨Expr.settled_unsigned _, Expr.settled_unsigned _⟩
  select := Expr.settled_unsigned _

theorem settled_lexed {query : Query} (lexed : query.Lexed) : query.settled.Lexed where
  range := lexed.range
  source := lexed.source
  clauses := List.forall_mem_map.mpr fun clause member => Clause.settled_lexed (lexed.clauses clause member)
  group := by
    rintro group member
    obtain ⟨inner, present, rfl⟩ := Option.map_eq_some_iff.mp member
    exact GroupClause.settled_lexed (lexed.group inner present)
  select := Expr.settled_lexed _ lexed.select

theorem settled_on_exprs (query : Query) : query.settled = query.onExprs Expr.settled := by
  have same : Clause.settled = Clause.onExpr Expr.settled := funext fun clause => by cases clause <;> rfl
  rw [settled, same]
  rfl

theorem settled_fits {query : Query} (fits : query.Fits isFunction) : query.settled.Fits isFunction := by
  rw [settled_on_exprs]
  exact on_exprs_fit (fun fits => Expr.settled_fits _ fits) fits

theorem settled_of_unsigned {query : Query} (unsigned : query.Every Expr.SuffixesUnsigned) : query.settled = query := by
  obtain ⟨range, source, clauses, group, select⟩ := query
  have sameClauses : clauses.map Clause.settled = clauses :=
    (List.map_congr_left fun clause member => Clause.settled_of_unsigned (unsigned.clauses clause member)).trans
      (List.map_id clauses)
  have sameGroup : group.map GroupClause.settled = group := by
    cases group with
    | none => rfl
    | some group => exact congrArg some (GroupClause.settled_of_unsigned (unsigned.group group rfl))
  simp only [settled, sameClauses, sameGroup, Expr.settled_of_unsigned _ unsigned.select]

theorem settled_every_iff {holds : Expr → Prop} (free : Expr.OnLiterals holds) (query : Query) :
    query.settled.Every holds ↔ query.Every holds := by
  rw [settled_on_exprs]
  exact on_exprs_every_iff (Expr.settled_every_iff free) query

-- Both queries are derived from the one word that their text spells.
theorem eq_of_text {left right : Query} (leftLexed : left.Lexed) (rightLexed : right.Lexed)
    (leftFits : left.Fits isFunction) (rightFits : right.Fits isFunction)
    (leftUnsigned : left.Every Expr.SuffixesUnsigned) (rightUnsigned : right.Every Expr.SuffixesUnsigned)
    (same : left.text = right.text) : left = right := by
  obtain ⟨word, leftDerived, leftSpells⟩ := Grammar.query_canonical leftLexed leftUnsigned False.elim
  obtain ⟨other, rightDerived, rightSpells⟩ := Grammar.query_canonical rightLexed rightUnsigned False.elim
  rw [same] at leftSpells
  obtain rfl := Lexeme.spells_unique leftSpells rightSpells
  exact Grammar.query_unique leftDerived leftFits rightDerived rightFits

/-- Two parsed queries have the same canonical text just when they agree once every sign is moved in
front of the suffixes behind it. So two queries with one text, the first without a suffix directly behind
a sign, are the same query just when the second has no such suffix either. -/
theorem parsed_same_text_iff {leftText rightText : String} {left right : Query}
    (leftParsed : Query.parse isFunction leftText = .ok left) (rightParsed : Query.parse isFunction rightText = .ok right) :
    (left.text = right.text ↔ left.settled = right.settled) ∧
      (left.text = right.text → left.Every Expr.SuffixesUnsigned →
        (left = right ↔ right.Every Expr.SuffixesUnsigned)) := by
  obtain ⟨_, _, _, leftFits⟩ := Query.parsed_derives leftParsed
  obtain ⟨_, _, _, rightFits⟩ := Query.parsed_derives rightParsed
  have settles : left.text = right.text → left.settled = right.settled := fun same =>
    eq_of_text (settled_lexed (Query.parsed_lexed leftParsed)) (settled_lexed (Query.parsed_lexed rightParsed))
      (settled_fits leftFits) (settled_fits rightFits) left.settled_unsigned right.settled_unsigned
      (left.settled_text.trans (same.trans right.settled_text.symm))
  refine ⟨⟨settles, fun same => ?_⟩, fun same unsigned => ⟨?_, fun alsoUnsigned => ?_⟩⟩
  · rw [← left.settled_text, same, right.settled_text]
  · rintro rfl
    exact unsigned
  · rw [← settled_of_unsigned unsigned, settles same, settled_of_unsigned alsoUnsigned]

theorem parsed_same_text_iff_spaced : ∃ left right,
    Query.parse Extensions.builtins.isFunction "from d in docs where -d.A > 1 select new \x7b d.B \x7d" = .ok left ∧
    Query.parse Extensions.builtins.isFunction
      "from d in docs where ((-(d.A)) > (1)) select new \x7b B = (d).B, \x7d" = .ok right ∧
    (left.text = right.text ↔ left.settled = right.settled) ∧ left = right := by
  have leftAccepted : (Query.parse Extensions.builtins.isFunction
      "from d in docs where -d.A > 1 select new \x7b d.B \x7d").toOption.any (fun query =>
        query.Every Expr.SuffixesUnsigned ∧
          query.text = "from d in docs\nwhere (-d.A > 1)\nselect new \x7b B = d.B \x7d") = true := by decide +kernel
  have rightAccepted : (Query.parse Extensions.builtins.isFunction
      "from d in docs where ((-(d.A)) > (1)) select new \x7b B = (d).B, \x7d").toOption.any (fun query =>
        query.Every Expr.SuffixesUnsigned ∧
          query.text = "from d in docs\nwhere (-d.A > 1)\nselect new \x7b B = d.B \x7d") = true := by decide +kernel
  obtain ⟨left, leftParsed, leftHolds⟩ := ok_with_exists leftAccepted
  obtain ⟨right, rightParsed, rightHolds⟩ := ok_with_exists rightAccepted
  obtain ⟨leftUnsigned, leftText⟩ := of_decide_eq_true leftHolds
  obtain ⟨rightUnsigned, rightText⟩ := of_decide_eq_true rightHolds
  obtain ⟨settles, agree⟩ := parsed_same_text_iff leftParsed rightParsed
  exact ⟨left, right, leftParsed, rightParsed, settles,
    (agree (leftText.trans rightText.symm) leftUnsigned).mpr rightUnsigned⟩

-- No parentheses are written around an expression with a sign, so a suffix behind it goes to
-- its operand when the text is read.
theorem parsed_same_text_differs : ∃ left right,
    Query.parse Extensions.builtins.isFunction "from d in docs select new \x7b X = (!d.A).B \x7d" = .ok left ∧
    Query.parse Extensions.builtins.isFunction "from d in docs select new \x7b X = !d.A.B \x7d" = .ok right ∧
    left.text = right.text ∧
    left.run .builtins [.object [("A", .object [("B", .bool true)])]] ≠
      right.run .builtins [.object [("A", .object [("B", .bool true)])]] := by
  have leftAccepted : (Query.parse Extensions.builtins.isFunction
      "from d in docs select new \x7b X = (!d.A).B \x7d").toOption.any (fun query =>
        query.text = "from d in docs\nselect new \x7b X = !d.A.B \x7d" ∧
          (query.run .builtins [.object [("A", .object [("B", .bool true)])]]).map Value.compact =
            ["\x7b\"X\":null\x7d"]) = true := by decide +kernel
  have rightAccepted : (Query.parse Extensions.builtins.isFunction
      "from d in docs select new \x7b X = !d.A.B \x7d").toOption.any (fun query =>
        query.text = "from d in docs\nselect new \x7b X = !d.A.B \x7d" ∧
          (query.run .builtins [.object [("A", .object [("B", .bool true)])]]).map Value.compact =
            ["\x7b\"X\":false\x7d"]) = true := by decide +kernel
  obtain ⟨left, leftParsed, leftHolds⟩ := ok_with_exists leftAccepted
  obtain ⟨right, rightParsed, rightHolds⟩ := ok_with_exists rightAccepted
  obtain ⟨leftText, leftOutput⟩ := of_decide_eq_true leftHolds
  obtain ⟨rightText, rightOutput⟩ := of_decide_eq_true rightHolds
  refine ⟨left, right, leftParsed, rightParsed, leftText.trans rightText.symm, fun same => ?_⟩
  rw [same, rightOutput] at leftOutput
  exact absurd leftOutput (by decide)

end Query
end DocumentViews
