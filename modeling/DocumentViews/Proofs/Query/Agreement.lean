import Mathlib.Data.List.Forall2
import DocumentViews.Query.Parser

set_option autoImplicit false

namespace DocumentViews

namespace Grammar

abbrev TokensAlike (left right : List Lexeme) : Prop :=
  List.Forall₂ (fun one other => one.token = other.token) left right

theorem tokens_alike_iff {left right : List Lexeme} :
    TokensAlike left right ↔ left.map Lexeme.token = right.map Lexeme.token := by
  rw [← List.forall₂_eq_eq_eq, List.forall₂_map_left_iff, List.forall₂_map_right_iff]

inductive Both {α β : Type} (related : α → β → Prop) : Except QueryError α → Except QueryError β → Prop
  | failed {one other : QueryError} : one.fault = other.fault → Both related (.error one) (.error other)
  | done {one : α} {other : β} : related one other → Both related (.ok one) (.ok other)

theorem both_bind {α β γ δ : Type} {related : α → β → Prop} {after : γ → δ → Prop} {one : Except QueryError α}
    {other : Except QueryError β} {next : α → Except QueryError γ} {otherNext : β → Except QueryError δ}
    (first : Both related one other) (goes : ∀ value otherValue, related value otherValue →
      Both after (next value) (otherNext otherValue)) : Both after (one >>= next) (other >>= otherNext) := by
  cases first with
  | failed same => exact .failed same
  | done holds => exact goes _ _ holds

variable {α : Type} {left right : List Lexeme}

def SameParse (one : Parsed left α) (other : Parsed right α) : Prop :=
  one.value = other.value ∧ TokensAlike one.rest other.rest

theorem take_cases (wanted : Token) (alike : TokensAlike left right) :
    (take? wanted left = none ∧ take? wanted right = none) ∨
      ∃ one other, take? wanted left = some one ∧ take? wanted right = some other ∧ SameParse one other := by
  cases alike with
  | nil => exact .inl ⟨rfl, rfl⟩
  | @cons lexeme other rest otherRest first others =>
      by_cases hit : lexeme.token.same wanted = true
      · refine .inr ⟨.first () rest, .first () otherRest, ?_, ?_, rfl, others⟩
        · rw [take?, if_pos hit]
        · rw [take?, ← first, if_pos hit]
      · refine .inl ⟨?_, ?_⟩
        · rw [take?, if_neg hit]
        · rw [take?, ← first, if_neg hit]

variable {context otherContext : Context}

theorem first_tokens (alike : TokensAlike left right) :
    left.head?.map Lexeme.token = right.head?.map Lexeme.token := by
  cases alike with
  | nil => rfl
  | cons first _ => exact congrArg some first

theorem expect_both (wanted : Token) (alike : TokensAlike left right) :
    Both SameParse (expect context wanted left) (expect otherContext wanted right) := by
  simp only [expect]
  rcases take_cases wanted alike with ⟨missing, otherMissing⟩ | ⟨one, other, taken, otherTaken, same⟩
  · rw [missing, otherMissing]
    exact .failed (congrArg (QueryFault.expected wanted) (first_tokens alike))
  · rw [taken, otherTaken]
    exact .done same

theorem identifier_both (alike : TokensAlike left right) :
    Both SameParse (identifier context left) (identifier otherContext right) := by
  cases alike with
  | nil => exact .failed rfl
  | @cons lexeme other rest otherRest first others =>
      obtain ⟨gap, spelling, token, position⟩ := lexeme
      obtain ⟨otherGap, otherSpelling, otherToken, otherPosition⟩ := other
      obtain rfl : token = otherToken := first
      cases token with
      | identifier name => exact .done ⟨rfl, others⟩
      | _ => exact .failed rfl

theorem take_operator_cases (level : Level) (alike : TokensAlike left right) :
    (takeOperator? level left = none ∧ takeOperator? level right = none) ∨
      ∃ one other, takeOperator? level left = some one ∧ takeOperator? level right = some other ∧
        SameParse one other := by
  cases alike with
  | nil => exact .inl ⟨rfl, rfl⟩
  | @cons lexeme other rest otherRest first others =>
      obtain ⟨gap, spelling, token, position⟩ := lexeme
      obtain ⟨otherGap, otherSpelling, otherToken, otherPosition⟩ := other
      obtain rfl : token = otherToken := first
      cases token with
      | mark mark =>
          cases found : level.operator? mark with
          | none => exact .inl ⟨by simp [takeOperator?, found], by simp [takeOperator?, found]⟩
          | some op =>
              exact .inr ⟨.first op rest, .first op otherRest, by simp [takeOperator?, found],
                by simp [takeOperator?, found], rfl, others⟩
      | _ => exact .inl ⟨rfl, rfl⟩

def ParsersAgree (parser other : ExprParser) : Prop :=
  ∀ (scope : List String) {left right : List Lexeme}, TokensAlike left right →
    Both SameParse (parser scope left) (other scope right)

variable {parser otherParser : ExprParser}

theorem more_arguments_both (agree : ParsersAgree parser otherParser) (scope : List String)
    (alike : TokensAlike left right) :
    Both SameParse (moreArguments context parser scope left) (moreArguments otherContext otherParser scope right) := by
  -- By the number of tokens that are left: an argument takes one at least, on both sides.
  induction size : left.length using Nat.strongRecOn generalizing left right with
  | ind size ih =>
      rw [moreArguments, moreArguments]
      rcases take_cases (.mark .closeParen) alike with
        ⟨goesOn, otherGoesOn⟩ | ⟨close, otherClose, closed, otherClosed, same⟩
      · rw [takeMark?, takeMark?, goesOn, otherGoesOn]
        apply both_bind (expect_both (.mark .comma) alike)
        rintro ⟨_, rest, shorter⟩ ⟨_, otherRest, otherShorter⟩ ⟨_, restAlike⟩
        apply both_bind (agree scope restAlike)
        rintro ⟨argument, rest, less⟩ ⟨_, otherRest, otherLess⟩ ⟨rfl, restAlike⟩
        apply both_bind (ih rest.length (by dsimp only at less; omega) restAlike rfl)
        rintro ⟨others, rest, _⟩ ⟨_, otherRest, _⟩ ⟨rfl, restAlike⟩
        exact .done ⟨rfl, restAlike⟩
      · rw [takeMark?, takeMark?, closed, otherClosed]
        exact .done ⟨rfl, same.2⟩

theorem arguments_both (agree : ParsersAgree parser otherParser) (scope : List String)
    (alike : TokensAlike left right) :
    Both SameParse (arguments context parser scope left) (arguments otherContext otherParser scope right) := by
  rw [arguments, arguments]
  rcases take_cases (.mark .closeParen) alike with
    ⟨goesOn, otherGoesOn⟩ | ⟨close, otherClose, closed, otherClosed, same⟩
  · rw [takeMark?, takeMark?, goesOn, otherGoesOn]
    apply both_bind (agree scope alike)
    rintro ⟨argument, rest, _⟩ ⟨_, otherRest, _⟩ ⟨rfl, restAlike⟩
    apply both_bind (more_arguments_both agree scope restAlike)
    rintro ⟨others, rest, _⟩ ⟨_, otherRest, _⟩ ⟨rfl, restAlike⟩
    exact .done ⟨rfl, restAlike⟩
  · rw [takeMark?, takeMark?, closed, otherClosed]
    exact .done ⟨rfl, same.2⟩

theorem given_name_cases (alike : TokensAlike left right) :
    (givenName? left = none ∧ givenName? right = none) ∨
      ∃ one other, givenName? left = some one ∧ givenName? right = some other ∧ SameParse one other := by
  cases alike with
  | nil => exact .inl ⟨rfl, rfl⟩
  | @cons lexeme other rest otherRest first others =>
      cases others with
      | nil => exact .inl ⟨rfl, rfl⟩
      | @cons next otherNext rest otherRest second others =>
          obtain ⟨gap, spelling, token, position⟩ := lexeme
          obtain ⟨otherGap, otherSpelling, otherToken, otherPosition⟩ := other
          obtain ⟨nextGap, nextSpelling, nextToken, nextPosition⟩ := next
          obtain ⟨otherNextGap, otherNextSpelling, otherNextToken, otherNextPosition⟩ := otherNext
          obtain rfl : token = otherToken := first
          obtain rfl : nextToken = otherNextToken := second
          cases token with
          | identifier name =>
              cases nextToken with
              | mark mark =>
                  cases mark with
                  | assign => exact .inr ⟨_, _, rfl, rfl, rfl, others⟩
                  | _ => exact .inl ⟨rfl, rfl⟩
              | _ => exact .inl ⟨rfl, rfl⟩
          | _ => exact .inl ⟨rfl, rfl⟩

theorem object_member_both (agree : ParsersAgree parser otherParser) (scope used : List String)
    (alike : TokensAlike left right) :
    Both SameParse (objectMember context parser scope used left)
      (objectMember otherContext otherParser scope used right) := by
  have checked : ∀ {one : Parsed left (String × Expr)} {other : Parsed right (String × Expr)}, SameParse one other →
      Both SameParse
        (if used.contains one.value.1 then context.fail left (.duplicateMember one.value.1) else .ok one)
        (if used.contains other.value.1 then otherContext.fail right (.duplicateMember other.value.1)
          else .ok other) := by
    rintro ⟨⟨name, value⟩, rest, _⟩ ⟨_, otherRest, _⟩ ⟨rfl, restAlike⟩
    dsimp only
    split
    · exact .failed rfl
    · exact .done ⟨rfl, restAlike⟩
  simp only [objectMember]
  rcases given_name_cases alike with
    ⟨unnamed, otherUnnamed⟩ | ⟨⟨name, rest, _⟩, ⟨_, otherRest, _⟩, given, otherGiven, rfl, restAlike⟩
  · rw [unnamed, otherUnnamed]
    apply both_bind (agree scope alike)
    rintro ⟨value, rest, _⟩ ⟨_, otherRest, _⟩ ⟨rfl, restAlike⟩
    dsimp only
    cases impliedName? value with
    | none => exact .failed rfl
    | some name => exact checked ⟨rfl, restAlike⟩
  · rw [given, otherGiven]
    apply both_bind (agree scope restAlike)
    rintro ⟨value, rest, _⟩ ⟨_, otherRest, _⟩ ⟨rfl, restAlike⟩
    exact checked ⟨rfl, restAlike⟩

theorem more_object_members_both (agree : ParsersAgree parser otherParser) (scope used : List String)
    (alike : TokensAlike left right) :
    Both SameParse (moreObjectMembers context parser scope used left)
      (moreObjectMembers otherContext otherParser scope used right) := by
  induction size : left.length using Nat.strongRecOn generalizing used left right with
  | ind size ih =>
      rw [moreObjectMembers, moreObjectMembers]
      rcases take_cases (.mark .closeBrace) alike with
        ⟨goesOn, otherGoesOn⟩ | ⟨close, otherClose, closed, otherClosed, same⟩
      · rw [takeMark?, takeMark?, goesOn, otherGoesOn]
        apply both_bind (expect_both (.mark .comma) alike)
        rintro ⟨_, rest, shorter⟩ ⟨_, otherRest, otherShorter⟩ ⟨_, restAlike⟩
        dsimp only at shorter restAlike ⊢
        rcases take_cases (.mark .closeBrace) restAlike with
          ⟨goesOn, otherGoesOn⟩ | ⟨close, otherClose, closed, otherClosed, same⟩
        · rw [takeMark?, takeMark?, goesOn, otherGoesOn]
          apply both_bind (object_member_both agree scope used restAlike)
          rintro ⟨member, rest, less⟩ ⟨_, otherRest, otherLess⟩ ⟨rfl, restAlike⟩
          apply both_bind (ih rest.length (by omega) (member.1 :: used) restAlike rfl)
          rintro ⟨others, rest, _⟩ ⟨_, otherRest, _⟩ ⟨rfl, restAlike⟩
          exact .done ⟨rfl, restAlike⟩
        · rw [takeMark?, takeMark?, closed, otherClosed]
          exact .done ⟨rfl, same.2⟩
      · rw [takeMark?, takeMark?, closed, otherClosed]
        exact .done ⟨rfl, same.2⟩

theorem object_members_both (agree : ParsersAgree parser otherParser) (scope : List String)
    (alike : TokensAlike left right) :
    Both SameParse (objectMembers context parser scope left) (objectMembers otherContext otherParser scope right) := by
  rw [objectMembers, objectMembers]
  rcases take_cases (.mark .closeBrace) alike with
    ⟨goesOn, otherGoesOn⟩ | ⟨close, otherClose, closed, otherClosed, same⟩
  · rw [takeMark?, takeMark?, goesOn, otherGoesOn]
    apply both_bind (object_member_both agree scope [] alike)
    rintro ⟨member, rest, _⟩ ⟨_, otherRest, _⟩ ⟨rfl, restAlike⟩
    apply both_bind (more_object_members_both agree scope [member.1] restAlike)
    rintro ⟨others, rest, _⟩ ⟨_, otherRest, _⟩ ⟨rfl, restAlike⟩
    exact .done ⟨rfl, restAlike⟩
  · rw [takeMark?, takeMark?, closed, otherClosed]
    exact .done ⟨rfl, same.2⟩

theorem named_both (sameFunctions : context.isFunction = otherContext.isFunction)
    (agree : ParsersAgree parser otherParser) (scope : List String) (name : String) (position otherPosition : Nat)
    (alike : TokensAlike left right) :
    Both (fun one other => one.1 = other.1 ∧ TokensAlike one.2.1 other.2.1)
      (named context parser scope name position left)
      (named otherContext otherParser scope name otherPosition right) := by
  rw [named, named]
  rcases take_cases (.mark .openParen) alike with
    ⟨plain, otherPlain⟩ | ⟨⟨_, rest, _⟩, ⟨_, otherRest, _⟩, called, otherCalled, _, restAlike⟩
  · rw [takeMark?, takeMark?, plain, otherPlain]
    dsimp only
    split
    · exact .done ⟨rfl, alike⟩
    · exact .failed rfl
  · rw [takeMark?, takeMark?, called, otherCalled, sameFunctions]
    dsimp only
    split
    · apply both_bind (arguments_both agree scope restAlike)
      rintro ⟨found, rest, _⟩ ⟨_, otherRest, _⟩ ⟨rfl, restAlike⟩
      exact .done ⟨rfl, restAlike⟩
    · exact .failed rfl

theorem primary_both (sameFunctions : context.isFunction = otherContext.isFunction)
    (agree : ParsersAgree parser otherParser) :
    ParsersAgree (primary context parser) (primary otherContext otherParser) := by
  intro scope left right alike
  cases alike with
  | nil => exact .failed rfl
  | @cons lexeme other rest otherRest first others =>
      obtain ⟨gap, spelling, token, position⟩ := lexeme
      obtain ⟨otherGap, otherSpelling, otherToken, otherPosition⟩ := other
      obtain rfl : token = otherToken := first
      simp only [primary]
      cases token with
      | number value => exact .done ⟨rfl, others⟩
      | text content => exact .done ⟨rfl, others⟩
      | keyword word =>
          cases word with
          | trueWord => exact .done ⟨rfl, others⟩
          | falseWord => exact .done ⟨rfl, others⟩
          | nullWord => exact .done ⟨rfl, others⟩
          | newWord =>
              apply both_bind (expect_both (.mark .openBrace) others)
              rintro ⟨_, rest, _⟩ ⟨_, otherRest, _⟩ ⟨_, restAlike⟩
              apply both_bind (object_members_both agree scope restAlike)
              rintro ⟨members, rest, _⟩ ⟨_, otherRest, _⟩ ⟨rfl, restAlike⟩
              exact .done ⟨rfl, restAlike⟩
          | _ => exact .failed rfl
      | mark mark =>
          cases mark with
          | openParen =>
              apply both_bind (agree scope others)
              rintro ⟨inner, rest, _⟩ ⟨_, otherRest, _⟩ ⟨rfl, restAlike⟩
              apply both_bind (expect_both (.mark .closeParen) restAlike)
              rintro ⟨_, rest, _⟩ ⟨_, otherRest, _⟩ ⟨_, restAlike⟩
              exact .done ⟨rfl, restAlike⟩
          | _ => exact .failed rfl
      | identifier name =>
          apply both_bind (named_both sameFunctions agree scope name position otherPosition others)
          rintro ⟨expr, left⟩ ⟨_, otherLeft⟩ ⟨rfl, restAlike⟩
          exact .done ⟨rfl, restAlike⟩

def ExtendersAgree (extender other : Extender) : Prop :=
  ∀ (scope : List String) {left right : List Lexeme} {read : Parsed left Expr} {otherRead : Parsed right Expr},
    SameParse read otherRead → Both SameParse (extender scope read) (other scope otherRead)

structure StagesAgree (below other : Stage) : Prop where
  expression : ParsersAgree below.expression other.expression
  conditional : ParsersAgree below.conditional other.conditional
  coalesce : ParsersAgree below.coalesce other.coalesce
  unary : ParsersAgree below.unary other.unary
  afterOperator : ∀ level tighter op,
    ExtendersAgree (below.afterOperator level tighter op) (other.afterOperator level tighter op)
  afterDot : ExtendersAgree below.afterDot other.afterDot

variable {below otherBelow : Stage}

theorem suffixes_both (stages : StagesAgree below otherBelow) :
    ExtendersAgree (suffixes below) (suffixes otherBelow) := by
  rintro scope left right ⟨target, rest, _⟩ ⟨_, otherRest, _⟩ ⟨rfl, restAlike⟩
  dsimp only at restAlike
  simp only [suffixes]
  rcases take_cases (.mark .dot) restAlike with
    ⟨ended, otherEnded⟩ | ⟨dot, otherDot, goesOn, otherGoesOn, same⟩
  · rw [takeMark?, takeMark?, ended, otherEnded]
    exact .done ⟨rfl, restAlike⟩
  · rw [takeMark?, takeMark?, goesOn, otherGoesOn]
    exact stages.afterDot scope ⟨rfl, same.2⟩

theorem lambda_both (agree : ParsersAgree parser otherParser) (scope : List String) (alike : TokensAlike left right) :
    Both SameParse (lambda context parser scope left) (lambda otherContext otherParser scope right) := by
  simp only [lambda]
  apply both_bind (identifier_both alike)
  rintro ⟨parameter, rest, _⟩ ⟨_, otherRest, _⟩ ⟨rfl, restAlike⟩
  apply both_bind (expect_both (.mark .arrow) restAlike)
  rintro ⟨_, rest, _⟩ ⟨_, otherRest, _⟩ ⟨_, restAlike⟩
  apply both_bind (agree (parameter :: scope) restAlike)
  rintro ⟨body, rest, _⟩ ⟨_, otherRest, _⟩ ⟨rfl, restAlike⟩
  exact .done ⟨rfl, restAlike⟩

theorem aggregate_rest_both (agree : ParsersAgree parser otherParser) (scope : List String) (source : Expr)
    (function : Aggregate) (alike : TokensAlike left right) :
    Both SameParse (aggregateRest context parser scope source function left)
      (aggregateRest otherContext otherParser scope source function right) := by
  rw [aggregateRest, aggregateRest]
  rcases take_cases (.mark .closeParen) alike with
    ⟨goesOn, otherGoesOn⟩ | ⟨close, otherClose, closed, otherClosed, same⟩
  · rw [takeMark?, takeMark?, goesOn, otherGoesOn]
    apply both_bind (lambda_both agree scope alike)
    rintro ⟨found, rest, _⟩ ⟨_, otherRest, _⟩ ⟨rfl, restAlike⟩
    apply both_bind (expect_both (.mark .closeParen) restAlike)
    rintro ⟨_, rest, _⟩ ⟨_, otherRest, _⟩ ⟨_, restAlike⟩
    exact .done ⟨rfl, restAlike⟩
  · rw [takeMark?, takeMark?, closed, otherClosed]
    exact .done ⟨rfl, same.2⟩

theorem suffix_both (agree : ParsersAgree parser otherParser) (scope : List String) (target : Expr)
    (alike : TokensAlike left right) :
    Both SameParse (suffix context parser scope target left) (suffix otherContext otherParser scope target right) := by
  simp only [suffix]
  apply both_bind (identifier_both alike)
  rintro ⟨name, rest, _⟩ ⟨_, otherRest, _⟩ ⟨rfl, restAlike⟩
  dsimp only at restAlike ⊢
  rcases take_cases (.mark .openParen) restAlike with
    ⟨plain, otherPlain⟩ | ⟨⟨_, rest, _⟩, ⟨_, otherRest, _⟩, called, otherCalled, _, restAlike⟩
  · rw [takeMark?, takeMark?, plain, otherPlain]
    exact .done ⟨rfl, restAlike⟩
  · rw [takeMark?, takeMark?, called, otherCalled]
    dsimp only at restAlike ⊢
    cases Aggregate.named? name with
    | some function =>
        apply both_bind (aggregate_rest_both agree scope target function restAlike)
        rintro ⟨found, rest, _⟩ ⟨_, otherRest, _⟩ ⟨rfl, restAlike⟩
        exact .done ⟨rfl, restAlike⟩
    | none =>
        cases TextMethod.named? name with
        | none => exact .failed rfl
        | some method =>
            apply both_bind (arguments_both agree scope restAlike)
            rintro ⟨found, rest, _⟩ ⟨_, otherRest, _⟩ ⟨rfl, restAlike⟩
            dsimp only
            split
            · exact .done ⟨rfl, restAlike⟩
            · exact .failed rfl

theorem take_unary_cases (alike : TokensAlike left right) :
    (takeUnary? left = none ∧ takeUnary? right = none) ∨
      ∃ one other, takeUnary? left = some one ∧ takeUnary? right = some other ∧ SameParse one other := by
  cases alike with
  | nil => exact .inl ⟨rfl, rfl⟩
  | @cons lexeme other rest otherRest first others =>
      obtain ⟨gap, spelling, token, position⟩ := lexeme
      obtain ⟨otherGap, otherSpelling, otherToken, otherPosition⟩ := other
      obtain rfl : token = otherToken := first
      cases token with
      | mark mark =>
          cases mark with
          | bang => exact .inr ⟨_, _, rfl, rfl, rfl, others⟩
          | minus => exact .inr ⟨_, _, rfl, rfl, rfl, others⟩
          | _ => exact .inl ⟨rfl, rfl⟩
      | _ => exact .inl ⟨rfl, rfl⟩

theorem unary_both (sameFunctions : context.isFunction = otherContext.isFunction)
    (stages : StagesAgree below otherBelow) (agree : ParsersAgree parser otherParser) :
    ParsersAgree (unary context below parser) (unary otherContext otherBelow otherParser) := by
  intro scope left right alike
  simp only [unary]
  rcases take_unary_cases alike with
    ⟨plain, otherPlain⟩ | ⟨⟨op, rest, _⟩, ⟨_, otherRest, _⟩, signed, otherSigned, rfl, restAlike⟩
  · rw [plain, otherPlain]
    apply both_bind (primary_both sameFunctions agree scope alike)
    intro target otherTarget same
    exact suffixes_both stages scope same
  · rw [signed, otherSigned]
    apply both_bind (stages.unary scope restAlike)
    rintro ⟨operand, rest, _⟩ ⟨_, otherRest, _⟩ ⟨rfl, restAlike⟩
    exact .done ⟨rfl, restAlike⟩

theorem more_operands_both (stages : StagesAgree below otherBelow) (level : Level) (tighter : List Level) :
    ExtendersAgree (moreOperands below level tighter) (moreOperands otherBelow level tighter) := by
  rintro scope left right ⟨operand, rest, _⟩ ⟨_, otherRest, _⟩ ⟨rfl, restAlike⟩
  dsimp only at restAlike
  simp only [moreOperands]
  rcases take_operator_cases level restAlike with
    ⟨ended, otherEnded⟩ | ⟨⟨op, rest, _⟩, ⟨_, otherRest, _⟩, goesOn, otherGoesOn, rfl, restAlike⟩
  · rw [ended, otherEnded]
    exact .done ⟨rfl, restAlike⟩
  · rw [goesOn, otherGoesOn]
    exact stages.afterOperator level tighter op scope ⟨rfl, restAlike⟩

theorem operands_both (sameFunctions : context.isFunction = otherContext.isFunction)
    (stages : StagesAgree below otherBelow) (agree : ParsersAgree parser otherParser) (levels : List Level) :
    ParsersAgree (operands context below parser levels) (operands otherContext otherBelow otherParser levels) := by
  induction levels with
  | nil => exact unary_both sameFunctions stages agree
  | cons level tighter ih =>
      intro scope left right alike
      apply both_bind (ih scope alike)
      intro operand otherOperand same
      exact more_operands_both stages level tighter scope same

theorem coalesce_both (sameFunctions : context.isFunction = otherContext.isFunction)
    (stages : StagesAgree below otherBelow) (agree : ParsersAgree parser otherParser) :
    ParsersAgree (coalesce context below parser) (coalesce otherContext otherBelow otherParser) := by
  intro scope left right alike
  apply both_bind (operands_both sameFunctions stages agree Level.all scope alike)
  rintro ⟨operand, rest, _⟩ ⟨_, otherRest, _⟩ ⟨rfl, restAlike⟩
  dsimp only at restAlike ⊢
  rcases take_cases (.mark .coalesce) restAlike with
    ⟨ended, otherEnded⟩ | ⟨⟨_, rest, _⟩, ⟨_, otherRest, _⟩, goesOn, otherGoesOn, _, restAlike⟩
  · rw [takeMark?, takeMark?, ended, otherEnded]
    exact .done ⟨rfl, restAlike⟩
  · rw [takeMark?, takeMark?, goesOn, otherGoesOn]
    apply both_bind (stages.coalesce scope restAlike)
    rintro ⟨right, rest, _⟩ ⟨_, otherRest, _⟩ ⟨rfl, restAlike⟩
    exact .done ⟨rfl, restAlike⟩

theorem conditional_both (sameFunctions : context.isFunction = otherContext.isFunction)
    (stages : StagesAgree below otherBelow) (agree : ParsersAgree parser otherParser) :
    ParsersAgree (conditional context below parser) (conditional otherContext otherBelow otherParser) := by
  intro scope left right alike
  apply both_bind (coalesce_both sameFunctions stages agree scope alike)
  rintro ⟨test, rest, _⟩ ⟨_, otherRest, _⟩ ⟨rfl, restAlike⟩
  dsimp only at restAlike ⊢
  rcases take_cases (.mark .question) restAlike with
    ⟨ended, otherEnded⟩ | ⟨⟨_, rest, _⟩, ⟨_, otherRest, _⟩, goesOn, otherGoesOn, _, restAlike⟩
  · rw [takeMark?, takeMark?, ended, otherEnded]
    exact .done ⟨rfl, restAlike⟩
  · rw [takeMark?, takeMark?, goesOn, otherGoesOn]
    apply both_bind (agree scope restAlike)
    rintro ⟨consequent, rest, _⟩ ⟨_, otherRest, _⟩ ⟨rfl, restAlike⟩
    apply both_bind (expect_both (.mark .colon) restAlike)
    rintro ⟨_, rest, _⟩ ⟨_, otherRest, _⟩ ⟨_, restAlike⟩
    apply both_bind (agree scope restAlike)
    rintro ⟨alternative, rest, _⟩ ⟨_, otherRest, _⟩ ⟨rfl, restAlike⟩
    exact .done ⟨rfl, restAlike⟩

theorem refusing_both : StagesAgree (Stage.refusing context) (Stage.refusing otherContext) where
  expression := fun _ _ _ _ => .failed rfl
  conditional := fun _ _ _ _ => .failed rfl
  coalesce := fun _ _ _ _ => .failed rfl
  unary := fun _ _ _ _ => .failed rfl
  afterOperator := fun _ _ _ _ _ _ _ _ _ => .failed rfl
  afterDot := fun _ _ _ _ _ _ => .failed rfl

theorem above_both (sameFunctions : context.isFunction = otherContext.isFunction)
    (stages : StagesAgree below otherBelow) : StagesAgree (above context below) (above otherContext otherBelow) where
  expression := stages.conditional
  conditional := conditional_both sameFunctions stages stages.conditional
  coalesce := coalesce_both sameFunctions stages stages.conditional
  unary := unary_both sameFunctions stages stages.conditional
  afterOperator := by
    rintro level tighter op scope left right ⟨operand, rest, _⟩ ⟨_, otherRest, _⟩ ⟨rfl, restAlike⟩
    apply both_bind (operands_both sameFunctions stages stages.conditional tighter scope restAlike)
    rintro ⟨right, rest, _⟩ ⟨_, otherRest, _⟩ ⟨rfl, restAlike⟩
    exact more_operands_both stages level tighter scope ⟨rfl, restAlike⟩
  afterDot := by
    rintro scope left right ⟨target, rest, _⟩ ⟨_, otherRest, _⟩ ⟨rfl, restAlike⟩
    apply both_bind (suffix_both stages.conditional scope target restAlike)
    rintro ⟨found, rest, _⟩ ⟨_, otherRest, _⟩ ⟨rfl, restAlike⟩
    exact suffixes_both stages scope ⟨rfl, restAlike⟩

theorem stage_both (sameFunctions : context.isFunction = otherContext.isFunction) (levels : Nat) :
    StagesAgree (stage context levels) (stage otherContext levels) := by
  -- A stage reads through the stage below, which the induction gives; the lowest one refuses.
  induction levels with
  | zero => exact above_both sameFunctions refusing_both
  | succ levels ih => exact above_both sameFunctions ih

theorem expression_both (sameFunctions : context.isFunction = otherContext.isFunction) :
    ParsersAgree (expression context) (expression otherContext) :=
  (stage_both sameFunctions maxDepth).expression

end Grammar
end DocumentViews
