import DocumentViews.Proofs.Query.Agreement
import DocumentViews.Proofs.Query.Lexed

set_option autoImplicit false

namespace DocumentViews

namespace Grammar

variable {left right : List Lexeme} {context otherContext : Context}

theorem source_both (alike : TokensAlike left right) :
    Both SameParse (source context left) (source otherContext right) := by
  simp only [source]
  apply both_bind (identifier_both alike)
  rintro ⟨name, rest, _⟩ ⟨_, otherRest, _⟩ ⟨rfl, restAlike⟩
  dsimp only at restAlike ⊢
  split
  · rcases take_cases (.mark .dot) restAlike with
      ⟨plain, otherPlain⟩ | ⟨⟨_, rest, _⟩, ⟨_, otherRest, _⟩, goesOn, otherGoesOn, _, restAlike⟩
    · rw [takeMark?, takeMark?, plain, otherPlain]
      exact .done ⟨rfl, restAlike⟩
    · rw [takeMark?, takeMark?, goesOn, otherGoesOn]
      apply both_bind (identifier_both restAlike)
      rintro ⟨collection, rest, _⟩ ⟨_, otherRest, _⟩ ⟨rfl, restAlike⟩
      exact .done ⟨rfl, restAlike⟩
  · split
    · exact .done ⟨rfl, restAlike⟩
    · exact .failed rfl

theorem definition_both (sameFunctions : context.isFunction = otherContext.isFunction) (scope : List String)
    (sign : Token) (alike : TokensAlike left right) :
    Both SameParse (definition context scope sign left) (definition otherContext scope sign right) := by
  simp only [definition]
  apply both_bind (identifier_both alike)
  rintro ⟨name, rest, _⟩ ⟨_, otherRest, _⟩ ⟨rfl, restAlike⟩
  apply both_bind (expect_both sign restAlike)
  rintro ⟨_, rest, _⟩ ⟨_, otherRest, _⟩ ⟨_, restAlike⟩
  apply both_bind (expression_both sameFunctions scope restAlike)
  rintro ⟨value, rest, _⟩ ⟨_, otherRest, _⟩ ⟨rfl, restAlike⟩
  dsimp only
  split
  · exact .failed rfl
  · exact .done ⟨rfl, restAlike⟩

def SameClause (one : Option (Parsed left (Clause × List String)))
    (other : Option (Parsed right (Clause × List String))) : Prop :=
  (one = none ∧ other = none) ∨
    ∃ found otherFound, one = some found ∧ other = some otherFound ∧ SameParse found otherFound

theorem clause_both (sameFunctions : context.isFunction = otherContext.isFunction) (scope : List String)
    (alike : TokensAlike left right) :
    Both SameClause (clause? context scope left) (clause? otherContext scope right) := by
  simp only [clause?, takeKeyword?]
  rcases take_cases (.keyword .fromWord) alike with
    ⟨noFrom, otherNoFrom⟩ | ⟨⟨_, rest, _⟩, ⟨_, otherRest, _⟩, begins, otherBegins, _, restAlike⟩
  · rw [noFrom, otherNoFrom]
    rcases take_cases (.keyword .letWord) alike with
      ⟨noLet, otherNoLet⟩ | ⟨⟨_, rest, _⟩, ⟨_, otherRest, _⟩, begins, otherBegins, _, restAlike⟩
    · rw [noLet, otherNoLet]
      rcases take_cases (.keyword .whereWord) alike with
        ⟨noWhere, otherNoWhere⟩ | ⟨⟨_, rest, _⟩, ⟨_, otherRest, _⟩, begins, otherBegins, _, restAlike⟩
      · rw [noWhere, otherNoWhere]
        exact .done (.inl ⟨rfl, rfl⟩)
      · rw [begins, otherBegins]
        apply both_bind (expression_both sameFunctions scope restAlike)
        rintro ⟨condition, rest, _⟩ ⟨_, otherRest, _⟩ ⟨rfl, restAlike⟩
        exact .done (.inr ⟨_, _, rfl, rfl, rfl, restAlike⟩)
    · rw [begins, otherBegins]
      apply both_bind (definition_both sameFunctions scope (.mark .assign) restAlike)
      rintro ⟨⟨name, value⟩, rest, _⟩ ⟨_, otherRest, _⟩ ⟨rfl, restAlike⟩
      exact .done (.inr ⟨_, _, rfl, rfl, rfl, restAlike⟩)
  · rw [begins, otherBegins]
    apply both_bind (definition_both sameFunctions scope (.keyword .inWord) restAlike)
    rintro ⟨⟨name, list⟩, rest, _⟩ ⟨_, otherRest, _⟩ ⟨rfl, restAlike⟩
    exact .done (.inr ⟨_, _, rfl, rfl, rfl, restAlike⟩)

def SamePart {part : Type} (one other : part × List String × List Lexeme) : Prop :=
  one.1 = other.1 ∧ one.2.1 = other.2.1 ∧ TokensAlike one.2.2 other.2.2

theorem clauses_both (sameFunctions : context.isFunction = otherContext.isFunction) (scope : List String)
    (alike : TokensAlike left right) :
    Both SamePart (clauses context scope left) (clauses otherContext scope right) := by
  induction size : left.length using Nat.strongRecOn generalizing scope left right with
  | ind size ih =>
      rw [clauses, clauses]
      apply both_bind (clause_both sameFunctions scope alike)
      rintro one other (⟨rfl, rfl⟩ | ⟨⟨⟨clause, inner⟩, rest, shorter⟩, ⟨_, otherRest, _⟩, rfl, rfl, rfl, restAlike⟩)
      · exact .done ⟨rfl, rfl, alike⟩
      · apply both_bind (ih rest.length (by omega) inner restAlike rfl)
        rintro ⟨others, scope, rest⟩ ⟨_, _, otherRest⟩ ⟨rfl, rfl, restAlike⟩
        exact .done ⟨rfl, rfl, restAlike⟩

theorem group_both (sameFunctions : context.isFunction = otherContext.isFunction) (scope : List String)
    (alike : TokensAlike left right) : Both SamePart (group context scope left) (group otherContext scope right) := by
  simp only [group, takeKeyword?]
  rcases take_cases (.keyword .groupWord) alike with
    ⟨plain, otherPlain⟩ | ⟨⟨_, rest, _⟩, ⟨_, otherRest, _⟩, begins, otherBegins, _, restAlike⟩
  · rw [plain, otherPlain]
    exact .done ⟨rfl, rfl, alike⟩
  · rw [begins, otherBegins]
    apply both_bind (expression_both sameFunctions scope restAlike)
    rintro ⟨element, rest, _⟩ ⟨_, otherRest, _⟩ ⟨rfl, restAlike⟩
    apply both_bind (expect_both (.keyword .byWord) restAlike)
    rintro ⟨_, rest, _⟩ ⟨_, otherRest, _⟩ ⟨_, restAlike⟩
    apply both_bind (expression_both sameFunctions scope restAlike)
    rintro ⟨key, rest, _⟩ ⟨_, otherRest, _⟩ ⟨rfl, restAlike⟩
    apply both_bind (expect_both (.keyword .intoWord) restAlike)
    rintro ⟨_, rest, _⟩ ⟨_, otherRest, _⟩ ⟨_, restAlike⟩
    apply both_bind (identifier_both restAlike)
    rintro ⟨name, rest, _⟩ ⟨_, otherRest, _⟩ ⟨rfl, restAlike⟩
    exact .done ⟨rfl, rfl, restAlike⟩

theorem query_both (sameFunctions : context.isFunction = otherContext.isFunction) (alike : TokensAlike left right) :
    Both (fun one other => one.1 = other.1 ∧ TokensAlike one.2 other.2) (query context left)
      (query otherContext right) := by
  simp only [query, expectKeyword]
  apply both_bind (expect_both (.keyword .fromWord) alike)
  rintro ⟨_, rest, _⟩ ⟨_, otherRest, _⟩ ⟨_, restAlike⟩
  apply both_bind (identifier_both restAlike)
  rintro ⟨range, rest, _⟩ ⟨_, otherRest, _⟩ ⟨rfl, restAlike⟩
  apply both_bind (expect_both (.keyword .inWord) restAlike)
  rintro ⟨_, rest, _⟩ ⟨_, otherRest, _⟩ ⟨_, restAlike⟩
  apply both_bind (source_both restAlike)
  rintro ⟨source, rest, _⟩ ⟨_, otherRest, _⟩ ⟨rfl, restAlike⟩
  apply both_bind (clauses_both sameFunctions [range] restAlike)
  rintro ⟨clauses, scope, rest⟩ ⟨_, _, otherRest⟩ ⟨rfl, rfl, restAlike⟩
  apply both_bind (group_both sameFunctions scope restAlike)
  rintro ⟨group, scope, rest⟩ ⟨_, _, otherRest⟩ ⟨rfl, rfl, restAlike⟩
  apply both_bind (expect_both (.keyword .selectWord) restAlike)
  rintro ⟨_, rest, _⟩ ⟨_, otherRest, _⟩ ⟨_, restAlike⟩
  apply both_bind (expression_both sameFunctions scope restAlike)
  rintro ⟨select, rest, _⟩ ⟨_, otherRest, _⟩ ⟨rfl, restAlike⟩
  exact .done ⟨rfl, restAlike⟩

end Grammar

open Grammar

theorem Query.parse_ok_iff {isFunction : String → Bool} {text : String} {found : Query} :
    Query.parse isFunction text = .ok found ↔
      ∃ tokens, tokenize text = .ok tokens ∧ tokens ≠ [] ∧
        query ⟨isFunction, text.utf8ByteSize⟩ tokens = .ok (found, []) := by
  constructor
  · intro parsed
    obtain ⟨tokens, split, parsed⟩ := bind_ok parsed
    cases tokens with
    | nil => cases parsed
    | cons lexeme others =>
        obtain ⟨⟨read, rest⟩, parsed, ended⟩ := bind_ok parsed
        cases rest with
        | cons => cases ended
        | nil =>
            cases ended
            exact ⟨_, split, List.cons_ne_nil _ _, parsed⟩
  · rintro ⟨tokens, split, present, parsed⟩
    cases tokens with
    | nil => exact absurd rfl present
    | cons lexeme others =>
        simp only [Query.parse]
        rw [split]
        exact bind_of_ok _ parsed

def TextsAlike (one other : String) : Prop :=
  one = other ∨ ∃ left right, tokenize one = .ok left ∧ tokenize other = .ok right ∧ TokensAlike left right

theorem same_tokens_iff {one other : String} : sameTokens one other = true ↔ TextsAlike one other := by
  simp only [sameTokens, TextsAlike, Bool.or_eq_true, beq_iff_eq]
  refine or_congr_right ?_
  split
  next left right tokens otherTokens =>
    have same_iff : ∀ pair ∈ left.zip right, pair.1.token.same pair.2.token = true ↔ pair.1.token = pair.2.token :=
      fun pair member => Token.same_iff_of_lexed (Lexeme.lexemes_lexed tokens _ (List.of_mem_zip member).1)
        (Lexeme.lexemes_lexed otherTokens _ (List.of_mem_zip member).2)
    simp only [tokens, otherTokens, Except.ok.injEq, exists_and_left, exists_eq_left', Bool.and_eq_true, beq_iff_eq,
      List.all_eq_true]
    rw [TokensAlike, List.forall₂_iff_zip]
    refine and_congr_right fun _ => ⟨fun pairs one other member => ?_, fun pairs pair member => ?_⟩
    · exact (same_iff _ member).mp (pairs _ member)
    · exact (same_iff pair member).mpr (pairs member)
  next unsplit =>
    refine ⟨fun impossible => (nomatch impossible), ?_⟩
    rintro ⟨left, right, tokens, otherTokens, _⟩
    exact absurd otherTokens (unsplit left right tokens)

theorem texts_alike_trans {one other third : String} (first : TextsAlike one other) (second : TextsAlike other third) :
    TextsAlike one third := by
  rcases first with rfl | ⟨left, middle, tokens, middleTokens, alike⟩
  · exact second
  · rcases second with rfl | ⟨again, right, tokensAgain, otherTokens, othersAlike⟩
    · exact .inr ⟨left, middle, tokens, middleTokens, alike⟩
    · cases middleTokens.symm.trans tokensAgain
      exact .inr ⟨left, right, tokens, otherTokens,
        tokens_alike_iff.mpr ((tokens_alike_iff.mp alike).trans (tokens_alike_iff.mp othersAlike))⟩

variable {one other : String}

theorem Query.parse_both (isFunction : String → Bool) (alike : TextsAlike one other) :
    Both Eq (Query.parse isFunction one) (Query.parse isFunction other) := by
  rcases alike with rfl | ⟨left, right, tokens, otherTokens, alike⟩
  · cases Query.parse isFunction one with
    | error error => exact .failed rfl
    | ok found => exact .done rfl
  · have split : Both TokensAlike (tokenize one) (tokenize other) := by
      rw [tokens, otherTokens]
      exact .done alike
    apply both_bind split
    intro left right alike
    cases alike with
    | nil => exact .failed rfl
    | cons first others =>
        have sameFunctions : (Context.mk isFunction one.utf8ByteSize).isFunction =
            (Context.mk isFunction other.utf8ByteSize).isFunction := rfl
        apply both_bind (query_both sameFunctions (.cons first others))
        rintro ⟨query, rest⟩ ⟨_, otherRest⟩ ⟨rfl, restAlike⟩
        cases restAlike with
        | nil => exact .done rfl
        | cons first _ => exact .failed (congrArg QueryFault.afterSelect first)

theorem Query.parse_alike {isFunction : String → Bool} {found : Query} (alike : TextsAlike one other)
    (parsed : Query.parse isFunction one = .ok found) : Query.parse isFunction other = .ok found := by
  have both := Query.parse_both isFunction alike
  rw [parsed] at both
  generalize Query.parse isFunction other = result at both ⊢
  cases both with
  | done same => rw [same]

/-- Texts with the same tokens are parsed to the same query, or both are refused over the same fault, whose message
says nothing of the place. -/
theorem Query.parse_same_tokens (isFunction : String → Bool) (same : sameTokens one other = true) :
    (∃ query, Query.parse isFunction one = .ok query ∧ Query.parse isFunction other = .ok query) ∨
      ∃ error otherError, Query.parse isFunction one = .error error ∧
        Query.parse isFunction other = .error otherError ∧ error.fault = otherError.fault := by
  have both := Query.parse_both isFunction (same_tokens_iff.mp same)
  generalize Query.parse isFunction one = left, Query.parse isFunction other = right at both ⊢
  cases both with
  | @failed error otherError same => exact .inr ⟨error, otherError, rfl, rfl, same⟩
  | @done query otherQuery same => exact .inl ⟨query, rfl, congrArg Except.ok same.symm⟩

-- Both have a number too many, but it stands at another place in each.
theorem Query.parse_same_tokens_spaced :
    let one := "from d in docs select d.X + 'a' 1.50"
    let other := "from d in docs // all of them\nselect d . X+\"a\"1.5"
    sameTokens one other = true ∧
      ((∃ query, Query.parse Extensions.builtins.isFunction one = .ok query ∧
          Query.parse Extensions.builtins.isFunction other = .ok query) ∨
        ∃ error otherError, Query.parse Extensions.builtins.isFunction one = .error error ∧
          Query.parse Extensions.builtins.isFunction other = .error otherError ∧ error.fault = otherError.fault) := by
  intro one other
  have same : sameTokens one other = true := by decide +kernel
  exact ⟨same, Query.parse_same_tokens _ same⟩

end DocumentViews
