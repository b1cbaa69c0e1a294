import DocumentViews.Proofs.Query.Reparse

set_option autoImplicit false

namespace DocumentViews

namespace Expr

def TextReadable : Expr → Prop
  | .literal (.string content) => Lexeme.IsReadable content
  | _ => True

instance : DecidablePred TextReadable
  | .literal (.string content) => inferInstanceAs (Decidable (Lexeme.IsReadable content))
  | .literal .null | .literal (.bool _) | .literal (.number _) | .literal (.array _) | .literal (.object _) =>
    .isTrue trivial
  | .var _ | .member _ _ | .unary _ _ | .binary _ _ _ | .conditional _ _ _ | .method _ _ _ | .aggregate _ _ |
    .aggregateOf _ _ _ _ | .call _ _ | .object _ => .isTrue trivial

theorem text_readable_on_literals : OnLiterals TextReadable := by
  intro expr noLiteral
  cases expr with
  | literal => cases noLiteral
  | _ => trivial

theorem literal_reread_iff (value : Value) : value.reread = value ↔ TextReadable (.literal value) := by
  cases value with
  | string content => rw [Value.reread, Value.string.injEq, Lexeme.reread_eq_iff, TextReadable]
  | _ => exact iff_of_true rfl trivial

mutual

theorem reread_eq_iff : (expr : Expr) → (expr.reread = expr ↔ expr.Every TextReadable)
  | .literal value => by rw [reread, Expr.literal.injEq, literal_reread_iff, Every]
  | .var _ => iff_of_true rfl trivial
  | .member target _ => by
      simp only [reread, Every, TextReadable, Expr.member.injEq, reread_eq_iff target, and_true, true_and]
  | .unary _ operand => by simp only [reread, Every, TextReadable, Expr.unary.injEq, reread_eq_iff operand, true_and]
  | .binary _ left right => by
      simp only [reread, Every, TextReadable, Expr.binary.injEq, reread_eq_iff left, reread_eq_iff right, true_and]
  | .conditional test consequent alternative => by
      simp only [reread, Every, TextReadable, Expr.conditional.injEq, reread_eq_iff test, reread_eq_iff consequent,
        reread_eq_iff alternative, true_and]
  | .method target _ arguments => by
      simp only [reread, Every, TextReadable, Expr.method.injEq, reread_eq_iff target, reread_all_eq_iff arguments,
        true_and]
  | .aggregate source _ => by
      simp only [reread, Every, TextReadable, Expr.aggregate.injEq, reread_eq_iff source, and_true, true_and]
  | .aggregateOf source _ _ body => by
      simp only [reread, Every, TextReadable, Expr.aggregateOf.injEq, reread_eq_iff source, reread_eq_iff body, true_and]
  | .call _ arguments => by
      simp only [reread, Every, TextReadable, Expr.call.injEq, reread_all_eq_iff arguments, true_and]
  | .object members => by
      simp only [reread, Every, TextReadable, Expr.object.injEq, reread_members_eq_iff members, true_and]

theorem reread_all_eq_iff : (list : List Expr) → (rereadAll list = list ↔ EveryOf TextReadable list)
  | [] => iff_of_true rfl trivial
  | expr :: rest => by rw [rereadAll, EveryOf, List.cons.injEq, reread_eq_iff expr, reread_all_eq_iff rest]

theorem reread_members_eq_iff : (members : List (String × Expr)) →
    (rereadMembers members = members ↔ EveryMember TextReadable members)
  | [] => iff_of_true rfl trivial
  | (_, expr) :: rest => by
      rw [rereadMembers, EveryMember, List.cons.injEq, Prod.mk.injEq, reread_eq_iff expr, reread_members_eq_iff rest,
        eq_self, true_and]

end

theorem reread_signed (expr : Expr) : expr.reread.isSigned = expr.isSigned := by cases expr <;> rfl

mutual

theorem reread_unsigned_iff : (expr : Expr) → (expr.reread.Every SuffixesUnsigned ↔ expr.Every SuffixesUnsigned)
  | .literal _ | .var _ => Iff.rfl
  | .member target _ | .aggregate target _ => by
      simp only [reread, Every, SuffixesUnsigned, reread_signed, reread_unsigned_iff target]
  | .unary _ operand => and_congr Iff.rfl (reread_unsigned_iff operand)
  | .binary _ left right => and_congr Iff.rfl (and_congr (reread_unsigned_iff left) (reread_unsigned_iff right))
  | .conditional test consequent alternative =>
      and_congr Iff.rfl (and_congr (reread_unsigned_iff test)
        (and_congr (reread_unsigned_iff consequent) (reread_unsigned_iff alternative)))
  | .method target _ arguments => by
      simp only [reread, Every, SuffixesUnsigned, reread_signed, reread_unsigned_iff target,
        reread_all_unsigned_iff arguments]
  | .aggregateOf source _ _ body => by
      simp only [reread, Every, SuffixesUnsigned, reread_signed, reread_unsigned_iff source, reread_unsigned_iff body]
  | .call _ arguments => and_congr Iff.rfl (reread_all_unsigned_iff arguments)
  | .object members => and_congr Iff.rfl (reread_members_unsigned_iff members)

theorem reread_all_unsigned_iff : (list : List Expr) →
    (EveryOf SuffixesUnsigned (rereadAll list) ↔ EveryOf SuffixesUnsigned list)
  | [] => Iff.rfl
  | expr :: rest => and_congr (reread_unsigned_iff expr) (reread_all_unsigned_iff rest)

theorem reread_members_unsigned_iff : (members : List (String × Expr)) →
    (EveryMember SuffixesUnsigned (rereadMembers members) ↔ EveryMember SuffixesUnsigned members)
  | [] => Iff.rfl
  | (_, expr) :: rest => and_congr (reread_unsigned_iff expr) (reread_members_unsigned_iff rest)

end

end Expr

namespace Lexeme

theorem tokenize_text (content : String) :
    ∃ lexeme, tokenize (Value.string content).compact = .ok [lexeme] ∧ lexeme.token = .text (reread content) := by
  have splits := splits_scans (scans_text content []) splits_nil
  obtain ⟨lexemes, split, spelled⟩ := splits 0
  obtain ⟨lexeme, rfl, isText⟩ := List.map_eq_singleton_iff.mp spelled
  rw [List.append_nil] at split
  refine ⟨lexeme, ?_, isText⟩
  rw [tokenize, Value.compact, String.toList_ofList]
  exact split

end Lexeme

namespace Query

variable {isFunction : String → Bool}

theorem reread_unsigned {query : Query} (unsigned : query.Every Expr.SuffixesUnsigned) :
    query.reread.Every Expr.SuffixesUnsigned := (on_exprs_every_iff Expr.reread_unsigned_iff query).mpr unsigned

theorem parsed_again_text_iff {text : String} {query again : Query} (parsed : Query.parse isFunction text = .ok query)
    (reparsed : Query.parse isFunction query.text = .ok again) :
    again.text = query.text ↔ query.settled.reread = query.settled := by
  obtain ⟨_, same⟩ := (parsed_text_parsed_iff parsed).mp reparsed
  refine ⟨fun sameText => ?_, fun kept => by rw [same, kept, settled_text]⟩
  obtain ⟨_, _, _, fits⟩ := Query.parsed_derives parsed
  obtain ⟨_, _, _, againFits⟩ := Query.parsed_derives reparsed
  rw [← same]
  refine eq_of_text (Query.parsed_lexed reparsed) (settled_lexed (Query.parsed_lexed parsed)) againFits
    (settled_fits fits) ?_ query.settled_unsigned (sameText.trans query.settled_text.symm)
  rw [same]
  exact reread_unsigned query.settled_unsigned

/-- Where the canonical text of a parsed query can be parsed, what it is parsed to has the same canonical
text just when all literal texts of the query are readable: of the characters below U+0020 they have
only line feeds, carriage returns and tabs. These are the literal texts that are written so that they are
read back, whatever query they stand in. -/
theorem parsed_text_stable_iff {text : String} {query again : Query} (parsed : Query.parse isFunction text = .ok query)
    (reparsed : Query.parse isFunction query.text = .ok again) :
    (again.text = query.text ↔ query.Every Expr.TextReadable) ∧
      ∀ content, (∃ lexeme, tokenize (Expr.literal (.string content)).text = .ok [lexeme] ∧
        lexeme.token = .text content) ↔ Lexeme.IsReadable content := by
  constructor
  · rw [parsed_again_text_iff parsed reparsed, reread, on_exprs_eq_iff Expr.reread_eq_iff,
      settled_every_iff Expr.text_readable_on_literals]
  · intro content
    obtain ⟨lexeme, split, isText⟩ := Lexeme.tokenize_text content
    rw [Expr.text, split]
    simp only [Except.ok.injEq, List.cons.injEq, and_true, exists_eq_left', isText, Token.text.injEq,
      Lexeme.reread_eq_iff]

theorem parsed_text_stable_iff_escaped :
    let text := "from d in docs let t = '\\t\"\\n/\\\\' where (-d.A).B > 0.5 select new \x7b d.C, t, Q = \"'\\'\" \x7d"
    ∃ query again, Query.parse Extensions.builtins.isFunction text = .ok query ∧
      Query.parse Extensions.builtins.isFunction query.text = .ok again ∧ again.text = query.text := by
  intro text
  have accepted : (Query.parse Extensions.builtins.isFunction text).toOption.any (fun query =>
      query.Every Expr.TextReadable ∧ (Query.parse Extensions.builtins.isFunction query.text).toOption.isSome) = true := by
    decide +kernel
  obtain ⟨query, parsed, holds⟩ := ok_with_exists accepted
  obtain ⟨readable, parses⟩ := of_decide_eq_true holds
  obtain ⟨again, found⟩ := Option.isSome_iff_exists.mp parses
  have reparsed := ok_of_to_option found
  exact ⟨query, again, parsed, reparsed, (parsed_text_stable_iff parsed reparsed).1.mpr readable⟩

-- The literal `'\0'` is written as `"\u0000"`, which is read as the text `u0000`.
theorem parsed_text_unstable :
    let text := "from d in docs select '\\0'"
    ∃ query again, Query.parse Extensions.builtins.isFunction text = .ok query ∧
      Query.parse Extensions.builtins.isFunction query.text = .ok again ∧ again.text ≠ query.text := by
  intro text
  have accepted : (Query.parse Extensions.builtins.isFunction text).toOption.any (fun query =>
      (Query.parse Extensions.builtins.isFunction query.text).toOption.any (fun again => again.text ≠ query.text)) = true := by
    decide +kernel
  obtain ⟨query, parsed, holds⟩ := ok_with_exists accepted
  obtain ⟨again, reparsed, differs⟩ := ok_with_exists holds
  exact ⟨query, again, parsed, reparsed, of_decide_eq_true differs⟩

end Query
end DocumentViews
