import DocumentViews.Proofs.Query.CanonicalQuery
import DocumentViews.Proofs.Query.QueryCompleteness
import DocumentViews.Proofs.Query.Splitting

set_option autoImplicit false

namespace DocumentViews

/-- The canonical text of a parsed query is parsed to that query again, or refused for nesting, when no
suffix stands directly behind a sign, the literal texts have no control characters but LF, CR and TAB and
the literal numbers are written without an exponent. -/
theorem Query.parsed_text_reads_back {isFunction : String → Bool} {text : String} {query : Query}
    (parsed : Query.parse isFunction text = .ok query) (unsigned : query.Every Expr.SuffixesUnsigned)
    (readable : query.Every Expr.Readable) :
    Query.parse isFunction query.text = .ok query ∨
      ∃ position, Query.parse isFunction query.text = .error ⟨.nestedTooDeeply, position⟩ := by
  obtain ⟨_, _, _, fits⟩ := Query.parsed_derives parsed
  have lexed := Query.parsed_lexed parsed
  obtain ⟨word, derived, spells⟩ := Grammar.query_canonical lexed unsigned fun _ : True => readable
  obtain ⟨lexemes, split, rfl⟩ := Lexeme.spells_splits trivial spells 0
  exact Query.parse_comes split derived fits

theorem Query.parsed_text_reads_back_nested : ∃ query,
    Query.parse Extensions.builtins.isFunction
      "from d in docs.Users let n = -d.A where (d.N ?? 1.5) > 2 select new \x7b d.B, T = d.L.Any(x => x == 'a\\nb') \x7d" =
        .ok query ∧
    (Query.parse Extensions.builtins.isFunction query.text = .ok query ∨
      ∃ position, Query.parse Extensions.builtins.isFunction query.text = .error ⟨.nestedTooDeeply, position⟩) := by
  have accepted : (Query.parse Extensions.builtins.isFunction
      "from d in docs.Users let n = -d.A where (d.N ?? 1.5) > 2 select new \x7b d.B, T = d.L.Any(x => x == 'a\\nb') \x7d").toOption.any
        (fun query => query.Every Expr.SuffixesUnsigned ∧ query.Every Expr.Readable) = true := by decide +kernel
  obtain ⟨query, parsed, holds⟩ := ok_with_exists accepted
  obtain ⟨unsigned, readable⟩ := of_decide_eq_true holds
  exact ⟨query, parsed, Query.parsed_text_reads_back parsed unsigned readable⟩

end DocumentViews
