import DocumentViews.Proofs.Query.Canonical

set_option autoImplicit false

namespace DocumentViews

def Clause.levels : Clause → Nat
  | each _ expr | define _ expr | filter expr => expr.levels

def GroupClause.levels (group : GroupClause) : Nat := max group.element.levels group.key.levels

def Query.levels (query : Query) : Nat :=
  max ((query.clauses.map Clause.levels).foldr max 0) (max ((query.group.map GroupClause.levels).getD 0) query.select.levels)

namespace Grammar

open Lexeme

variable {readable : Prop} {expr : Expr} {word : List Token} {left : List Char} {tokens : List Token}

theorem follows_line (rest : List Char) : Follows ('\n' :: rest) := follows_char '\n' rfl (by decide) rest

theorem spells_line (keyword : Keyword) (spells : Spells readable left tokens) :
    Spells readable ('\n' :: (keyword.spelling.toList ++ ' ' :: left)) (.keyword keyword :: tokens) :=
  .gap rfl (spells_keyword keyword spells)

theorem source_spells {source : Source} (lexed : ∀ collection, source = .documents (some collection) → IsName collection)
    (follows : Follows left) (spells : Spells readable left tokens) :
    Spells readable (source.text.toList ++ left) (sourceWord source ++ tokens) := by
  have docs : IsName "docs" := is_name_of (by decide) (by decide)
  have results : IsName "results" := is_name_of (by decide) (by decide)
  match source with
  | .documents none => exact spells_name docs follows.parts spells
  | .results => exact spells_name results follows.parts spells
  | .documents (some collection) =>
      obtain ⟨ends, access⟩ := spells_dot (lexed collection rfl) follows.parts spells
      have whole := spells_name docs ends.parts access
      simpa [Source.text, sourceWord] using whole

-- A line of the text: it begins with a line feed, and whatever line stands behind it.
structure Line (readable : Prop) (text : List Char) (word : List Token) : Prop where
  begins : ∃ rest, text = '\n' :: rest
  spelt : Spelt readable text word

theorem Line.follows {text : List Char} (line : Line readable text word) (left : List Char) : Follows (text ++ left) := by
  obtain ⟨rest, rfl⟩ := line.begins
  exact follows_line _

theorem expression_line (keyword : Keyword) (canonical : Canonical readable expr word) :
    Line readable ('\n' :: (keyword.spelling.toList ++ ' ' :: expr.text.toList)) (.keyword keyword :: word) := by
  refine ⟨⟨_, rfl⟩, fun follows spells => ?_⟩
  have whole := spells_line keyword (canonical.spelt follows spells)
  simpa using whole

theorem binding_line (keyword : Keyword) {name : String} (isName : IsName name) (canonical : Canonical readable expr word)
    {sign : List Char} {token : Token}
    (signSpells : ∀ {left : List Char} {tokens : List Token}, Spells readable left tokens →
      Spells readable (sign ++ ' ' :: left) (token :: tokens)) :
    Line readable ('\n' :: (keyword.spelling.toList ++ ' ' :: (name.toList ++ ' ' :: (sign ++ ' ' :: expr.text.toList))))
      (.keyword keyword :: .identifier name :: token :: word) := by
  refine ⟨⟨_, rfl⟩, fun follows spells => ?_⟩
  have bound := spells_space (signSpells (canonical.spelt follows spells))
  have whole := spells_line keyword (spells_name isName (by rintro char ⟨⟩; rfl) bound)
  simpa using whole

theorem clause_canonical {clause : Clause} (lexed : clause.Lexed) (unsigned : clause.Every Expr.SuffixesUnsigned)
    (printable : readable → clause.Every Expr.Readable) :
    ∃ word, Line readable clause.text.toList word ∧ ∀ {clauses : List Clause} {others : List Token} {cost : Nat},
      NeedsClauses clauses others cost → NeedsClauses (clause :: clauses) (word ++ others) (max clause.levels cost) := by
  cases clause with
  | each name source =>
      obtain ⟨word, canonical⟩ := canonical_exists readable source lexed.2 unsigned printable
      have line := binding_line .fromWord lexed.1 canonical (spells_keyword .inWord)
      exact ⟨_, by simpa [Clause.text, Keyword.spelling] using line, .each (expression_of_unary canonical.unary)⟩
  | define name value =>
      obtain ⟨word, canonical⟩ := canonical_exists readable value lexed.2 unsigned printable
      have line := binding_line .letWord lexed.1 canonical (spells_spaced .assign)
      exact ⟨_, by simpa [Clause.text, Keyword.spelling, Mark.spelling] using line,
        .define (expression_of_unary canonical.unary)⟩
  | filter condition =>
      obtain ⟨word, canonical⟩ := canonical_exists readable condition lexed unsigned printable
      have line := expression_line .whereWord canonical
      exact ⟨_, by simpa [Clause.text, Keyword.spelling] using line, .filter (expression_of_unary canonical.unary)⟩

theorem clauses_canonical {clauses : List Clause} (lexed : ∀ clause ∈ clauses, clause.Lexed)
    (unsigned : ∀ clause ∈ clauses, clause.Every Expr.SuffixesUnsigned)
    (printable : readable → ∀ clause ∈ clauses, clause.Every Expr.Readable) (follows : Follows left)
    (spells : Spells readable left tokens) : ∃ word, NeedsClauses clauses word ((clauses.map Clause.levels).foldr max 0) ∧
      Follows ((String.join (clauses.map Clause.text)).toList ++ left) ∧
      Spells readable ((String.join (clauses.map Clause.text)).toList ++ left) (word ++ tokens) := by
  induction clauses with
  | nil => exact ⟨[], .none, follows, spells⟩
  | cons clause clauses ih =>
      obtain ⟨clauseLexed, othersLexed⟩ := List.forall_mem_cons.mp lexed
      obtain ⟨clauseUnsigned, othersUnsigned⟩ := List.forall_mem_cons.mp unsigned
      obtain ⟨word, line, needs⟩ := clause_canonical clauseLexed clauseUnsigned fun holds =>
        (List.forall_mem_cons.mp (printable holds)).1
      obtain ⟨others, othersNeed, othersFollow, othersSpell⟩ := ih othersLexed othersUnsigned fun holds =>
        (List.forall_mem_cons.mp (printable holds)).2
      rw [List.map_cons, List.map_cons, List.foldr_cons, String.join_cons, String.toList_append, List.append_assoc]
      refine ⟨_, needs othersNeed, line.follows _, ?_⟩
      rw [List.append_assoc]
      exact line.spelt othersFollow othersSpell

def groupText : Option GroupClause → String
  | some group => group.text
  | none => ""

theorem group_canonical {clause : Option GroupClause} (lexed : ∀ group ∈ clause, group.Lexed)
    (unsigned : ∀ group ∈ clause, group.Every Expr.SuffixesUnsigned)
    (printable : readable → ∀ group ∈ clause, group.Every Expr.Readable) (follows : Follows left)
    (spells : Spells readable left tokens) : ∃ word, NeedsGroup clause word ((clause.map GroupClause.levels).getD 0) ∧
      Follows ((groupText clause).toList ++ left) ∧
      Spells readable ((groupText clause).toList ++ left) (word ++ tokens) := by
  cases clause with
  | none => exact ⟨[], .none, follows, spells⟩
  | some group =>
      obtain ⟨element, key, into⟩ := group
      have groupLexed := lexed _ rfl
      obtain ⟨elementUnsigned, keyUnsigned⟩ := unsigned _ rfl
      obtain ⟨first, elementCanonical⟩ := canonical_exists readable element groupLexed.exprs.1 elementUnsigned
        fun holds => (printable holds _ rfl).1
      obtain ⟨second, keyCanonical⟩ := canonical_exists readable key groupLexed.exprs.2 keyUnsigned
        fun holds => (printable holds _ rfl).2
      refine ⟨_, .group (expression_of_unary elementCanonical.unary) (expression_of_unary keyCanonical.unary), ?_, ?_⟩
      · simpa [groupText, GroupClause.text] using follows_line _
      · have into := spells_space (spells_keyword .intoWord (spells_name groupLexed.into follows.parts spells))
        have keyed := keyCanonical.spelt (follows_char ' ' rfl (by decide) _) into
        have separated := spells_space (spells_keyword .byWord keyed)
        have whole := spells_line .groupWord (elementCanonical.spelt (follows_char ' ' rfl (by decide) _) separated)
        simpa [groupText, GroupClause.text, Keyword.spelling] using whole

theorem query_needed {query : Query} (lexed : query.Lexed) (unsigned : query.Every Expr.SuffixesUnsigned)
    (printable : readable → query.Every Expr.Readable) :
    ∃ word, NeedsQuery query word query.levels ∧ Spells readable query.text.toList word := by
  obtain ⟨range, source, clauses, group, select⟩ := query
  obtain ⟨third, selectCanonical⟩ := canonical_exists readable select lexed.select unsigned.select
    fun holds => (printable holds).select
  have selectLine := expression_line .selectWord selectCanonical
  have selectSpells := selectLine.spelt follows_nil .done
  obtain ⟨second, groupNeeds, groupFollows, groupSpells⟩ := group_canonical lexed.group unsigned.group
    (fun holds => (printable holds).group) (selectLine.follows []) selectSpells
  obtain ⟨first, clausesNeed, clausesFollow, clausesSpell⟩ := clauses_canonical lexed.clauses unsigned.clauses
    (fun holds => (printable holds).clauses) groupFollows groupSpells
  have sourceSpells := source_spells lexed.source clausesFollow clausesSpell
  have inSpells := spells_space (spells_keyword .inWord sourceSpells)
  have whole := spells_keyword .fromWord (spells_name lexed.range (by rintro char ⟨⟩; rfl) inSpells)
  refine ⟨_, .query clausesNeed groupNeeds (expression_of_unary selectCanonical.unary), ?_⟩
  cases group <;> simpa [Query.text, groupText, Keyword.spelling] using whole

theorem query_canonical {query : Query} (lexed : query.Lexed) (unsigned : query.Every Expr.SuffixesUnsigned)
    (printable : readable → query.Every Expr.Readable) :
    ∃ word, DerivesQuery query word ∧ Spells readable query.text.toList word := by
  obtain ⟨word, needs, spells⟩ := query_needed lexed unsigned printable
  exact ⟨word, needs.derives, spells⟩

end Grammar

end DocumentViews
