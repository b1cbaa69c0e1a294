import Mathlib.Data.List.TakeWhile
import DocumentViews.Proofs.Compile
import DocumentViews.Proofs.Number.Spelled

set_option autoImplicit false

namespace DocumentViews

structure IsName (name : String) : Prop where
  begins : ∃ first rest, name.toList = first :: rest ∧ Lexeme.isNameStart first = true ∧
    ∀ char ∈ rest, Lexeme.isNamePart char = true
  free : Keyword.named? name = none

def startsName : List Char → Bool
  | [] => false
  | first :: rest => Lexeme.isNameStart first && rest.all Lexeme.isNamePart

theorem name_begins {name : String} (spelt : startsName name.toList = true) :
    ∃ first rest, name.toList = first :: rest ∧ Lexeme.isNameStart first = true ∧
      ∀ char ∈ rest, Lexeme.isNamePart char = true := by
  cases chars : name.toList with
  | nil =>
      rw [chars] at spelt
      cases spelt
  | cons first rest =>
      rw [chars, startsName, Bool.and_eq_true, List.all_eq_true] at spelt
      exact ⟨first, rest, rfl, spelt⟩

theorem is_name_of {name : String} (spelt : startsName name.toList = true) (free : Keyword.named? name = none) :
    IsName name := ⟨name_begins spelt, free⟩

def Token.Lexed : Token → Prop
  | .identifier name => IsName name
  | .number value => ∃ numerator denominator, value = Dyadic.nearest false numerator denominator
  | _ => True

theorem Token.same_iff_of_lexed {one other : Token} (lexed : one.Lexed) (otherLexed : other.Lexed) :
    one.same other = true ↔ one = other := by
  cases one with
  | number value =>
      obtain ⟨numerator, denominator, rfl⟩ := lexed
      cases other with
      | number otherValue =>
          obtain ⟨otherNumerator, otherDenominator, rfl⟩ := otherLexed
          rw [Token.same, nearest_equal_iff, Token.number.injEq]
      | _ => simp [Token.same]
  | _ => cases other <;> simp [Token.same]

namespace Lexeme

inductive Inside (quote : Char) : List Char → List Char → Prop
  | done : Inside quote [] []
  | escape {char : Char} {content spelling : List Char} : char ≠ '\n' → Inside quote content spelling →
      Inside quote (unescape char :: content) ('\\' :: char :: spelling)
  | plain {char : Char} {content spelling : List Char} : char ≠ quote → char ≠ '\\' → Inside quote content spelling →
      Inside quote (char :: content) (char :: spelling)

end Lexeme

inductive Token.Spelt : Token → List Char → Prop
  | keyword (word : Keyword) : Spelt (.keyword word) word.spelling.toList
  | identifier {name : String} : IsName name → Spelt (.identifier name) name.toList
  | number {whole fraction : List Char} : whole ≠ [] → (∀ char ∈ whole ++ fraction, char.isDigit = true) →
      Spelt (.number (Lexeme.numberOf whole fraction)) (whole ++ DecimalNumeral.fractionChars fraction)
  | text {quote : Char} {content spelling : List Char} : quote = '"' ∨ quote = '\'' →
      Lexeme.Inside quote content spelling → Spelt (.text (String.ofList content)) (quote :: (spelling ++ [quote]))
  | mark (mark : Mark) : Spelt (.mark mark) mark.spelling

theorem Token.Spelt.lexed {token : Token} {spelling : List Char} (spelt : token.Spelt spelling) : token.Lexed := by
  cases spelt with
  | identifier isName => exact isName
  | number => exact ⟨_, _, rfl⟩
  | keyword | text | mark => trivial

theorem Token.Spelt.present {token : Token} {spelling : List Char} (spelt : token.Spelt spelling) : spelling ≠ [] := by
  cases spelt with
  | keyword word => cases word <;> decide
  | identifier isName =>
      obtain ⟨first, rest, chars, _⟩ := isName.begins
      rw [chars]
      exact List.cons_ne_nil _ _
  | number present => exact List.append_ne_nil_of_left_ne_nil present _
  | text => exact List.cons_ne_nil _ _
  | mark mark => cases mark <;> exact List.cons_ne_nil _ _

theorem keyword_of_named {name : String} {word : Keyword} (known : Keyword.named? name = some word) :
    word.spelling = name := by
  simpa using List.find?_some known

namespace Lexeme

theorem quoted_inside {quote : Char} {text content spelling left : List Char}
    (reads : quoted quote text = .ok ((content, spelling), left)) :
    ∃ inner, spelling = inner ++ [quote] ∧ text = spelling ++ left ∧ Inside quote content inner := by
  fun_induction quoted quote text generalizing content spelling left with
  | case1 => cases reads
  | case2 => cases reads
  | case3 char rest noBreak innerContent innerSpelling text isRead ih =>
      cases reads
      obtain ⟨inner, rfl, rfl, inside⟩ := ih isRead
      exact ⟨_, rfl, rfl, .escape noBreak inside⟩
  | case4 => cases reads
  | case5 char rest =>
      cases reads
      exact ⟨[], rfl, rfl, .done⟩
  | case6 => cases reads
  | case7 char rest _ noQuote noBackslash innerContent innerSpelling text isRead ih =>
      cases reads
      obtain ⟨inner, rfl, rfl, inside⟩ := ih isRead
      exact ⟨_, rfl, rfl, .plain noQuote noBackslash inside⟩
  | case8 => cases reads

theorem keyword_spelling {spelling : List Char} {word : Keyword} (known : Keyword.named? (String.ofList spelling) = some word) :
    Token.Spelt (.keyword word) spelling := by
  have spelt := Token.Spelt.keyword word
  rwa [keyword_of_named known, String.toList_ofList] at spelt

theorem identifier_spelling {spelling : List Char} (isName : IsName (String.ofList spelling)) :
    Token.Spelt (.identifier (String.ofList spelling)) spelling := by
  have spelt := Token.Spelt.identifier isName
  rwa [String.toList_ofList] at spelt

theorem digits_spelling {first : Char} {rest fraction : List Char} (isDigit : first.isDigit = true)
    (areDigits : ∀ char ∈ fraction, char.isDigit = true)
    (front : DecimalNumeral.fractionChars fraction <+: rest.dropWhile Char.isDigit) :
    Token.Spelt (.number (numberOf (first :: rest.takeWhile Char.isDigit) fraction))
        (first :: rest.takeWhile Char.isDigit ++ DecimalNumeral.fractionChars fraction) ∧
      first :: rest.takeWhile Char.isDigit ++ DecimalNumeral.fractionChars fraction <+: first :: rest := by
  have whole : ∀ char ∈ first :: rest.takeWhile Char.isDigit, char.isDigit = true :=
    List.forall_mem_cons.mpr ⟨isDigit, fun _ => List.mem_takeWhile_imp⟩
  refine ⟨.number (List.cons_ne_nil _ _) (List.forall_mem_append.mpr ⟨whole, areDigits⟩), ?_⟩
  obtain ⟨left, split⟩ := front
  refine ⟨left, ?_⟩
  rw [List.append_assoc, split, List.cons_append, List.takeWhile_append_dropWhile]

theorem fraction_written (whole fraction : List Char) :
    (if fraction.isEmpty then whole else whole ++ '.' :: fraction) = whole ++ DecimalNumeral.fractionChars fraction := by
  cases fraction with
  | nil => exact (List.append_nil whole).symm
  | cons => rfl

theorem number_spelling {first : Char} {rest spelling : List Char} {token : Token} (noName : ¬ isNameStart first = true)
    (isDigit : first.isDigit = true) (scanned : scan first rest = .ok (token, spelling)) :
    token.Spelt spelling ∧ spelling <+: first :: rest := by
  rw [scan, if_neg noName, if_pos isDigit] at scanned
  obtain ⟨rfl, rfl⟩ := Prod.mk.inj (Except.ok.inj scanned)
  rw [fraction_written]
  split
  next more point =>
    refine digits_spelling isDigit (fun _ => List.mem_takeWhile_imp) ?_
    rw [point]
    have digits : more.takeWhile Char.isDigit <+: more := List.takeWhile_prefix _
    generalize more.takeWhile Char.isDigit = fraction at digits
    cases fraction with
    | nil => exact List.nil_prefix
    | cons => exact List.cons_prefix_cons.mpr ⟨rfl, digits⟩
  next => exact digits_spelling isDigit (List.forall_mem_nil _) List.nil_prefix

theorem scan_spelt {first : Char} {rest spelling : List Char} {token : Token}
    (scanned : scan first rest = .ok (token, spelling)) : token.Spelt spelling ∧ spelling <+: first :: rest := by
  by_cases starts : isNameStart first = true
  · have front : first :: rest.takeWhile isNamePart <+: first :: rest :=
      List.cons_prefix_cons.mpr ⟨rfl, List.takeWhile_prefix _⟩
    rw [scan, if_pos starts] at scanned
    dsimp only at scanned
    split at scanned
    next word known =>
      cases scanned
      exact ⟨keyword_spelling known, front⟩
    next free =>
      cases scanned
      have parts : ∀ char ∈ rest.takeWhile isNamePart, isNamePart char = true := fun _ => List.mem_takeWhile_imp
      exact ⟨identifier_spelling ⟨⟨first, _, String.toList_ofList, starts, parts⟩, free⟩, front⟩
  by_cases isDigit : first.isDigit = true
  · exact number_spelling starts isDigit scanned
  rw [scan, if_neg starts, if_neg isDigit] at scanned
  split at scanned
  next isQuote =>
    split at scanned
    next content spelled left isRead =>
      cases scanned
      obtain ⟨inner, rfl, rfl, inside⟩ := quoted_inside isRead
      exact ⟨.text isQuote inside, List.prefix_append (first :: (inner ++ [first])) left⟩
    next => cases scanned
  next =>
    split at scanned
    next mark found =>
      cases scanned
      have fits : mark.spelling.isPrefixOf (first :: rest) = true := by simpa using List.find?_some found
      exact ⟨.mark mark, List.isPrefixOf_iff_prefix.mp fits⟩
    next => cases scanned

-- Blanks and comments. The last comment of a text need not be closed by the end of its line.
inductive Spacing (last : Prop) : List Char → Prop
  | none : Spacing last []
  | blank {char : Char} {rest : List Char} : isGap char = true → Spacing last rest → Spacing last (char :: rest)
  | comment {body rest : List Char} : '\n' ∉ body → Spacing last rest →
      Spacing last ('/' :: '/' :: (body ++ '\n' :: rest))
  | unclosed {body : List Char} : last → '\n' ∉ body → Spacing last ('/' :: '/' :: body)

theorem gap_cases {char : Char} (blank : isGap char = true) :
    char = ' ' ∨ char = '\t' ∨ char = '\r' ∨ char = '\n' ∨ char = '\x0c' := by
  simpa [isGap, or_assoc] using blank

theorem slash_no_gap {char : Char} (blank : isGap char = true) : (char == '/') = false := by
  refine Bool.eq_false_iff.mpr fun slash => ?_
  rw [beq_iff_eq.mp slash] at blank
  cases blank

theorem comment_cases {last : Prop} {gap : List Char} (spacing : Spacing last ('/' :: '/' :: gap)) :
    (∃ body rest, '\n' ∉ body ∧ gap = body ++ '\n' :: rest ∧ Spacing last rest) ∨ (last ∧ '\n' ∉ gap) := by
  generalize same : '/' :: '/' :: gap = whole at spacing
  cases spacing with
  | none => cases same
  | blank blank =>
      obtain ⟨rfl, _⟩ := List.cons.inj same
      cases blank
  | comment noBreak spacing => exact .inl ⟨_, _, noBreak, (List.cons.inj (List.cons.inj same).2).2, spacing⟩
  | unclosed isLast noBreak => exact .inr ⟨isLast, (List.cons.inj (List.cons.inj same).2).2 ▸ noBreak⟩

theorem spacing_inside_iff {last : Prop} {char : Char} {gap : List Char} (inside : char ≠ '\n') :
    Spacing last ('/' :: '/' :: char :: gap) ↔ Spacing last ('/' :: '/' :: gap) := by
  constructor
  · intro spacing
    rcases comment_cases spacing with ⟨body, rest, noBreak, same, behind⟩ | ⟨isLast, noBreak⟩
    · cases body with
      | nil => exact absurd (List.cons.inj same).1 inside
      | cons other body =>
          rw [(List.cons.inj same).2]
          exact .comment (List.not_mem_of_not_mem_cons noBreak) behind
    · exact .unclosed isLast (List.not_mem_of_not_mem_cons noBreak)
  · intro spacing
    rcases comment_cases spacing with ⟨body, rest, noBreak, rfl, behind⟩ | ⟨isLast, noBreak⟩
    · exact .comment (List.not_mem_cons_of_ne_of_not_mem inside.symm noBreak) behind
    · exact .unclosed isLast (List.not_mem_cons_of_ne_of_not_mem inside.symm noBreak)

-- Within a comment its two slashes stand before the gap.
def opening (inComment : Bool) : List Char := if inComment then ['/', '/'] else []

theorem split_gap_spaced (inComment : Bool) (text : List Char) :
    (splitGap inComment text).1 ++ (splitGap inComment text).2 = text ∧
      Spacing ((splitGap inComment text).2 = []) (opening inComment ++ (splitGap inComment text).1) := by
  induction text generalizing inComment with
  | nil =>
      cases inComment with
      | true => exact ⟨rfl, .unclosed rfl List.not_mem_nil⟩
      | false => exact ⟨rfl, .none⟩
  | cons char rest ih =>
      obtain ⟨inside, insideSpacing⟩ := ih true
      obtain ⟨outside, outsideSpacing⟩ := ih false
      cases inComment with
      | true =>
          by_cases isBreak : char = '\n'
          · subst isBreak
            exact ⟨congrArg ('\n' :: ·) outside, .comment List.not_mem_nil outsideSpacing⟩
          · have goesOn : (char != '\n') = true := by simpa using isBreak
            simp only [splitGap, if_true, goesOn, List.cons_append]
            exact ⟨congrArg (char :: ·) inside, (spacing_inside_iff isBreak).mpr insideSpacing⟩
      | false =>
          by_cases blank : isGap char = true
          · simp only [splitGap, blank, slash_no_gap blank, Bool.true_or, Bool.false_eq_true, if_true, if_false,
              List.cons_append]
            exact ⟨congrArg (char :: ·) outside, .blank blank outsideSpacing⟩
          · by_cases opens : char = '/' ∧ rest.head? = some '/'
            · obtain ⟨rfl, next⟩ := opens
              obtain ⟨more, rfl⟩ := List.head?_eq_some_iff.mp next
              exact ⟨congrArg ('/' :: ·) inside, (spacing_inside_iff (by decide)).mp insideSpacing⟩
            · have solid : (isGap char || (char == '/' && rest.head? == some '/')) = false := by simpa [blank] using opens
              simp only [splitGap, solid, Bool.false_eq_true, if_false]
              exact ⟨rfl, .none⟩

-- A text from that position on: gaps and the spelling of tokens by turns, and a gap at its end.
inductive Laid : Nat → List Char → List Lexeme → Prop
  | done {position : Nat} {trailing : List Char} : Spacing True trailing → Laid position trailing []
  | next {position : Nat} {gap spelling text : List Char} {token : Token} {others : List Lexeme} :
      Spacing False gap → token.Spelt spelling → Laid (position + byteSize gap + byteSize spelling) text others →
      Laid position (gap ++ (spelling ++ text)) (⟨gap, spelling, token, position + byteSize gap⟩ :: others)

theorem lexemes_laid {text : List Char} {position : Nat} {lexemes : List Lexeme}
    (split : lexemesFrom position text = .ok lexemes) : Laid position text lexemes := by
  induction counted : text.length using Nat.strongRecOn generalizing text position lexemes with
  | ind size ih =>
      obtain ⟨joined, spacing⟩ := split_gap_spaced false text
      rw [lexemesFrom] at split
      split at split
      next gap found =>
        cases split
        rw [found] at joined spacing
        rw [← joined, List.append_nil]
        exact .done (by simpa [opening] using spacing)
      next gap first rest found =>
        rw [found] at joined spacing
        split at split
        next => cases split
        next token spelling scanned =>
          obtain ⟨others, splitOthers, split⟩ := bind_ok split
          cases split
          obtain ⟨spelt, left, whole⟩ := scan_spelt scanned
          obtain ⟨begins, more, rfl⟩ := List.exists_cons_of_ne_nil spelt.present
          obtain ⟨rfl, behind⟩ : begins = first ∧ more ++ left = rest := List.cons.inj whole
          have dropped : rest.drop ((begins :: more).length - 1) = left := by
            rw [← behind, List.length_cons, Nat.add_sub_cancel, List.drop_left]
          rw [dropped] at splitOthers
          have shorter : left.length < size := by
            rw [← counted, ← joined, ← behind]
            simp only [List.length_append, List.length_cons]
            omega
          rw [← joined, ← behind]
          exact .next (by simpa [opening] using spacing) spelt (ih _ shorter splitOthers rfl)

theorem lexemes_lexed {text : List Char} {position : Nat} {lexemes : List Lexeme}
    (split : lexemesFrom position text = .ok lexemes) : ∀ lexeme ∈ lexemes, lexeme.token.Lexed := by
  have laid := lexemes_laid split
  clear split
  induction laid with
  | done => exact List.forall_mem_nil _
  | next _ spelt _ ih => exact List.forall_mem_cons.mpr ⟨spelt.lexed, ih⟩

end Lexeme
end DocumentViews
