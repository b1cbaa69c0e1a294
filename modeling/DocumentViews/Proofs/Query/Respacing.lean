import DocumentViews.Proofs.Query.Canonical
import DocumentViews.Proofs.Query.Splitting

set_option autoImplicit false

namespace DocumentViews

namespace Lexeme

variable {text left : List Char} {token : Token} {tokens : List Token} {lexemes : List Lexeme} {position : Nat}

theorem gap_ends_name {char : Char} (blank : isGap char = true) : isNamePart char = false := by
  rcases gap_cases blank with rfl | rfl | rfl | rfl | rfl <;> rfl

theorem gap_ends_digits (blanks : ∀ char ∈ left.head?, isGap char = true) : EndsDigits left where
  digit char begins := Bool.eq_false_iff.mpr fun digit => by
    cases (gap_not_digit digit).symm.trans (blanks char begins)
  point rest same := by
    rw [same] at blanks
    cases blanks '.' rfl

theorem quoted_inside_reads {quote : Char} {content spelling : List Char} (noBackslash : quote ≠ '\\')
    (inside : Inside quote content spelling) (left : List Char) :
    quoted quote (spelling ++ quote :: left) = .ok ((content, spelling ++ [quote]), left) := by
  induction inside with
  | done =>
      rw [List.nil_append, quoted]
      · simp
      · exact fun _ _ same _ => noBackslash same
  | escape noBreak _ ih => simp [quoted, noBreak, ih]
  | plain noQuote noEscape _ ih => exact quoted_solid noQuote noEscape ih

theorem scans_inside {quote : Char} (isQuote : quote = '"' ∨ quote = '\'') {content spelling : List Char}
    (inside : Inside quote content spelling) (left : List Char) :
    Scans (quote :: (spelling ++ [quote]) ++ left) (.text (String.ofList content)) left := by
  have noBackslash : quote ≠ '\\' := by rcases isQuote with rfl | rfl <;> decide
  have noName : ¬ isNameStart quote = true := by rcases isQuote with rfl | rfl <;> decide
  have noDigit : ¬ quote.isDigit = true := by rcases isQuote with rfl | rfl <;> decide
  refine ⟨quote, spelling ++ [quote], rfl, ?_, by rcases isQuote with rfl | rfl <;> rfl⟩
  rw [List.append_assoc, List.singleton_append, scan, if_neg noName, if_neg noDigit, if_pos isQuote,
    quoted_inside_reads noBackslash inside]

theorem scans_spelt {spelling : List Char} (spelt : token.Spelt spelling)
    (blanks : ∀ char ∈ left.head?, isGap char = true) : Scans (spelling ++ left) token left := by
  have ends : ∀ char ∈ left.head?, isNamePart char = false := fun char begins => gap_ends_name (blanks char begins)
  cases spelt with
  | keyword word => exact scans_keyword word ends
  | identifier isName => exact scans_identifier isName ends
  | number present areDigits =>
      rw [List.append_assoc]
      exact scans_digits present areDigits (gap_ends_digits blanks)
  | text isQuote inside => exact scans_inside isQuote inside left
  | mark mark => exact scans_parted mark blanks

theorem comment_split {body : List Char} (noBreak : '\n' ∉ body) (text : List Char) :
    splitGap true (body ++ '\n' :: text) = (body ++ '\n' :: (splitGap false text).1, (splitGap false text).2) := by
  induction body with
  | nil => rfl
  | cons char body ih =>
      obtain ⟨differs, noMore⟩ := List.ne_and_not_mem_of_not_mem_cons noBreak
      have goesOn : (char != '\n') = true := by simpa using differs.symm
      simp only [List.cons_append, splitGap, if_true, goesOn, ih noMore]

theorem splits_spacing {gap : List Char} (spacing : Spacing False gap) (splits : SplitsInto text tokens) :
    SplitsInto (gap ++ text) tokens := by
  induction spacing with
  | none => exact splits
  | blank blank _ ih => exact splits_gap blank ih
  | @comment body rest noBreak _ ih =>
      have wider : splitGap false (('/' :: '/' :: (body ++ ['\n'])) ++ (rest ++ text)) =
          (('/' :: '/' :: (body ++ ['\n'])) ++ (splitGap false (rest ++ text)).1, (splitGap false (rest ++ text)).2) := by
        have opened := comment_split (List.not_mem_cons_of_ne_of_not_mem (by decide : '\n' ≠ '/') noBreak) (rest ++ text)
        simpa [splitGap] using opened
      simpa using splits_wider wider ih
  | unclosed impossible => exact impossible.elim

def respaced (gaps : List (List Char)) (lexemes : List Lexeme) : List Char :=
  (List.zipWith (fun gap lexeme => gap ++ lexeme.spelling) gaps lexemes).flatten

def asWritten (lexemes : List Lexeme) : List Char := respaced (lexemes.map Lexeme.gap) lexemes

theorem as_written_cons (lexeme : Lexeme) (lexemes : List Lexeme) :
    asWritten (lexeme :: lexemes) = lexeme.gap ++ (lexeme.spelling ++ asWritten lexemes) := by
  simp [asWritten, respaced]

theorem byte_size_utf8 (chars : List Char) : byteSize chars = (String.ofList chars).utf8ByteSize := by
  induction chars with
  | nil => rfl
  | cons char chars ih =>
      rw [byteSize, ih, ← List.singleton_append, String.ofList_append, String.utf8ByteSize_append,
        ← String.singleton_eq_ofList, String.utf8ByteSize_singleton]

theorem laid_written (laid : Laid position text lexemes) :
    ∃ trailing, asWritten lexemes ++ trailing = text ∧ Spacing True trailing := by
  induction laid with
  | @done _ trailing spacing => exact ⟨trailing, rfl, spacing⟩
  | next _ _ _ ih =>
      obtain ⟨trailing, rfl, spacing⟩ := ih
      exact ⟨trailing, by simp only [as_written_cons, List.append_assoc], spacing⟩

theorem laid_spelt (laid : Laid position text lexemes) :
    ∀ lexeme ∈ lexemes, Spacing False lexeme.gap ∧ lexeme.token.Spelt lexeme.spelling := by
  induction laid with
  | done => exact List.forall_mem_nil _
  | next gap spelt _ ih => exact List.forall_mem_cons.mpr ⟨⟨gap, spelt⟩, ih⟩

theorem laid_places (laid : Laid position text lexemes) {before after : List Lexeme} {lexeme : Lexeme}
    (split : lexemes = before ++ lexeme :: after) :
    lexeme.position = position + byteSize (asWritten before ++ lexeme.gap) := by
  induction laid generalizing before with
  | done => exact absurd split.symm (List.append_ne_nil_of_right_ne_nil _ (List.cons_ne_nil _ _))
  | next _ _ _ ih =>
      cases before with
      | nil =>
          obtain ⟨rfl, _⟩ := List.cons.inj split
          rfl
      | cons first before =>
          obtain ⟨rfl, others⟩ := List.cons.inj split
          rw [ih others, as_written_cons]
          simp only [byte_size_append, Nat.add_assoc]

theorem laid_from (laid : Laid position text lexemes) : ∀ lexeme ∈ lexemes, position ≤ lexeme.position := by
  intro lexeme member
  obtain ⟨before, after, split⟩ := List.append_of_mem member
  rw [laid_places laid split]
  exact Nat.le_add_right _ _

theorem laid_increasing (laid : Laid position text lexemes) :
    lexemes.Pairwise fun one next => one.position < next.position := by
  induction laid with
  | done => exact .nil
  | @next position gap spelling text token others _ spelt laid ih =>
      refine .cons (fun lexeme member => ?_) ih
      have wide : 0 < byteSize spelling := by
        obtain ⟨char, rest, rfl⟩ := List.exists_cons_of_ne_nil spelt.present
        rw [byteSize]
        exact Nat.add_pos_left char.utf8Size_pos _
      exact Nat.lt_of_lt_of_le (Nat.lt_add_of_pos_right wide) (laid_from laid lexeme member)

def BlankFirst (gap : List Char) : Prop := ∃ char rest, gap = char :: rest ∧ isGap char = true

-- Gaps that may be put before lexemes, and one behind the last of them: blanks and comments, with
-- a blank first wherever a lexeme stands before.
structure Parting (gaps : List (List Char)) (last : List Char) : Prop where
  spaced : ∀ gap ∈ gaps, Spacing False gap
  between : ∀ gap ∈ gaps.tail, BlankFirst gap
  trailing : Spacing False last
  behind : last = [] ∨ BlankFirst last

theorem respaced_begins {gaps : List (List Char)} {last : List Char} (between : ∀ gap ∈ gaps, BlankFirst gap)
    (behind : last = [] ∨ BlankFirst last) (lexemes : List Lexeme) :
    ∀ char ∈ (respaced gaps lexemes ++ last).head?, isGap char = true := by
  have atLast : ∀ char ∈ last.head?, isGap char = true := by
    rcases behind with rfl | ⟨char, rest, rfl, blank⟩
    · rintro _ ⟨⟩
    · rintro _ ⟨⟩
      exact blank
  cases gaps with
  | nil => exact atLast
  | cons gap gaps =>
      cases lexemes with
      | nil => exact atLast
      | cons lexeme lexemes =>
          obtain ⟨char, rest, rfl, blank⟩ := between gap List.mem_cons_self
          rintro _ ⟨⟩
          exact blank

theorem respaced_splits {gaps : List (List Char)} {last : List Char}
    (spelt : ∀ lexeme ∈ lexemes, lexeme.token.Spelt lexeme.spelling) (parting : Parting gaps last)
    (oneEach : gaps.length = lexemes.length) :
    SplitsInto (respaced gaps lexemes ++ last) (lexemes.map Lexeme.token) := by
  induction lexemes generalizing gaps with
  | nil =>
      cases gaps with
      | nil => simpa [respaced] using splits_spacing parting.trailing splits_nil
      | cons => cases oneEach
  | cons lexeme lexemes ih =>
      cases gaps with
      | nil => cases oneEach
      | cons gap gaps =>
          obtain ⟨front, spelts⟩ := List.forall_mem_cons.mp spelt
          obtain ⟨spacing, spacings⟩ := List.forall_mem_cons.mp parting.spaced
          have others : Parting gaps last :=
            ⟨spacings, fun gap member => parting.between gap (List.mem_of_mem_tail member), parting.trailing, parting.behind⟩
          have behind := ih spelts others (Nat.succ.inj oneEach)
          have scans := scans_spelt front (respaced_begins parting.between parting.behind lexemes)
          simpa [respaced] using splits_spacing spacing (splits_scans scans behind)

structure Layout (text : String) (lexemes : List Lexeme) (last : List Char) : Prop where
  whole : String.ofList (asWritten lexemes ++ last) = text
  spelt : ∀ lexeme ∈ lexemes, Spacing False lexeme.gap ∧ lexeme.token.Spelt lexeme.spelling
  trailing : Spacing True last
  places : ∀ before lexeme after, lexemes = before ++ lexeme :: after →
    lexeme.position = (String.ofList (asWritten before ++ lexeme.gap)).utf8ByteSize
  increasing : lexemes.Pairwise fun one next => one.position < next.position

end Lexeme

open Lexeme

theorem tokenized_layout {text : String} {lexemes : List Lexeme} (split : tokenize text = .ok lexemes) :
    ∃ last, Layout text lexemes last := by
  have laid := lexemes_laid split
  obtain ⟨last, whole, spacing⟩ := laid_written laid
  refine ⟨last, by rw [whole, String.ofList_toList], laid_spelt laid, spacing, ?_, laid_increasing laid⟩
  intro before lexeme after isSplit
  rw [laid_places laid isSplit, Nat.zero_add, byte_size_utf8]

/-- A text that is split into tokens consists of gaps and of spellings of these tokens by turns, each at the
place that is reported for it. With any other gaps, if only those behind a spelling begin with a blank, the
same spellings are split into the same tokens. -/
theorem tokenize_respaced {text : String} {lexemes : List Lexeme} (split : tokenize text = .ok lexemes) :
    (∃ last, Layout text lexemes last) ∧
      ∀ gaps last, gaps.length = lexemes.length → Parting gaps last →
        ∃ again, tokenize (String.ofList (respaced gaps lexemes ++ last)) = .ok again ∧
          again.map Lexeme.token = lexemes.map Lexeme.token := by
  refine ⟨tokenized_layout split, fun gaps last oneEach parting => ?_⟩
  have spelt := fun lexeme member => (laid_spelt (lexemes_laid split) lexeme member).2
  rw [tokenize, String.toList_ofList]
  exact respaced_splits spelt parting oneEach 0

theorem tokenize_respaced_commented : ∃ lexemes again,
    tokenize "a<=1.5// to the end\n?'\\'//':b" = .ok lexemes ∧
    tokenize "//?\na //'\n<= //'\n1.5 //'\n? //'\n'\\'//' //'\n: //'\nb\t" = .ok again ∧
    again.map Lexeme.token = lexemes.map Lexeme.token := by
  have accepted : (tokenize "a<=1.5// to the end\n?'\\'//':b").toOption.any (fun lexemes => 7 = lexemes.length ∧
      String.ofList (respaced (['/', '/', '?', '\n'] :: List.replicate 6 [' ', '/', '/', '\'', '\n']) lexemes ++ ['\t']) =
        "//?\na //'\n<= //'\n1.5 //'\n? //'\n'\\'//' //'\n: //'\nb\t") = true := by decide +kernel
  obtain ⟨lexemes, split, holds⟩ := ok_with_exists accepted
  obtain ⟨oneEach, written⟩ := of_decide_eq_true holds
  have parting : Parting (['/', '/', '?', '\n'] :: List.replicate 6 [' ', '/', '/', '\'', '\n']) ['\t'] := by
    refine ⟨List.forall_mem_cons.mpr ⟨.comment (by decide : '\n' ∉ ['?']) .none, ?_⟩, ?_, .blank rfl .none,
      .inr ⟨_, _, rfl, rfl⟩⟩
    · intro gap member
      rw [List.eq_of_mem_replicate member]
      exact .blank rfl (.comment (by decide : '\n' ∉ ['\'']) .none)
    · intro gap member
      rw [List.eq_of_mem_replicate member]
      exact ⟨_, _, rfl, rfl⟩
  obtain ⟨again, splitAgain, same⟩ := (tokenize_respaced split).2 _ _ (by exact oneEach) parting
  rw [written] at splitAgain
  exact ⟨lexemes, again, split, splitAgain, same⟩

end DocumentViews
