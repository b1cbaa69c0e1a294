import DocumentViews.Proofs.Query.SameTokens
import DocumentViews.Text.Blank

set_option autoImplicit false

namespace DocumentViews

namespace Lexeme

def IsPrinted (char : Char) : Prop := 32 < char.toNat ∧ char.toNat < 127

theorem blank_not_printed {char : Char} (blank : Blank.isBlank char = true) : ¬ IsPrinted char := by
  simp only [Blank.isBlank, Bool.or_eq_true, Bool.and_eq_true, decide_eq_true_eq, beq_iff_eq] at blank
  simp only [IsPrinted]
  omega

theorem between_codes {char low high : Char} (between : char.val ≥ low.val ∧ char.val ≤ high.val) :
    low.toNat ≤ char.toNat ∧ char.toNat ≤ high.toNat :=
  ⟨UInt32.le_iff_toNat_le.mp between.1, UInt32.le_iff_toNat_le.mp between.2⟩

theorem printed_between {char low high : Char} (between : low.toNat ≤ char.toNat ∧ char.toNat ≤ high.toNat)
    (lowPrinted : IsPrinted low) (highPrinted : IsPrinted high) : IsPrinted char := by
  simp only [IsPrinted] at lowPrinted highPrinted ⊢
  omega

theorem digit_printed {char : Char} (digit : char.isDigit = true) : IsPrinted char :=
  printed_between (Char.isDigit_iff_toNat.mp digit) ⟨by decide, by decide⟩ ⟨by decide, by decide⟩

theorem name_start_printed {char : Char} (starts : isNameStart char = true) : IsPrinted char := by
  rw [isNameStart, Bool.or_eq_true, beq_iff_eq] at starts
  rcases starts with alpha | rfl
  · rcases Bool.or_eq_true _ _ ▸ (alpha : (char.isUpper || char.isLower) = true) with upper | lower
    · have codes : 'A'.toNat ≤ char.toNat ∧ char.toNat ≤ 'Z'.toNat := between_codes (of_decide_eq_true upper)
      exact printed_between codes ⟨by decide, by decide⟩ ⟨by decide, by decide⟩
    · have codes : 'a'.toNat ≤ char.toNat ∧ char.toNat ≤ 'z'.toNat :=
        between_codes ((Bool.and_eq_true_iff.mp lower).imp of_decide_eq_true of_decide_eq_true)
      exact printed_between codes ⟨by decide, by decide⟩ ⟨by decide, by decide⟩
  · exact ⟨by decide, by decide⟩

theorem mark_printed (mark : Mark) : ∃ char rest, mark.spelling = char :: rest ∧ IsPrinted char := by
  cases mark <;> exact ⟨_, _, rfl, by decide, by decide⟩

theorem scan_blank {first : Char} (blank : Blank.isBlank first = true) (rest : List Char) :
    scan first rest = .error [first] := by
  have notPrinted := blank_not_printed blank
  have noName : ¬ isNameStart first = true := fun starts => notPrinted (name_start_printed starts)
  have noDigit : ¬ first.isDigit = true := fun digit => notPrinted (digit_printed digit)
  have noQuote : ¬ (first = '"' ∨ first = '\'') := by
    rintro (rfl | rfl) <;> exact notPrinted ⟨by decide, by decide⟩
  have noMark : Mark.all.find? (fun mark => mark.spelling.isPrefixOf (first :: rest)) = none := by
    refine List.find?_eq_none.mpr fun mark _ fits => ?_
    obtain ⟨char, others, spelling, printed⟩ := mark_printed mark
    rw [spelling, List.isPrefixOf, Bool.and_eq_true, beq_iff_eq] at fits
    exact notPrinted (fits.1 ▸ printed)
  rw [scan, if_neg noName, if_neg noDigit, if_neg noQuote, noMark]

theorem blank_has_no_lexemes {position : Nat} {text : List Char} {tokens : List Lexeme}
    (blank : ∀ char ∈ text, Blank.isBlank char = true) (split : lexemesFrom position text = .ok tokens) :
    tokens = [] := by
  rw [lexemesFrom] at split
  split at split
  · cases split
    rfl
  next gap first rest found =>
    have inside : first ∈ text := by
      rw [← (split_gap_spaced false text).1, found]
      exact List.mem_append_right _ List.mem_cons_self
    rw [scan_blank (blank first inside)] at split
    cases split

end Lexeme

theorem blank_has_no_tokens {text : String} {tokens : List Lexeme} (blank : Blank.isBlankText text = true)
    (split : tokenize text = .ok tokens) : tokens = [] :=
  Lexeme.blank_has_no_lexemes (List.all_eq_true.mp blank) split

def isHollow (text : String) : Bool :=
  !Blank.isBlankText text &&
    match tokenize text with
    | .ok [] => true
    | _ => false

theorem hollow_iff {text : String} :
    isHollow text = true ↔ Blank.isBlankText text = false ∧ tokenize text = .ok [] := by
  simp only [isHollow]
  rw [Bool.and_eq_true, Bool.not_eq_true']
  apply and_congr_right
  intro _
  split
  next nothing => simp [nothing]
  next something => exact ⟨fun impossible => (nomatch impossible), fun nothing => (something nothing).elim⟩

theorem parsed_not_hollow {isFunction : String → Bool} {text : String} {query : Query}
    (parsed : Query.parse isFunction text = .ok query) : isHollow text = false := by
  obtain ⟨tokens, split, present, _⟩ := Query.parse_ok_iff.mp parsed
  refine Bool.eq_false_iff.mpr fun hollow => present ?_
  cases split.symm.trans (hollow_iff.mp hollow).2
  rfl

theorem parsed_not_blank {isFunction : String → Bool} {text : String} {query : Query}
    (parsed : Query.parse isFunction text = .ok query) : Blank.isBlankText text = false := by
  obtain ⟨tokens, split, present, _⟩ := Query.parse_ok_iff.mp parsed
  exact Bool.eq_false_iff.mpr fun blank => present (blank_has_no_tokens blank split)

-- Among texts that are no mere comments, blank ones are like blank ones only.
theorem blank_of_alike {one other : String} (alike : TextsAlike one other) (notHollow : isHollow other = false)
    (blank : Blank.isBlankText one = true) : Blank.isBlankText other = true := by
  rcases alike with rfl | ⟨left, right, tokens, otherTokens, alike⟩
  · exact blank
  · cases blank_has_no_tokens blank tokens
    cases alike
    by_contra written
    have hollow := hollow_iff.mpr ⟨Bool.not_eq_true _ ▸ written, otherTokens⟩
    rw [notHollow] at hollow
    cases hollow

end DocumentViews
