import DocumentViews.Proofs.Json.Taking
import DocumentViews.Proofs.Number.Spelled
import DocumentViews.Proofs.Query.Hollow

set_option autoImplicit false

namespace DocumentViews

def Token.IsWord : Token → Prop
  | .keyword _ | .mark _ | .identifier _ => True
  | _ => False

namespace Lexeme

structure Follows (text : List Char) : Prop where
  parts : ∀ char ∈ text.head?, isNamePart char = false
  point : ∀ rest, text = '.' :: rest → ∀ char ∈ rest.head?, char.isDigit = false

-- The tokens of a text begin with this one, and that is left of the text.
def Scans (text : List Char) (token : Token) (left : List Char) : Prop :=
  ∃ first spelling, text = first :: (spelling ++ left) ∧ scan first (spelling ++ left) = .ok (token, first :: spelling) ∧
    splitGap false text = ([], text)

-- The escapes of these control characters are also read back.
def IsReadable (content : String) : Prop :=
  ∀ char ∈ content.toList, char.toNat < 0x20 → char = '\n' ∨ char = '\r' ∨ char = '\t'

instance : DecidablePred IsReadable := fun content =>
  List.decidableBAll (fun char : Char => char.toNat < 0x20 → char = '\n' ∨ char = '\r' ∨ char = '\t') content.toList

inductive Spells (readable : Prop) : List Char → List Token → Prop
  | done : Spells readable [] []
  | gap {char : Char} {rest : List Char} {tokens : List Token} : isGap char = true → Spells readable rest tokens →
      Spells readable (char :: rest) tokens
  | word {text left : List Char} {token : Token} {tokens : List Token} : token.IsWord → Scans text token left →
      Spells readable left tokens → Spells readable text (token :: tokens)
  | number {text left : List Char} {numeral : DecimalNumeral} {tokens : List Token} : numeral.Valid →
      (readable → numeral.power = none) → (Value.ofFloat numeral.toFloat).chars = numeral.chars →
      text = numeral.chars ++ left → Follows left →
      Spells readable left tokens → Spells readable text (.number numeral.toFloat :: tokens)
  | text {text left : List Char} {content : String} {tokens : List Token} : (readable → IsReadable content) →
      text = DocumentViews.quoted content ++ left → Spells readable left tokens →
      Spells readable text (.text content :: tokens)

theorem name_start_code {char : Char} (starts : isNameStart char = true) : 'A'.toNat ≤ char.toNat := by
  rw [isNameStart, Bool.or_eq_true, beq_iff_eq] at starts
  rcases starts with alpha | rfl
  · rcases Bool.or_eq_true _ _ ▸ (alpha : (char.isUpper || char.isLower) = true) with upper | lower
    · have codes : 'A'.toNat ≤ char.toNat ∧ char.toNat ≤ 'Z'.toNat := between_codes (of_decide_eq_true upper)
      exact codes.1
    · have codes : 'a'.toNat ≤ char.toNat ∧ char.toNat ≤ 'z'.toNat :=
        between_codes ((Bool.and_eq_true_iff.mp lower).imp of_decide_eq_true of_decide_eq_true)
      exact Nat.le_trans (by decide) codes.1
  · decide

theorem digit_no_start {char : Char} (digit : char.isDigit = true) : ¬ isNameStart char = true := by
  intro starts
  have low := name_start_code starts
  have high := (Char.isDigit_iff_toNat.mp digit).2
  exact absurd (Nat.le_trans low high) (by decide)

theorem digit_part {char : Char} (digit : char.isDigit = true) : isNamePart char = true := by
  simp [isNamePart, Char.isAlphanum, digit]

theorem Follows.no_digit {text : List Char} (follows : Follows text) : ∀ char ∈ text.head?, char.isDigit = false := by
  intro char begins
  refine Bool.eq_false_iff.mpr fun digit => ?_
  cases (follows.parts char begins).symm.trans (digit_part digit)

theorem span_front {holds : Char → Bool} {front left : List Char} (inside : ∀ char ∈ front, holds char = true)
    (ends : ∀ char ∈ left.head?, holds char = false) :
    (front ++ left).takeWhile holds = front ∧ (front ++ left).dropWhile holds = left := by
  have none : left.takeWhile holds = [] ∧ left.dropWhile holds = left := by
    cases left with
    | nil => exact ⟨rfl, rfl⟩
    | cons char rest => simp [ends char rfl]
  rw [List.takeWhile_append_of_pos inside, List.dropWhile_append_of_pos inside, none.1, none.2]
  exact ⟨List.append_nil _, rfl⟩

theorem fronts_unique {holds : Char → Bool} {front other left otherLeft : List Char}
    (inside : ∀ char ∈ front, holds char = true) (otherInside : ∀ char ∈ other, holds char = true)
    (ends : ∀ char ∈ left.head?, holds char = false) (otherEnds : ∀ char ∈ otherLeft.head?, holds char = false)
    (same : front ++ left = other ++ otherLeft) : front = other ∧ left = otherLeft := by
  obtain ⟨taken, dropped⟩ := span_front inside ends
  obtain ⟨otherTaken, otherDropped⟩ := span_front otherInside otherEnds
  rw [same, otherTaken] at taken
  rw [same, otherDropped] at dropped
  exact ⟨taken.symm, dropped.symm⟩

theorem word_first {first : Char} {rest spelling : List Char} {token : Token} (isWord : token.IsWord)
    (scanned : scan first rest = .ok (token, spelling)) : first.isDigit = false ∧ first ≠ '"' := by
  constructor
  · refine Bool.eq_false_iff.mpr fun digit => ?_
    rw [scan, if_neg (digit_no_start digit), if_pos digit] at scanned
    cases scanned
    exact isWord
  · rintro rfl
    rw [scan, if_neg (by decide), if_neg (by decide), if_pos (.inl rfl)] at scanned
    split at scanned
    next =>
      cases scanned
      exact isWord
    next => cases scanned

theorem scans_unique {text left otherLeft : List Char} {token other : Token} (scans : Scans text token left)
    (otherScans : Scans text other otherLeft) : token = other ∧ left = otherLeft := by
  obtain ⟨first, spelling, rfl, scanned, _⟩ := scans
  obtain ⟨otherFirst, otherSpelling, same, otherScanned, _⟩ := otherScans
  obtain ⟨rfl, rest⟩ := List.cons.inj same
  rw [rest, otherScanned] at scanned
  cases scanned
  exact ⟨rfl, List.append_cancel_left rest⟩

theorem takes_unique {read : (text : List Char) → Except ReadFault (Parsed text String)} {input otherInput : List Char}
    {value other : String} {left otherLeft : List Char} (same : input = otherInput)
    (takes : Json.Takes (read input) value left) (otherTakes : Json.Takes (read otherInput) other otherLeft) :
    value = other ∧ left = otherLeft := by
  subst same
  obtain ⟨parsed, isRead, rfl, rfl⟩ := takes
  obtain ⟨otherParsed, otherRead, rfl, rfl⟩ := otherTakes
  cases isRead.symm.trans otherRead
  exact ⟨rfl, rfl⟩

theorem texts_unique {content other : String} {left otherLeft : List Char}
    (same : DocumentViews.quoted content ++ left = DocumentViews.quoted other ++ otherLeft) :
    content = other ∧ left = otherLeft := by
  rw [Json.quoted_append, Json.quoted_append] at same
  exact takes_unique (List.cons.inj same).2 (Json.string_takes content left) (Json.string_takes other otherLeft)

open DecimalNumeral

theorem Follows.behind_power {left : List Char} (follows : Follows left) (power : Option Int) :
    ∀ char ∈ (powerChars power ++ left).head?, char.isDigit = false := by
  cases power with
  | none => exact follows.no_digit
  | some power =>
      intro char begins
      cases begins
      rfl

theorem Follows.behind_fraction {left : List Char} (follows : Follows left) (fraction : List Char) (power : Option Int) :
    ∀ char ∈ (fractionChars fraction ++ (powerChars power ++ left)).head?, char.isDigit = false := by
  cases fraction with
  | nil => exact follows.behind_power power
  | cons digit others =>
      intro char begins
      cases begins
      rfl

theorem Follows.no_fraction {left others : List Char} (follows : Follows left) {digit : Char} (isDigit : digit.isDigit = true)
    (power : Option Int) : powerChars power ++ left ≠ '.' :: digit :: others := by
  intro same
  cases power with
  | none => cases (follows.point _ same digit rfl).symm.trans isDigit
  | some power => cases same

theorem power_digits {power : Option Int} {left otherLeft : List Char} (follows : Follows left)
    (otherFollows : Follows otherLeft) {other : Option Int} (same : powerChars power ++ left = powerChars other ++ otherLeft) :
    power = other ∧ left = otherLeft := by
  have noPower : ∀ {text rest : List Char}, Follows text → text ≠ 'e' :: rest := by
    rintro text rest follows rfl
    cases follows.parts 'e' rfl
  have areDigits : ∀ number, ∀ char ∈ Nat.toDigits 10 number, char.isDigit = true := fun number char member =>
    Nat.isDigit_of_mem_toDigits (by decide) (by decide) member
  cases power with
  | none =>
      cases other with
      | none => exact ⟨rfl, same⟩
      | some other => exact absurd same (noPower follows)
  | some power =>
      cases other with
      | none => exact absurd same.symm (noPower otherFollows)
      | some other =>
          obtain ⟨signs, behind⟩ := List.cons.inj (List.cons.inj same).2
          obtain ⟨digits, rest⟩ :=
            fronts_unique (areDigits _) (areDigits _) follows.no_digit otherFollows.no_digit behind
          have sizes := congrArg (Nat.ofDigitChars 10 · 0) digits
          simp only [Nat.ofDigitChars_ten_toDigits] at sizes
          refine ⟨congrArg some ?_, rest⟩
          split at signs <;> split at signs <;> first | omega | cases signs

theorem numerals_unique {numeral other : DecimalNumeral} {left otherLeft : List Char} (valid : numeral.Valid)
    (otherValid : other.Valid) (follows : Follows left) (otherFollows : Follows otherLeft)
    (same : numeral.chars ++ left = other.chars ++ otherLeft) : numeral = other ∧ left = otherLeft := by
  obtain ⟨whole, fraction, power⟩ := numeral
  obtain ⟨otherWhole, otherFraction, otherPower⟩ := other
  have wholeDigits : ∀ char ∈ whole, char.isDigit = true := fun char member =>
    valid.areDigits char (List.mem_append_left _ member)
  have otherWholeDigits : ∀ char ∈ otherWhole, char.isDigit = true := fun char member =>
    otherValid.areDigits char (List.mem_append_left _ member)
  have fractionDigits : ∀ char ∈ fraction, char.isDigit = true := fun char member =>
    valid.areDigits char (List.mem_append_right _ member)
  have otherFractionDigits : ∀ char ∈ otherFraction, char.isDigit = true := fun char member =>
    otherValid.areDigits char (List.mem_append_right _ member)
  simp only [DecimalNumeral.chars, List.append_assoc] at same
  obtain ⟨rfl, behindWhole⟩ := fronts_unique wholeDigits otherWholeDigits
    (follows.behind_fraction fraction power) (otherFollows.behind_fraction otherFraction otherPower) same
  have split : fraction = otherFraction ∧ powerChars power ++ left = powerChars otherPower ++ otherLeft := by
    cases fraction with
    | nil =>
        cases otherFraction with
        | nil => exact ⟨rfl, behindWhole⟩
        | cons digit others =>
            exact absurd behindWhole (follows.no_fraction (otherFractionDigits digit List.mem_cons_self) power)
    | cons digit others =>
        cases otherFraction with
        | nil =>
            exact absurd behindWhole.symm
              (otherFollows.no_fraction (fractionDigits digit List.mem_cons_self) otherPower)
        | cons otherDigit more =>
            exact fronts_unique fractionDigits otherFractionDigits (follows.behind_power power)
              (otherFollows.behind_power otherPower) (List.cons.inj behindWhole).2
  obtain ⟨rfl, behindFraction⟩ := split
  obtain ⟨rfl, rfl⟩ := power_digits follows otherFollows behindFraction
  exact ⟨rfl, rfl⟩

theorem numeral_begins {numeral : DecimalNumeral} (valid : numeral.Valid) :
    ∃ digit rest, numeral.chars = digit :: rest ∧ digit.isDigit = true := by
  obtain ⟨digit, others, split⟩ := List.exists_cons_of_ne_nil valid.present
  refine ⟨digit, _, by rw [DecimalNumeral.chars, split]; rfl, valid.areDigits digit ?_⟩
  rw [split]
  exact List.mem_append_left _ List.mem_cons_self

theorem exponent_iff {numeral : DecimalNumeral} (valid : numeral.Valid) : 'e' ∈ numeral.chars ↔ numeral.power ≠ none := by
  have noDigit : ∀ {digits : List Char}, (∀ char ∈ digits, char.isDigit = true) → 'e' ∉ digits := by
    intro digits areDigits member
    cases areDigits 'e' member
  have noWhole := noDigit fun char member => valid.areDigits char (List.mem_append_left _ member)
  have noFraction : 'e' ∉ DecimalNumeral.fractionChars numeral.fraction := by
    have digits := noDigit fun char member => valid.areDigits char (List.mem_append_right _ member)
    cases isFraction : numeral.fraction with
    | nil => exact List.not_mem_nil
    | cons digit others =>
        rw [isFraction] at digits
        exact List.not_mem_cons_of_ne_of_not_mem (by decide) digits
  cases isPower : numeral.power with
  | none => simp [DecimalNumeral.chars, noWhole, noFraction, isPower, DecimalNumeral.powerChars]
  | some power => simp [DecimalNumeral.chars, isPower, DecimalNumeral.powerChars]

inductive Beginning
  | nothing
  | gap
  | number
  | text
  | word

def beginning : List Char → Beginning
  | [] => .nothing
  | char :: _ =>
      if isGap char then .gap else if char.isDigit then .number else if char = '"' then .text else .word

theorem gap_not_digit {char : Char} (digit : char.isDigit = true) : isGap char = false := by
  have code := (Char.isDigit_iff_toNat.mp digit).1
  refine Bool.eq_false_iff.mpr fun gap => ?_
  rcases gap_cases gap with rfl | rfl | rfl | rfl | rfl <;> exact absurd code (by decide)

theorem word_beginning {text left : List Char} {token : Token} (isWord : token.IsWord) (scans : Scans text token left) :
    beginning text = .word := by
  obtain ⟨first, spelling, rfl, scanned, noGap⟩ := scans
  obtain ⟨noDigit, noQuote⟩ := word_first isWord scanned
  have solid : ¬ isGap first = true := by
    intro gap
    simp only [splitGap, Bool.false_eq_true, if_false, gap, Bool.true_or, if_true] at noGap
    cases noGap
  rw [beginning, if_neg solid, if_neg (by simp [noDigit]), if_neg noQuote]

theorem number_beginning {text left : List Char} {numeral : DecimalNumeral} (valid : numeral.Valid)
    (spelled : text = numeral.chars ++ left) : beginning text = .number := by
  obtain ⟨digit, rest, begins, isDigit⟩ := numeral_begins valid
  rw [spelled, begins, List.cons_append, beginning, if_neg (by simp [gap_not_digit isDigit]), if_pos isDigit]

theorem text_beginning {text left : List Char} {content : String}
    (spelled : text = DocumentViews.quoted content ++ left) : beginning text = .text := by
  rw [spelled]
  rfl

theorem gap_beginning {char : Char} {rest : List Char} (gap : isGap char = true) : beginning (char :: rest) = .gap :=
  if_pos gap

/-- A text spells at most one row of tokens. -/
theorem spells_unique {readable otherReadable : Prop} {text : List Char} {tokens others : List Token}
    (spells : Spells readable text tokens) (otherSpells : Spells otherReadable text others) : tokens = others := by
  induction spells generalizing others with
  | done =>
      cases otherSpells with
      | done => rfl
      | word isWord scans _ => cases word_beginning isWord scans
      | number valid _ _ spelled _ _ => cases number_beginning valid spelled
      | text _ spelled _ => cases text_beginning spelled
  | @gap char rest _ gap _ ih =>
      have begins := @gap_beginning char rest gap
      cases otherSpells with
      | gap _ rest => exact ih rest
      | word isWord scans _ => cases begins.symm.trans (word_beginning isWord scans)
      | number valid _ _ spelled _ _ => cases begins.symm.trans (number_beginning valid spelled)
      | text _ spelled _ => cases begins.symm.trans (text_beginning spelled)
  | word isWord scans _ ih =>
      have begins := word_beginning isWord scans
      cases otherSpells with
      | done => cases begins
      | gap gap _ => cases begins.symm.trans (gap_beginning gap)
      | word _ otherScans rest =>
          obtain ⟨rfl, rfl⟩ := scans_unique scans otherScans
          rw [ih rest]
      | number valid _ _ spelled _ _ => cases begins.symm.trans (number_beginning valid spelled)
      | text _ spelled _ => cases begins.symm.trans (text_beginning spelled)
  | number valid _ _ spelled follows _ ih =>
      have begins := number_beginning valid spelled
      cases otherSpells with
      | done => cases begins
      | gap gap _ => cases begins.symm.trans (gap_beginning gap)
      | word isWord scans _ => cases begins.symm.trans (word_beginning isWord scans)
      | number otherValid _ _ otherSpelled otherFollows rest =>
          obtain ⟨rfl, rfl⟩ := numerals_unique valid otherValid follows otherFollows (spelled.symm.trans otherSpelled)
          rw [ih rest]
      | text _ spelled _ => cases begins.symm.trans (text_beginning spelled)
  | text _ spelled _ ih =>
      have begins := text_beginning spelled
      cases otherSpells with
      | done => cases begins
      | gap gap _ => cases begins.symm.trans (gap_beginning gap)
      | word isWord scans _ => cases begins.symm.trans (word_beginning isWord scans)
      | number valid _ _ spelled _ _ => cases begins.symm.trans (number_beginning valid spelled)
      | text _ otherSpelled rest =>
          obtain ⟨rfl, rfl⟩ := texts_unique (spelled.symm.trans otherSpelled)
          rw [ih rest]

end Lexeme

end DocumentViews
