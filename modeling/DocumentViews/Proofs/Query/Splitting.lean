import DocumentViews.Proofs.Query.Spells

set_option autoImplicit false

namespace DocumentViews.Lexeme

variable {text left rest gap : List Char} {token : Token} {tokens : List Token} {position : Nat} {first : Char}

theorem lexemes_empty (split : splitGap false text = (gap, [])) : lexemesFrom position text = .ok [] := by
  rw [lexemesFrom]
  split
  next => rfl
  next found =>
    rw [split] at found
    cases found

theorem lexemes_front {spelling : List Char} (split : splitGap false text = (gap, first :: rest))
    (scanned : scan first rest = .ok (token, spelling)) :
    lexemesFrom position text =
      lexemesFrom (position + byteSize gap + byteSize spelling) (rest.drop (spelling.length - 1)) >>= fun others =>
        .ok (⟨gap, spelling, token, position + byteSize gap⟩ :: others) := by
  rw [lexemesFrom]
  split
  next found =>
    rw [split] at found
    cases found
  next found =>
    rw [split] at found
    cases found
    rw [scanned]

theorem lexemes_stuck {piece : List Char} (split : splitGap false text = (gap, first :: rest))
    (scanned : scan first rest = .error piece) :
    lexemesFrom position text = .error ⟨.unexpectedInput (String.ofList piece), position + byteSize gap⟩ := by
  rw [lexemesFrom]
  split
  next found =>
    rw [split] at found
    cases found
  next found =>
    rw [split] at found
    cases found
    rw [scanned]

def SplitsInto (text : List Char) (tokens : List Token) : Prop :=
  ∀ position, ∃ lexemes, lexemesFrom position text = .ok lexemes ∧ lexemes.map Lexeme.token = tokens

theorem splits_nil : SplitsInto [] [] := fun _ => ⟨[], lexemes_empty rfl, rfl⟩

theorem byte_size_append (front text : List Char) : byteSize (front ++ text) = byteSize front + byteSize text := by
  induction front with
  | nil => exact (Nat.zero_add _).symm
  | cons char front ih => rw [List.cons_append, byteSize, ih, byteSize, Nat.add_assoc]

theorem splits_wider {front : List Char}
    (wider : splitGap false (front ++ rest) = (front ++ (splitGap false rest).1, (splitGap false rest).2))
    (splits : SplitsInto rest tokens) : SplitsInto (front ++ rest) tokens := by
  intro position
  obtain ⟨lexemes, split, spelled⟩ := splits (position + byteSize front)
  cases isSplit : splitGap false rest with
  | mk gap behind =>
      rw [isSplit] at wider
      cases behind with
      | nil =>
          rw [lexemes_empty isSplit] at split
          cases split
          exact ⟨[], lexemes_empty wider, spelled⟩
      | cons first others =>
          cases scanned : scan first others with
          | error piece =>
              rw [lexemes_stuck isSplit scanned] at split
              cases split
          | ok found =>
              obtain ⟨token, spelling⟩ := found
              rw [lexemes_front isSplit scanned] at split
              obtain ⟨more, splitMore, split⟩ := bind_ok split
              cases split
              rw [lexemes_front wider scanned, byte_size_append, ← Nat.add_assoc, splitMore]
              exact ⟨_, rfl, spelled⟩

theorem splits_gap {char : Char} (isBlank : isGap char = true) (splits : SplitsInto rest tokens) :
    SplitsInto (char :: rest) tokens := by
  have wider : splitGap false ([char] ++ rest) = ([char] ++ (splitGap false rest).1, (splitGap false rest).2) := by
    simp [splitGap, isBlank, slash_no_gap isBlank]
  exact splits_wider wider splits

theorem splits_scans (scans : Scans text token left) (splits : SplitsInto left tokens) :
    SplitsInto text (token :: tokens) := by
  intro position
  obtain ⟨first, spelling, rfl, scanned, noGap⟩ := scans
  obtain ⟨lexemes, split, spelled⟩ := splits (position + byteSize (first :: spelling))
  have dropped : (spelling ++ left).drop ((first :: spelling).length - 1) = left := List.drop_left
  rw [lexemes_front noGap scanned, dropped, show position + byteSize [] = position from rfl, split]
  exact ⟨_, rfl, by rw [List.map_cons, spelled]⟩

theorem decimal_of_digits (digits : List Char) (start : Nat) :
    digits.foldl (fun number char => number * 10 + (char.toNat - '0'.toNat)) start = Nat.ofDigitChars 10 digits start :=
  Json.natural_of_digits digits start

theorem plain_numeral {numeral : DecimalNumeral} (plain : numeral.power = none) :
    numberOf numeral.whole numeral.fraction = numeral.toFloat := by
  simp only [numberOf, decimal_of_digits, DecimalNumeral.toFloat, DecimalNumeral.digits, DecimalNumeral.exponent, plain,
    Option.getD_none, Int.zero_sub]

theorem digit_split {digit : Char} (isDigit : digit.isDigit = true) (rest : List Char) :
    splitGap false (digit :: rest) = ([], digit :: rest) := by
  have solid := gap_not_digit isDigit
  have noSlash : (digit == '/') = false := by
    refine Bool.eq_false_iff.mpr fun slash => ?_
    rw [beq_iff_eq.mp slash] at isDigit
    cases isDigit
  simp [splitGap, solid, noSlash]

structure EndsDigits (left : List Char) : Prop where
  digit : ∀ char ∈ left.head?, char.isDigit = false
  point : ∀ rest, left = '.' :: rest → ∀ char ∈ rest.head?, char.isDigit = false

theorem Follows.ends_digits (follows : Follows left) : EndsDigits left := ⟨follows.no_digit, follows.point⟩

theorem EndsDigits.behind_fraction (ends : EndsDigits left) (fraction : List Char) :
    ∀ char ∈ (DecimalNumeral.fractionChars fraction ++ left).head?, char.isDigit = false := by
  cases fraction with
  | nil => exact ends.digit
  | cons digit others =>
      intro char begins
      cases begins
      rfl

theorem scans_digits {whole fraction : List Char} (present : whole ≠ [])
    (areDigits : ∀ char ∈ whole ++ fraction, char.isDigit = true) (ends : EndsDigits left) :
    Scans (whole ++ (DecimalNumeral.fractionChars fraction ++ left)) (.number (numberOf whole fraction)) left := by
  obtain ⟨digit, more, rfl⟩ := List.exists_cons_of_ne_nil present
  have isDigit : digit.isDigit = true := areDigits digit List.mem_cons_self
  have moreDigits : ∀ char ∈ more, char.isDigit = true := fun char member =>
    areDigits char (List.mem_append_left _ (List.mem_cons_of_mem _ member))
  have fractionDigits : ∀ char ∈ fraction, char.isDigit = true := fun char member =>
    areDigits char (List.mem_append_right _ member)
  obtain ⟨taken, dropped⟩ := span_front moreDigits (ends.behind_fraction fraction)
  refine ⟨digit, more ++ DecimalNumeral.fractionChars fraction, by simp, ?_, digit_split isDigit _⟩
  rw [scan, if_neg (digit_no_start isDigit), if_pos isDigit, List.append_assoc, taken, dropped]
  cases fraction with
  | nil =>
      have noDigits : ∀ others, left = '.' :: others → others.takeWhile Char.isDigit = [] := by
        intro others point
        cases others with
        | nil => rfl
        | cons char others => simp [ends.point _ point char rfl]
      simp only [DecimalNumeral.fractionChars, List.nil_append, List.append_nil]
      split
      next others point => simp [noDigits]
      next => rfl
  | cons first others =>
      have takenFraction : (first :: others ++ left).takeWhile Char.isDigit = first :: others :=
        (span_front fractionDigits ends.digit).1
      simp only [DecimalNumeral.fractionChars, List.cons_append] at takenFraction ⊢
      simp only [takenFraction, List.isEmpty_cons, Bool.false_eq_true, if_false]

theorem scans_number {numeral : DecimalNumeral} (valid : numeral.Valid) (plain : numeral.power = none)
    (follows : Follows left) : Scans (numeral.chars ++ left) (.number numeral.toFloat) left := by
  have scans := scans_digits valid.present valid.areDigits follows.ends_digits
  rw [plain_numeral plain] at scans
  simpa [DecimalNumeral.chars, plain, DecimalNumeral.powerChars] using scans

def rereadChar (char : Char) : List Char :=
  match escape char with
  | _ :: marked :: rest => unescape marked :: rest
  | spelled => spelled

def reread (content : String) : String := String.ofList (content.toList.flatMap rereadChar)

theorem quoted_solid {quote char : Char} (noQuote : char ≠ quote) (noBackslash : char ≠ '\\')
    {text content spelling : List Char} (reads : quoted quote text = .ok ((content, spelling), left)) :
    quoted quote (char :: text) = .ok ((char :: content, char :: spelling), left) := by
  rw [quoted]
  · simp [noQuote, noBackslash, reads]
  · exact fun _ _ same _ => noBackslash same

theorem hex_solid {digit : Nat} (small : digit < 16) : Nat.digitChar digit ≠ '"' ∧ Nat.digitChar digit ≠ '\\' := by
  have all : ∀ digit : Fin 16, Nat.digitChar digit ≠ '"' ∧ Nat.digitChar digit ≠ '\\' := by decide
  exact all ⟨digit, small⟩

theorem zero_solid : '0' ≠ '"' ∧ '0' ≠ '\\' := ⟨by decide, by decide⟩

def marked : List Char := ['"', '\\', '\x08', '\x0c', '\n', '\r', '\t']

theorem marked_cases {char : Char} (isMarked : char ∈ marked) : char = '"' ∨ char = '\\' ∨ char = '\x08' ∨
    char = '\x0c' ∨ char = '\n' ∨ char = '\r' ∨ char = '\t' := by
  simpa only [marked, List.mem_cons, List.not_mem_nil, or_false] using isMarked

theorem escape_visible {char : Char} (unmarked : char ∉ marked) (visible : ¬ char.toNat < 0x20) : escape char = [char] := by
  simp only [marked, List.mem_cons, List.not_mem_nil, or_false, not_or] at unmarked
  simp [escape, unmarked, visible]

theorem escape_control {char : Char} (unmarked : char ∉ marked) (control : char.toNat < 0x20) :
    escape char = ['\\', 'u', '0', '0', Nat.digitChar (char.toNat / 16), Nat.digitChar (char.toNat % 16)] := by
  simp only [marked, List.mem_cons, List.not_mem_nil, or_false, not_or] at unmarked
  simp [escape, unmarked, control]

theorem reread_visible {char : Char} (unmarked : char ∉ marked) (visible : ¬ char.toNat < 0x20) :
    rereadChar char = [char] := by rw [rereadChar, escape_visible unmarked visible]

-- Only the backslash goes, as queries have no escape for a code.
theorem reread_control {char : Char} (unmarked : char ∉ marked) (control : char.toNat < 0x20) :
    rereadChar char = ['u', '0', '0', Nat.digitChar (char.toNat / 16), Nat.digitChar (char.toNat % 16)] := by
  rw [rereadChar, escape_control unmarked control]
  rfl

theorem quoted_escape (char : Char) {text content spelling : List Char}
    (reads : quoted '"' text = .ok ((content, spelling), left)) :
    quoted '"' (escape char ++ text) = .ok ((rereadChar char ++ content, escape char ++ spelling), left) := by
  by_cases isMarked : char ∈ marked
  · rcases marked_cases isMarked with rfl | rfl | rfl | rfl | rfl | rfl | rfl <;>
      simp [escape, rereadChar, quoted, reads, unescape]
  · obtain ⟨noQuote, noBackslash⟩ : char ≠ '"' ∧ char ≠ '\\' := by
      constructor <;> rintro rfl <;> exact isMarked (by decide)
    by_cases control : char.toNat < 0x20
    · obtain ⟨highQuote, highBackslash⟩ := hex_solid (show char.toNat / 16 < 16 by omega)
      obtain ⟨lowQuote, lowBackslash⟩ := hex_solid (show char.toNat % 16 < 16 by omega)
      have digits := quoted_solid highQuote highBackslash (quoted_solid lowQuote lowBackslash reads)
      have zeros := quoted_solid zero_solid.1 zero_solid.2 (quoted_solid zero_solid.1 zero_solid.2 digits)
      rw [escape_control isMarked control, reread_control isMarked control]
      simp [quoted, zeros, unescape]
    · rw [escape_visible isMarked control, reread_visible isMarked control]
      exact quoted_solid noQuote noBackslash reads

theorem quoted_rereads (content left : List Char) :
    quoted '"' (content.flatMap escape ++ '"' :: left) =
      .ok ((content.flatMap rereadChar, content.flatMap escape ++ ['"']), left) := by
  induction content with
  | nil => rfl
  | cons char content ih =>
      rw [List.flatMap_cons, List.flatMap_cons, List.append_assoc, List.append_assoc]
      exact quoted_escape char ih

theorem reread_char_iff {char : Char} :
    rereadChar char = [char] ↔ (char.toNat < 0x20 → char = '\n' ∨ char = '\r' ∨ char = '\t') := by
  by_cases isMarked : char ∈ marked
  · rcases marked_cases isMarked with rfl | rfl | rfl | rfl | rfl | rfl | rfl <;> decide
  · by_cases control : char.toNat < 0x20
    · have noEscape : ¬ (char = '\n' ∨ char = '\r' ∨ char = '\t') := by
        rintro (rfl | rfl | rfl) <;> exact isMarked (by decide)
      rw [reread_control isMarked control]
      exact iff_of_false (by simp) fun allowed => noEscape (allowed control)
    · exact iff_of_true (reread_visible isMarked control) fun low => absurd low control

theorem reread_char_present (char : Char) : 1 ≤ (rereadChar char).length := by
  by_cases isMarked : char ∈ marked
  · rcases marked_cases isMarked with rfl | rfl | rfl | rfl | rfl | rfl | rfl <;> decide
  · by_cases control : char.toNat < 0x20
    · rw [reread_control isMarked control]
      exact Nat.le_add_left 1 4
    · rw [reread_visible isMarked control]
      exact Nat.le_refl 1

-- As each character comes back as one at least, none may come back as more than one.
theorem flat_map_self_iff {α : Type} {change : α → List α} (present : ∀ value, 1 ≤ (change value).length) (list : List α) :
    list.flatMap change = list ↔ ∀ value ∈ list, change value = [value] := by
  refine ⟨fun same => ?_, fun kept => (List.flatMap_congr kept).trans (List.flatMap_singleton' list)⟩
  induction list with
  | nil => exact List.forall_mem_nil _
  | cons value rest ih =>
      rw [List.flatMap_cons] at same
      have enough : rest.length ≤ (rest.flatMap change).length := by
        rw [List.length_flatMap, ← List.length_map fun value => (change value).length]
        exact List.length_le_sum_of_one_le _ (List.forall_mem_map.mpr fun value _ => present value)
      have one : (change value).length = 1 := by
        have sizes := congrArg List.length same
        rw [List.length_append, List.length_cons] at sizes
        have := present value
        omega
      obtain ⟨changed, isOne⟩ := List.length_eq_one_iff.mp one
      rw [isOne] at same
      obtain ⟨rfl, others⟩ := List.cons.inj same
      exact List.forall_mem_cons.mpr ⟨isOne, ih others⟩

/-- A literal text comes back as it is just when it is readable. -/
theorem reread_eq_iff {content : String} : reread content = content ↔ IsReadable content := by
  rw [reread, ← String.toList_inj, String.toList_ofList, flat_map_self_iff reread_char_present]
  simp only [reread_char_iff, IsReadable]

theorem scans_text (content : String) (left : List Char) :
    Scans (DocumentViews.quoted content ++ left) (.text (reread content)) left := by
  refine ⟨'"', content.toList.flatMap escape ++ ['"'], by rw [DocumentViews.quoted]; simp, ?_, by rfl⟩
  rw [List.append_assoc, List.singleton_append, scan, if_neg (by decide), if_neg (by decide), if_pos (.inl rfl),
    quoted_rereads]
  rfl

/-- A text that spells tokens so that they can be read back is split into them. -/
theorem spells_splits {readable : Prop} (holds : readable) (spells : Spells readable text tokens) :
    SplitsInto text tokens := by
  induction spells with
  | done => exact splits_nil
  | gap gap _ ih => exact splits_gap gap ih
  | word _ scans _ ih => exact splits_scans scans ih
  | number valid plain _ spelled follows _ ih =>
      rw [spelled]
      exact splits_scans (scans_number valid (plain holds) follows) ih
  | @text _ left content _ isReadable spelled _ ih =>
      have scans := scans_text content left
      rw [reread_eq_iff.mpr (isReadable holds), ← spelled] at scans
      exact splits_scans scans ih

end DocumentViews.Lexeme
