import DocumentViews.Json.Printer
import DocumentViews.Json.Record

set_option autoImplicit false

namespace DocumentViews.Json

variable {α β τ : Type}

def Takes {input : List Char} (result : Except ReadFault (Parsed input α)) (value : α) (rest : List Char) : Prop :=
  ∃ parsed, result = .ok parsed ∧ parsed.value = value ∧ parsed.rest = rest

theorem value_map {input : List Char} (change : α → β) (parsed : Parsed input α) :
    (parsed.map change).value = change parsed.value := rfl

theorem takes_bind {input outer : List Char} {first : Except ReadFault (Parsed input α)}
    {next : Parsed input α → Except ReadFault (Parsed outer β)} {value : α} {result : β} {rest left : List Char}
    (taken : Takes first value rest) (goes : ∀ shorter, Takes (next ⟨value, rest, shorter⟩) result left) :
    Takes (first >>= next) result left := by
  obtain ⟨⟨_, _, shorter⟩, rfl, rfl, rfl⟩ := taken
  exact goes shorter

def AllBlank (text : List Char) : Prop := ∀ char ∈ text, isBlank char = true

theorem all_blank_nil : AllBlank [] := by simp [AllBlank]

theorem all_blank_new_line (level : Nat) : AllBlank (Value.newLine level) := by
  intro char present
  rcases List.mem_cons.mp present with rfl | blank
  · rfl
  · rw [List.eq_of_mem_replicate blank]
    rfl

theorem all_blank_space : AllBlank [' '] := by simp [AllBlank, isBlank]

def Ends (rest : List Char) : Prop :=
  ∀ char, rest.head? = some char → char.isDigit = false ∧ char ≠ '.' ∧ char ≠ 'e' ∧ char ≠ 'E'

theorem ends_nil : Ends [] := by simp [Ends]

theorem ends_new_line (level : Nat) (rest : List Char) : Ends (Value.newLine level ++ rest) := by
  intro char head
  cases head
  decide

theorem ends_comma (rest : List Char) : Ends (',' :: rest) := by
  intro char head
  cases head
  decide

theorem significant_some {blanks : List Char} (blank : AllBlank blanks) {char : Char} (solid : isBlank char = false)
    (rest : List Char) : ∃ shorter, significant? (blanks ++ char :: rest) = some ⟨char, rest, shorter⟩ := by
  induction blanks with
  | nil =>
      rw [List.nil_append, significant?, if_neg (by simp [solid])]
      exact ⟨_, rfl⟩
  | cons space blanks ih =>
      obtain ⟨shorter, found⟩ := ih fun other present => blank other (List.mem_cons_of_mem _ present)
      rw [List.cons_append, significant?, if_pos (blank space List.mem_cons_self), found]
      exact ⟨_, rfl⟩

theorem significant_takes {blanks : List Char} (blank : AllBlank blanks) {char : Char} (solid : isBlank char = false)
    (rest : List Char) : Takes (significant (blanks ++ char :: rest)) char rest := by
  obtain ⟨shorter, found⟩ := significant_some blank solid rest
  rw [significant, found]
  exact ⟨_, rfl, rfl, rfl⟩

theorem significant_takes_first {char : Char} (solid : isBlank char = false) (rest : List Char) :
    Takes (significant (char :: rest)) char rest := significant_takes all_blank_nil solid rest

theorem hex_digit_of_digit_char : ∀ digit : Fin 16, hexDigit? (Nat.digitChar digit) = some digit.val := by decide

theorem escaped_takes {mark char : Char} (plain : plainEscape? mark = some char) (rest : List Char) :
    Takes (escaped (mark :: rest)) char rest := by
  have other : mark ≠ 'u' := by
    rintro rfl
    cases plain
  refine ⟨.first char rest, ?_, rfl, rfl⟩
  rw [escaped]
  · simp only [plain]
  · exact other

theorem escaped_takes_control {char : Char} (control : char.toNat < 0x20) (rest : List Char) :
    Takes (escaped ('u' :: '0' :: '0' :: Nat.digitChar (char.toNat / 16) :: Nat.digitChar (char.toNat % 16) :: rest))
      char rest := by
  have high : hexDigit? (Nat.digitChar (char.toNat / 16)) = some (char.toNat / 16) :=
    hex_digit_of_digit_char ⟨char.toNat / 16, by omega⟩
  have low : hexDigit? (Nat.digitChar (char.toNat % 16)) = some (char.toNat % 16) :=
    hex_digit_of_digit_char ⟨char.toNat % 16, by omega⟩
  have zero : hexDigit? '0' = some 0 := by decide
  have unit : Takes (codeUnit ('0' :: '0' :: Nat.digitChar (char.toNat / 16) :: Nat.digitChar (char.toNat % 16) :: rest))
      char.toNat rest := by
    simp only [codeUnit, zero, high, low]
    refine ⟨_, rfl, ?_, rfl⟩
    dsimp only
    omega
  rw [escaped]
  apply takes_bind unit
  intro shorter
  have noHigh : ¬ (0xDC00 ≤ char.toNat ∧ char.toNat ≤ 0xDFFF) := by omega
  have noLow : ¬ (0xD800 ≤ char.toNat ∧ char.toNat ≤ 0xDBFF) := by omega
  rw [if_neg noHigh, if_neg noLow]
  exact ⟨_, rfl, Char.ofNat_toNat char, rfl⟩

theorem quoted_rest_takes_escaped {text : List Char} {char : Char} {tail chars rest : List Char}
    (first : Takes (escaped text) char tail) (others : Takes (quotedRest tail) chars rest) :
    Takes (quotedRest ('\\' :: text)) (char :: chars) rest := by
  rw [quotedRest]
  refine takes_bind first fun shorter => takes_bind others fun less => ?_
  exact ⟨_, rfl, rfl, rfl⟩

theorem escape_cases (char : Char) :
    (∃ mark, escape char = ['\\', mark] ∧ plainEscape? mark = some char) ∨
      (char.toNat < 0x20 ∧ escape char =
        ['\\', 'u', '0', '0', Nat.digitChar (char.toNat / 16), Nat.digitChar (char.toNat % 16)]) ∨
      (char ≠ '"' ∧ char ≠ '\\' ∧ ¬ char.toNat < 0x20 ∧ escape char = [char]) := by
  by_cases known : char ∈ ['"', '\\', '\x08', '\x0c', '\n', '\r', '\t']
  · left
    simp only [List.mem_cons, List.not_mem_nil, or_false] at known
    rcases known with rfl | rfl | rfl | rfl | rfl | rfl | rfl <;> exact ⟨_, rfl, rfl⟩
  · right
    simp only [List.mem_cons, List.not_mem_nil, or_false, not_or] at known
    obtain ⟨quote, backslash, back, form, line, carriage, tab⟩ := known
    by_cases control : char.toNat < 0x20
    · exact .inl ⟨control, by simp [escape, quote, backslash, back, form, line, carriage, tab, control]⟩
    · exact .inr ⟨quote, backslash, control,
        by simp [escape, quote, backslash, back, form, line, carriage, tab, control]⟩

theorem quoted_rest_takes_char (char : Char) {tail chars rest : List Char} (others : Takes (quotedRest tail) chars rest) :
    Takes (quotedRest (escape char ++ tail)) (char :: chars) rest := by
  rcases escape_cases char with ⟨mark, spelled, plain⟩ | ⟨control, spelled⟩ | ⟨quote, backslash, visible, spelled⟩
  · rw [spelled]
    exact quoted_rest_takes_escaped (escaped_takes plain tail) others
  · rw [spelled]
    exact quoted_rest_takes_escaped (escaped_takes_control control tail) others
  · rw [spelled, List.singleton_append, quotedRest]
    · rw [if_neg visible]
      apply takes_bind others
      intro shorter
      exact ⟨_, rfl, rfl, rfl⟩
    · exact quote
    · exact backslash

theorem quoted_rest_takes (chars rest : List Char) :
    Takes (quotedRest (chars.flatMap escape ++ '"' :: rest)) chars rest := by
  induction chars with
  | nil =>
      rw [List.flatMap_nil, List.nil_append, quotedRest]
      exact ⟨_, rfl, rfl, rfl⟩
  | cons char chars ih =>
      rw [List.flatMap_cons, List.append_assoc]
      exact quoted_rest_takes_char char ih

theorem quoted_append (text : String) (rest : List Char) :
    quoted text ++ rest = '"' :: (text.toList.flatMap escape ++ '"' :: rest) := by
  simp [quoted]

theorem string_takes (text : String) (rest : List Char) :
    Takes (string (text.toList.flatMap escape ++ '"' :: rest)) text rest := by
  apply takes_bind (quoted_rest_takes text.toList rest)
  intro shorter
  exact ⟨_, rfl, String.ofList_toList, rfl⟩

theorem take_while_digits (number : Nat) {rest : List Char} (ends : Ends rest) :
    (Nat.toDigits 10 number ++ rest).takeWhile Char.isDigit = Nat.toDigits 10 number ∧
      (Nat.toDigits 10 number ++ rest).dropWhile Char.isDigit = rest := by
  have digits : ∀ char ∈ Nat.toDigits 10 number, char.isDigit = true := fun char present =>
    Nat.isDigit_of_mem_toDigits (by decide) (by decide) present
  have none : rest.takeWhile Char.isDigit = [] ∧ rest.dropWhile Char.isDigit = rest := by
    cases rest with
    | nil => exact ⟨rfl, rfl⟩
    | cons char rest => simp [(ends char rfl).1]
  rw [List.takeWhile_append_of_pos digits, List.dropWhile_append_of_pos digits, none.1, none.2]
  exact ⟨List.append_nil _, rfl⟩

theorem to_digits_head (number : Nat) : ∃ digit more, Nat.toDigits 10 number = digit :: more ∧ digit.isDigit = true ∧
    (digit = '0' → more = []) := by
  -- By division by ten, which is how the digits are written.
  induction number using Nat.strongRecOn with
  | ind number ih =>
      by_cases small : number < 10
      · rw [Nat.toDigits_of_lt_base small]
        exact ⟨_, _, rfl, by simp [Nat.isDigit_digitChar, small], fun _ => rfl⟩
      · rw [Nat.toDigits_of_base_le (by decide) (by omega)]
        obtain ⟨digit, more, split, isDigit, zero⟩ := ih (number / 10) (by omega)
        refine ⟨digit, more ++ [Nat.digitChar (number % 10)], by rw [split, List.cons_append], isDigit, ?_⟩
        intro leading
        have single : Nat.ofDigitChars 10 (Nat.toDigits 10 (number / 10)) 0 = 0 := by
          rw [split, leading, zero leading]
          rfl
        rw [Nat.ofDigitChars_ten_toDigits] at single
        omega

theorem digits_take (number : Nat) {rest : List Char} (ends : Ends rest) (atEnd : ReadFault) :
    Takes (digits atEnd (Nat.toDigits 10 number ++ rest)) (Nat.toDigits 10 number) rest := by
  obtain ⟨taken, left⟩ := take_while_digits number ends
  obtain ⟨digit, more, split, isDigit, _⟩ := to_digits_head number
  rw [split] at taken left ⊢
  rw [List.cons_append, List.takeWhile_cons, if_pos isDigit] at taken
  rw [List.cons_append, List.dropWhile_cons, if_pos isDigit] at left
  rw [List.cons_append, digits, if_pos isDigit]
  exact ⟨_, rfl, taken, left⟩

theorem tail_part_ends {rest : List Char} (ends : Ends rest) (atEnd : ReadFault) (negative : Bool)
    (whole fraction : List Char) :
    tailPart atEnd negative whole fraction rest = .ok (⟨negative, whole, fraction, none⟩, ⟨rest, Nat.le_refl _⟩) := by
  cases rest with
  | nil => rfl
  | cons char rest =>
      obtain ⟨_, _, small, great⟩ := ends char rfl
      rw [tailPart]
      · exact fun _ same => small (List.cons.inj same).1
      · exact fun _ same => great (List.cons.inj same).1

theorem unsigned_takes (number : Nat) {rest : List Char} (ends : Ends rest) (atEnd : ReadFault) :
    Takes (unsigned atEnd false (Nat.toDigits 10 number ++ rest)) ⟨false, Nat.toDigits 10 number, [], none⟩ rest := by
  apply takes_bind (digits_take number ends atEnd)
  intro shorter
  have noLeadingZero : ¬ ((Nat.toDigits 10 number).length > 1 ∧ (Nat.toDigits 10 number).head? = some '0') := by
    obtain ⟨digit, more, split, _, zero⟩ := to_digits_head number
    rw [split]
    rintro ⟨long, leading⟩
    cases leading
    rw [zero rfl] at long
    exact absurd long (by decide)
  dsimp only
  rw [if_neg noLeadingZero]
  split
  next tail =>
    exact absurd rfl (ends '.' rfl).2.1
  next =>
    rw [tail_part_ends ends]
    exact ⟨_, rfl, rfl, rfl⟩

theorem natural_of_digits (digits : List Char) (start : Nat) :
    digits.foldl (fun number char => number * 10 + Numeral.digitValue char) start = Nat.ofDigitChars 10 digits start := by
  induction digits generalizing start with
  | nil => rfl
  | cons digit digits ih =>
      rw [List.foldl_cons, ih, Nat.ofDigitChars_cons, Nat.mul_comm]
      rfl

theorem to_number_natural {number : Nat} (bounded : number < UInt64.size) :
    (⟨false, Nat.toDigits 10 number, [], none⟩ : Numeral).toNumber? = some (.ofInt number) := by
  have whole : Numeral.naturalOf (Nat.toDigits 10 number) = number := by
    rw [Numeral.naturalOf, natural_of_digits, Nat.ofDigitChars_ten_toDigits]
  simp [Numeral.toNumber?, whole, bounded]

theorem number_takes {number : Nat} (bounded : number < UInt64.size) {rest : List Char} (ends : Ends rest) :
    Takes (Json.number false (Nat.toDigits 10 number ++ rest)) (.ofInt number) rest := by
  apply takes_bind (unsigned_takes number ends .incomplete)
  intro shorter
  dsimp only
  rw [to_number_natural bounded]
  exact ⟨_, rfl, value_map _ _, rfl⟩

end DocumentViews.Json
