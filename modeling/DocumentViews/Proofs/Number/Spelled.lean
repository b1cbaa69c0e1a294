import Mathlib.Data.Nat.Cast.Field
import DocumentViews.Json.Printer
import DocumentViews.Proofs.Number.Packing
import DocumentViews.Proofs.Number.Shortest

set_option autoImplicit false

namespace DocumentViews

structure DecimalNumeral where
  whole : List Char
  fraction : List Char
  power : Option Int

namespace DecimalNumeral

structure Valid (numeral : DecimalNumeral) : Prop where
  present : numeral.whole ≠ []
  areDigits : ∀ char ∈ numeral.whole ++ numeral.fraction, char.isDigit = true

def powerChars : Option Int → List Char
  | none => []
  | some power => 'e' :: (if power < 0 then '-' else '+') :: Nat.toDigits 10 power.natAbs

def fractionChars : List Char → List Char
  | [] => []
  | digits => '.' :: digits

def chars (numeral : DecimalNumeral) : List Char :=
  numeral.whole ++ (fractionChars numeral.fraction ++ powerChars numeral.power)

def digits (numeral : DecimalNumeral) : Nat := Nat.ofDigitChars 10 (numeral.whole ++ numeral.fraction) 0

def exponent (numeral : DecimalNumeral) : Int := numeral.power.getD 0 - numeral.fraction.length

def toFloat (numeral : DecimalNumeral) : Float := Dyadic.nearestDecimal false numeral.digits numeral.exponent

-- A numeral with the value of these digits, the first of which stands at that power of ten.
structure Tells (numeral : DecimalNumeral) (digits : List Char) (first : Int) : Prop where
  valid : numeral.Valid
  value : (numeral.digits : ℚ) * 10 ^ numeral.exponent =
    Nat.ofDigitChars 10 digits 0 * 10 ^ (first + 1 - digits.length)

end DecimalNumeral

variable {digits : List Char} {first : Int}

theorem shifted_value (number shift : Nat) (exponent : Int) :
    ((10 ^ shift * number : Nat) : ℚ) * 10 ^ exponent = number * 10 ^ (exponent + shift) := by
  rw [zpow_add₀ (by norm_num), zpow_natCast, Nat.cast_mul, Nat.cast_pow]
  push_cast
  ring

theorem small_plain_tells (areDigits : ∀ char ∈ digits, char.isDigit = true) (present : digits ≠ []) (small : first < 0) :
    ∃ numeral : DecimalNumeral, NumberLayout.json.plain digits first = numeral.chars ∧ numeral.Tells digits first := by
  refine ⟨⟨['0'], List.replicate (-first - 1).toNat '0' ++ digits, none⟩, ?_, ⟨List.cons_ne_nil _ _, ?_⟩, ?_⟩
  · obtain ⟨digit, others, split⟩ := List.exists_cons_of_ne_nil
      (show List.replicate (-first - 1).toNat '0' ++ digits ≠ [] by simp [present])
    rw [NumberLayout.plain, if_pos small, split]
    simp [DecimalNumeral.chars, DecimalNumeral.fractionChars, DecimalNumeral.powerChars]
  · intro char member
    rcases List.mem_append.mp member with zero | member
    · rw [List.mem_singleton.mp zero]
      rfl
    · rcases List.mem_append.mp member with zero | digit
      · rw [List.eq_of_mem_replicate zero]
        rfl
      · exact areDigits char digit
  · have value : Nat.ofDigitChars 10 (['0'] ++ (List.replicate (-first - 1).toNat '0' ++ digits)) 0 =
        Nat.ofDigitChars 10 digits 0 := by
      rw [List.singleton_append, Nat.ofDigitChars_cons, Nat.ofDigitChars_append, Nat.ofDigitChars_replicate_zero]
      rfl
    simp only [DecimalNumeral.digits, DecimalNumeral.exponent, value, Option.getD_none, List.length_append,
      List.length_replicate]
    congr 2
    omega

theorem great_plain_tells (areDigits : ∀ char ∈ digits, char.isDigit = true) (present : digits ≠ []) (great : ¬ first < 0) :
    ∃ numeral : DecimalNumeral, NumberLayout.json.plain digits first = numeral.chars ∧ numeral.Tells digits first := by
  rw [NumberLayout.plain, if_neg great]
  by_cases integral : digits.length ≤ first.toNat + 1
  · refine ⟨⟨digits ++ List.replicate (first.toNat + 1 - digits.length) '0', ['0'], none⟩, ?_, ⟨by simp [present], ?_⟩, ?_⟩
    · simp [DecimalNumeral.chars, DecimalNumeral.fractionChars, DecimalNumeral.powerChars,
        List.take_of_length_le integral, List.drop_of_length_le integral, NumberLayout.json]
    · intro char member
      simp only [List.append_assoc, List.mem_append, List.mem_replicate, List.mem_singleton] at member
      rcases member with digit | ⟨_, rfl⟩ | rfl
      · exact areDigits char digit
      · rfl
      · rfl
    · have value : Nat.ofDigitChars 10 (digits ++ List.replicate (first.toNat + 1 - digits.length) '0' ++ ['0']) 0 =
          10 ^ (first.toNat + 1 - digits.length + 1) * Nat.ofDigitChars 10 digits 0 := by
        rw [List.append_assoc, ← List.replicate_succ', Nat.ofDigitChars_append, Nat.ofDigitChars_replicate_zero]
      simp only [DecimalNumeral.digits, DecimalNumeral.exponent, value, Option.getD_none, List.length_singleton,
        shifted_value]
      congr 2
      omega
  · have split : digits.take (first.toNat + 1) ++ digits.drop (first.toNat + 1) = digits := List.take_append_drop _ _
    obtain ⟨digit, others, isFraction⟩ := List.exists_cons_of_ne_nil
      (show digits.drop (first.toNat + 1) ≠ [] by simp; omega)
    refine ⟨⟨digits.take (first.toNat + 1), digits.drop (first.toNat + 1), none⟩, ?_, ⟨by simp [present], ?_⟩, ?_⟩
    · simp [DecimalNumeral.chars, DecimalNumeral.fractionChars, DecimalNumeral.powerChars, isFraction,
        Nat.sub_eq_zero_of_le (Nat.le_of_not_le integral)]
    · rw [split]
      exact areDigits
    · simp only [DecimalNumeral.digits, DecimalNumeral.exponent, split, Option.getD_none, List.length_drop]
      congr 2
      omega

theorem scientific_tells (areDigits : ∀ char ∈ digits, char.isDigit = true) (present : digits ≠ []) (first : Int) :
    ∃ numeral : DecimalNumeral, NumberLayout.scientific digits first = numeral.chars ∧ numeral.Tells digits first := by
  obtain ⟨digit, others, rfl⟩ := List.exists_cons_of_ne_nil present
  refine ⟨⟨[digit], others, some first⟩, ?_, ⟨List.cons_ne_nil _ _, areDigits⟩, ?_⟩
  · cases others <;>
      simp [NumberLayout.scientific, DecimalNumeral.chars, DecimalNumeral.fractionChars, DecimalNumeral.powerChars]
  · simp only [DecimalNumeral.digits, DecimalNumeral.exponent, Option.getD_some, List.singleton_append, List.length_cons]
    congr 2
    push_cast
    ring

theorem significant_spec (decimal : Decimal) (positive : 0 < decimal.digits) :
    decimal.significant ≠ [] ∧ (∀ char ∈ decimal.significant, char.isDigit = true) ∧
      (Nat.ofDigitChars 10 decimal.significant 0 : ℚ) * 10 ^ (decimal.firstExponent + 1 - decimal.significant.length) =
        decimal.digits * 10 ^ decimal.exponent := by
  obtain ⟨zeros, split⟩ : ∃ zeros, Nat.toDigits 10 decimal.digits = decimal.significant ++ List.replicate zeros '0' := by
    generalize written : Nat.toDigits 10 decimal.digits = text
    refine ⟨(text.reverse.takeWhile (· = '0')).length, ?_⟩
    have zeros : ∀ char ∈ text.reverse.takeWhile (· = '0'), char = '0' := fun char member =>
      of_decide_eq_true (List.all_eq_true.mp List.all_takeWhile char member)
    have halves := congrArg List.reverse (List.takeWhile_append_dropWhile (p := (· = '0')) (l := text.reverse))
    rw [List.reverse_append, List.reverse_reverse, List.eq_replicate_of_mem zeros, List.reverse_replicate] at halves
    rw [Decimal.significant, written]
    exact halves.symm
  have value : Nat.ofDigitChars 10 (Nat.toDigits 10 decimal.digits) 0 = decimal.digits := Nat.ofDigitChars_ten_toDigits
  rw [split, Nat.ofDigitChars_append, Nat.ofDigitChars_replicate_zero] at value
  have length : decimal.firstExponent = decimal.exponent + (decimal.significant.length + zeros) - 1 := by
    rw [Decimal.firstExponent, split, List.length_append, List.length_replicate, Nat.cast_add]
  refine ⟨?_, ?_, ?_⟩
  · intro empty
    rw [empty] at value
    simp at value
    omega
  · intro char member
    refine Nat.isDigit_of_mem_toDigits (b := 10) (n := decimal.digits) (by decide) (by decide) ?_
    rw [split]
    exact List.mem_append_left _ member
  · conv_rhs => rw [← value]
    rw [shifted_value, length]
    congr 2
    ring

theorem magnitude_tells {decimal : Decimal} (positive : 0 < decimal.digits) :
    ∃ numeral : DecimalNumeral, numeral.Valid ∧
      (if NumberLayout.json.isPlain decimal.firstExponent then
        NumberLayout.json.plain decimal.significant decimal.firstExponent
      else NumberLayout.scientific decimal.significant decimal.firstExponent) = numeral.chars ∧
      (numeral.digits : ℚ) * 10 ^ numeral.exponent = decimal.digits * 10 ^ decimal.exponent := by
  obtain ⟨present, areDigits, value⟩ := significant_spec decimal positive
  split
  next =>
    by_cases small : decimal.firstExponent < 0
    · obtain ⟨numeral, written, tells⟩ := small_plain_tells areDigits present small
      exact ⟨numeral, tells.valid, written, tells.value.trans value⟩
    · obtain ⟨numeral, written, tells⟩ := great_plain_tells areDigits present small
      exact ⟨numeral, tells.valid, written, tells.value.trans value⟩
  next =>
    obtain ⟨numeral, written, tells⟩ := scientific_tells areDigits present decimal.firstExponent
    exact ⟨numeral, tells.valid, written, tells.value.trans value⟩

theorem numeral_nearest {numeral : DecimalNumeral} {numerator denominator : Nat} (present : 0 < denominator)
    (value : (numeral.digits : ℚ) * 10 ^ numeral.exponent = numerator / denominator) :
    numeral.toFloat = Dyadic.nearest false numerator denominator := by
  rw [DecimalNumeral.toFloat, Dyadic.nearestDecimal, Dyadic.nearest, Dyadic.nearest]
  rw [Dyadic.nearest_congr (Dyadic.power_below_pos 10 (by decide) _) present]
  rw [Decimal.decimal_ratio, value]

structure Held (bits mantissa : Nat) (unit : Int) : Prop where
  isDyadic : Dyadic.ofFloat? (Float.ofBits bits.toUInt64) = some ⟨false, mantissa, unit⟩
  normal : Dyadic.Normal mantissa unit
  bound : unit ≤ 971
  isBits : Dyadic.bitsOf mantissa unit = bits
  finite : bits < Dyadic.infinityBits
  nonzero : bits ≠ 0

theorem held_of_bits {bits : Nat} (finite : bits < Dyadic.infinityBits) (nonzero : bits ≠ 0) :
    ∃ mantissa unit, Held bits mantissa unit := by
  obtain ⟨mantissa, unit, isDyadic, normal, bound, isBits⟩ := of_float_of_bits finite nonzero
  exact ⟨mantissa, unit, isDyadic, normal, bound, isBits, finite, nonzero⟩

variable {bits mantissa numerator denominator : Nat} {unit : Int}

theorem Held.nearest (held : Held bits mantissa unit) (present : 0 < denominator)
    (same : (numerator / denominator : ℚ) = mantissa * 2 ^ unit) : Dyadic.nearestBits numerator denominator = bits := by
  rw [Dyadic.nearest_exact held.normal present same, held.isBits, Nat.min_eq_right held.finite.le]

theorem own_ratio (negative : Bool) (mantissa : Nat) (unit : Int) :
    (((⟨negative, mantissa, unit⟩ : Dyadic).ratio.1 : ℚ) / (⟨negative, mantissa, unit⟩ : Dyadic).ratio.2) =
      mantissa * 2 ^ unit := by
  simp only [Dyadic.ratio]
  rw [Nat.cast_mul, mul_div_assoc, Dyadic.power_ratio (by decide)]
  norm_num

theorem own_ratio_present (negative : Bool) (mantissa : Nat) (unit : Int) :
    0 < (⟨negative, mantissa, unit⟩ : Dyadic).ratio.2 := Dyadic.power_below_pos 2 (by decide) unit

theorem Held.integer_spelled (held : Held bits mantissa unit) {whole : Nat} (small : whole < 0x8000000000000000)
    (same : (whole : ℚ) = mantissa * 2 ^ unit) :
    ∃ numeral : DecimalNumeral, numeral.Valid ∧ (Number.ofInt whole).chars = numeral.chars ∧
      numeral.toFloat = Float.ofBits bits.toUInt64 := by
  refine ⟨⟨Nat.toDigits 10 whole, [], none⟩, ⟨Nat.toDigits_ne_nil, fun char member => ?_⟩, ?_, ?_⟩
  · rw [List.append_nil] at member
    exact Nat.isDigit_of_mem_toDigits (by decide) (by decide) member
  · have inRange : -0x8000000000000000 ≤ (whole : Int) ∧ (whole : Int) < 0x10000000000000000 := by omega
    rw [Number.ofInt, dif_pos inRange, Number.chars, if_neg (by omega)]
    simp [DecimalNumeral.chars, DecimalNumeral.fractionChars, DecimalNumeral.powerChars]
  · have value : ((⟨Nat.toDigits 10 whole, [], none⟩ : DecimalNumeral).digits : ℚ) *
        10 ^ (⟨Nat.toDigits 10 whole, [], none⟩ : DecimalNumeral).exponent = whole / (1 : Nat) := by
      simp [DecimalNumeral.digits, DecimalNumeral.exponent]
    rw [numeral_nearest Nat.one_pos value, Dyadic.nearest, held.nearest Nat.one_pos (by simpa using same)]
    rfl

theorem Held.double_spelled (held : Held bits mantissa unit) :
    ∃ numeral : DecimalNumeral, numeral.Valid ∧
      (Number.double (Float.ofBits bits.toUInt64)).chars = numeral.chars ∧
      numeral.toFloat = Float.ofBits bits.toUInt64 := by
  have ratio := own_ratio false mantissa unit
  have present := own_ratio_present false mantissa unit
  have reads := Decimal.shortest_reads held.normal held.bound present ratio .even
  rw [held.nearest present ratio] at reads
  have positive : 0 < (Decimal.shortest (⟨false, mantissa, unit⟩ : Dyadic).ratio.1
      (⟨false, mantissa, unit⟩ : Dyadic).ratio.2 .even).digits := by
    refine Nat.pos_of_ne_zero fun zero => held.nonzero ?_
    rw [← reads, zero, Nat.zero_mul, Dyadic.nearestBits, if_pos rfl]
  obtain ⟨numeral, valid, written, value⟩ := magnitude_tells positive
  refine ⟨numeral, valid, ?_, ?_⟩
  · rw [← written, Number.chars, NumberLayout.write, held.isDyadic]
    simp only [held.normal.positive.ne', if_false, Bool.false_eq_true, String.toList_ofList]
    rfl
  · have ownValue := value.trans (Decimal.decimal_ratio _ _).symm
    rw [numeral_nearest (Dyadic.power_below_pos 10 (by decide) _) ownValue, Dyadic.nearest]
    rw [show Dyadic.nearestBits _ _ = bits from reads]
    rfl

/-- A number that is nearest to a ratio without a sign is written as a numeral to which it is
nearest, or it is not finite. -/
theorem nearest_spelled (numerator denominator : Nat) :
    Value.ofFloat (Dyadic.nearest false numerator denominator) = .null ∨ ∃ number, ∃ numeral : DecimalNumeral,
      Value.ofFloat (Dyadic.nearest false numerator denominator) = .number number ∧ numeral.Valid ∧
        number.chars = numeral.chars ∧ numeral.toFloat = Dyadic.nearest false numerator denominator := by
  have made : Dyadic.nearest false numerator denominator =
      Float.ofBits (Dyadic.nearestBits numerator denominator).toUInt64 := rfl
  have bounded := nearest_le numerator denominator
  rw [made]
  generalize Dyadic.nearestBits numerator denominator = bits at bounded
  rcases Nat.eq_or_lt_of_le bounded with rfl | finite
  · exact .inl (of_float_infinite (by decide +kernel))
  by_cases zero : bits = 0
  · subst zero
    refine .inr ⟨.ofInt 0, ⟨['0'], [], none⟩, of_float_zero ?_ ?_, ⟨List.cons_ne_nil _ _, by simp⟩, rfl, rfl⟩
    · rw [to_bits_of_bits finite, Binary64.biased]
    · rw [to_bits_of_bits finite, Binary64.fraction]
  right
  obtain ⟨mantissa, unit, held⟩ := held_of_bits finite zero
  have ratio := own_ratio false mantissa unit
  have present := own_ratio_present false mantissa unit
  obtain ⟨double, doubleValid, doubleWritten, doubleRead⟩ := held.double_spelled
  simp only [Value.ofFloat, held.isDyadic, Dyadic.toInt?]
  generalize (⟨false, mantissa, unit⟩ : Dyadic).ratio.1 = numerator at ratio
  generalize (⟨false, mantissa, unit⟩ : Dyadic).ratio.2 = denominator at ratio present
  by_cases integral : numerator % denominator = 0
  · have size : (if false = true then -((numerator / denominator : Nat) : Int) else (numerator / denominator : Nat)).natAbs =
        numerator / denominator := rfl
    simp only [if_pos integral, size]
    by_cases small : numerator / denominator < 0x8000000000000000
    · have same : ((numerator / denominator : Nat) : ℚ) = mantissa * 2 ^ unit := by
        rw [Nat.cast_div (Nat.dvd_of_mod_eq_zero integral) (by exact_mod_cast present.ne'), ratio]
      obtain ⟨numeral, valid, written, read⟩ := held.integer_spelled small same
      exact ⟨_, numeral, if_pos small, valid, written, read⟩
    · exact ⟨_, double, if_neg small, doubleValid, doubleWritten, doubleRead⟩
  · rw [if_neg integral]
    exact ⟨_, double, rfl, doubleValid, doubleWritten, doubleRead⟩

end DocumentViews
