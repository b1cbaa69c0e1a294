import Mathlib
import DocumentViews.Proofs.Query.Spells

set_option autoImplicit false

namespace DocumentViews

namespace Number

def Finite : Number → Prop
  | .integer _ _ => True
  | .double value => Dyadic.ofFloat? value ≠ none

def unsignedFloat (value : Float) : Float :=
  if value.toBits = 0x8000000000000000 then Float.ofBits 0 else value

def unsigned : Number → Number
  | .integer value inRange => .integer value inRange
  | .double value => .double (unsignedFloat value)

end Number

def signChars (negative : Bool) : List Char := if negative then ['-'] else []

theorem double_signed {value other : Float} {negative : Bool} {mantissa : Nat} {unit : Int}
    (isDyadic : Dyadic.ofFloat? value = some ⟨negative, mantissa, unit⟩)
    (otherDyadic : Dyadic.ofFloat? other = some ⟨false, mantissa, unit⟩) :
    (Number.double value).chars = signChars negative ++ (Number.double other).chars := by
  simp only [Number.chars, NumberLayout.write, isDyadic, otherDyadic, String.toList_ofList, Bool.false_eq_true, if_false]
  cases negative <;> rfl

theorem magnitude_marked (numerator denominator : Nat) :
    ∃ char ∈ NumberLayout.json.magnitude numerator denominator, char = '.' ∨ char = 'e' := by
  rw [NumberLayout.magnitude]
  split
  next =>
    refine ⟨'.', ?_, .inl rfl⟩
    rw [NumberLayout.plain]
    split
    next => simp
    next =>
      dsimp only
      split <;> simp [NumberLayout.json]
  next =>
    refine ⟨'e', ?_, .inr rfl⟩
    simp [NumberLayout.scientific]

theorem double_marked {value : Float} (finite : Dyadic.ofFloat? value ≠ none) :
    ∃ char ∈ (Number.double value).chars, char = '.' ∨ char = 'e' := by
  obtain ⟨exact, isDyadic⟩ := Option.ne_none_iff_exists'.mp finite
  obtain ⟨char, member, mark⟩ : ∃ char ∈ (if exact.mantissa = 0 then ['0', '.', '0'] else
      NumberLayout.json.magnitude exact.ratio.1 exact.ratio.2), char = '.' ∨ char = 'e' := by
    split
    next => exact ⟨'.', by simp, .inl rfl⟩
    next => exact magnitude_marked _ _
  refine ⟨char, ?_, mark⟩
  simp only [Number.chars, NumberLayout.write, isDyadic, String.toList_ofList]
  split
  next => exact List.mem_cons_of_mem _ member
  next => exact member

theorem finite_bits {value : Float} (finite : Dyadic.ofFloat? value ≠ none) :
    ∃ (negative : Bool) (bits : Nat), bits < Dyadic.infinityBits ∧
      value.toBits.toNat = bits + (if negative then 0x8000000000000000 else 0) ∧
      ∃ mantissa unit, Dyadic.ofFloat? value = some ⟨negative, mantissa, unit⟩ ∧
        Dyadic.ofFloat? (Float.ofBits bits.toUInt64) = some ⟨false, mantissa, unit⟩ := by
  have bound : value.toBits.toNat < 0x10000000000000000 := value.toBits.toNat_lt
  generalize wholeBits : value.toBits.toNat = whole at bound
  have notOnes : whole / 0x10000000000000 % 0x800 ≠ 2047 := by
    intro ones
    refine finite ?_
    simp only [Dyadic.ofFloat?, wholeBits, ones]
    rfl
  have below : whole % 0x8000000000000000 < Dyadic.infinityBits := by
    rw [Dyadic.infinityBits]
    omega
  have fractions : whole % 0x8000000000000000 % 0x10000000000000 = whole % 0x10000000000000 := by omega
  have exponents : whole % 0x8000000000000000 / 0x10000000000000 % 0x800 = whole / 0x10000000000000 % 0x800 := by omega
  have noSign : whole % 0x8000000000000000 / 0x8000000000000000 ≠ 1 := by omega
  refine ⟨decide (whole / 0x8000000000000000 = 1), whole % 0x8000000000000000, below, ?_, ?_⟩
  · by_cases signed : whole / 0x8000000000000000 = 1
    · rw [decide_eq_true signed, if_pos rfl]
      omega
    · rw [decide_eq_false signed, if_neg (by decide)]
      omega
  · simp only [Dyadic.ofFloat?, wholeBits, to_bits_of_bits below, fractions, exponents, decide_eq_false noSign,
      if_neg notOnes]
    split
    next => exact ⟨_, _, rfl, rfl⟩
    next => exact ⟨_, _, rfl, rfl⟩

inductive Number.Spelled : Number → Bool → DecimalNumeral → Prop
  | integer (value : Int) (inRange : -0x8000000000000000 ≤ value ∧ value < 0x10000000000000000) :
      Spelled (.integer value inRange) (decide (value < 0)) ⟨Nat.toDigits 10 value.natAbs, [], none⟩
  | double {value : Float} {negative : Bool} {numeral : DecimalNumeral} : numeral.fraction ≠ [] ∨ numeral.power ≠ none →
      value.toBits.toNat = numeral.toFloat.toBits.toNat + (if negative then 0x8000000000000000 else 0) →
      Spelled (.double value) negative numeral

theorem magnitude_spelled {bits : Nat} (finite : bits < Dyadic.infinityBits) :
    ∃ numeral : DecimalNumeral, numeral.Valid ∧ (Number.double (Float.ofBits bits.toUInt64)).chars = numeral.chars ∧
      numeral.toFloat = Float.ofBits bits.toUInt64 := by
  by_cases zero : bits = 0
  · subst zero
    exact ⟨⟨['0'], ['0'], none⟩, ⟨by simp, by simp⟩, by decide +kernel, rfl⟩
  · obtain ⟨mantissa, unit, held⟩ := held_of_bits finite zero
    exact held.double_spelled

theorem marked_numeral {numeral : DecimalNumeral} (valid : numeral.Valid)
    (marked : ∃ char ∈ numeral.chars, char = '.' ∨ char = 'e') : numeral.fraction ≠ [] ∨ numeral.power ≠ none := by
  by_contra plain
  rw [not_or, not_not, not_not] at plain
  obtain ⟨char, member, mark⟩ := marked
  rw [DecimalNumeral.chars, plain.1, plain.2] at member
  simp only [DecimalNumeral.fractionChars, DecimalNumeral.powerChars, List.append_nil] at member
  have digit := valid.areDigits char (List.mem_append_left _ member)
  rcases mark with rfl | rfl <;> cases digit

theorem Number.is_spelled {number : Number} (finite : number.Finite) : ∃ negative numeral, number.Spelled negative numeral ∧
    numeral.Valid ∧ number.chars = signChars negative ++ numeral.chars := by
  cases number with
  | integer value inRange =>
      refine ⟨_, _, .integer value inRange, ⟨Nat.toDigits_ne_nil, fun char member => ?_⟩, ?_⟩
      · rw [List.append_nil] at member
        exact Nat.isDigit_of_mem_toDigits (by decide) (by decide) member
      · simp [Number.chars, signChars, DecimalNumeral.chars, DecimalNumeral.fractionChars, DecimalNumeral.powerChars]
  | double value =>
      obtain ⟨negative, bits, below, whole, mantissa, unit, isDyadic, otherDyadic⟩ := finite_bits finite
      obtain ⟨numeral, valid, written, read⟩ := magnitude_spelled below
      have marked : ∃ char ∈ numeral.chars, char = '.' ∨ char = 'e' := by
        rw [← written]
        refine double_marked ?_
        rw [otherDyadic]
        exact Option.some_ne_none _
      refine ⟨negative, numeral, .double (marked_numeral valid marked) ?_, valid, ?_⟩
      · rw [read, to_bits_of_bits below, whole]
      · rw [double_signed isDyadic otherDyadic, written]

theorem Number.Spelled.unique {number other : Number} {negative : Bool} {numeral : DecimalNumeral}
    (spelled : number.Spelled negative numeral) (otherSpelled : other.Spelled negative numeral) : number = other := by
  cases spelled with
  | integer value inRange =>
      generalize signs : decide (value < 0) = negative at otherSpelled
      generalize numerals : (⟨Nat.toDigits 10 value.natAbs, [], none⟩ : DecimalNumeral) = numeral at otherSpelled
      cases otherSpelled with
      | integer otherValue otherInRange =>
          have sizes := congrArg (Nat.ofDigitChars 10 · 0) (DecimalNumeral.mk.inj numerals).1
          simp only [Nat.ofDigitChars_ten_toDigits] at sizes
          have same : value = otherValue := by
            rw [decide_eq_decide] at signs
            omega
          subst same
          rfl
      | double marked _ =>
          subst numerals
          simp at marked
  | double marked bits =>
      cases otherSpelled with
      | integer _ _ => simp at marked
      | double _ otherBits =>
          rw [Float.toBits_inj.mp (UInt64.toNat_inj.mp (bits.trans otherBits.symm))]

theorem signs_unique {negative otherNegative : Bool} {numeral other : DecimalNumeral} {left otherLeft : List Char}
    (valid : numeral.Valid) (otherValid : other.Valid)
    (same : signChars negative ++ numeral.chars ++ left = signChars otherNegative ++ other.chars ++ otherLeft) :
    negative = otherNegative ∧ numeral.chars ++ left = other.chars ++ otherLeft := by
  have noSign : ∀ {numeral : DecimalNumeral} {left rest : List Char}, numeral.Valid → numeral.chars ++ left ≠ '-' :: rest := by
    intro numeral left rest valid sign
    obtain ⟨digit, more, begins, isDigit⟩ := Lexeme.numeral_begins valid
    rw [begins] at sign
    cases sign
    cases isDigit
  cases negative with
  | false =>
      cases otherNegative with
      | false => exact ⟨rfl, same⟩
      | true => exact absurd same (noSign valid)
  | true =>
      cases otherNegative with
      | false => exact absurd same.symm (noSign otherValid)
      | true => exact ⟨rfl, (List.cons.inj same).2⟩

/-- A text begins with at most one finite number, and the number ends in one place. -/
theorem numbers_unique {number other : Number} {left otherLeft : List Char} (finite : number.Finite)
    (otherFinite : other.Finite) (follows : Lexeme.Follows left) (otherFollows : Lexeme.Follows otherLeft)
    (same : number.chars ++ left = other.chars ++ otherLeft) : number = other ∧ left = otherLeft := by
  obtain ⟨negative, numeral, spelled, valid, written⟩ := Number.is_spelled finite
  obtain ⟨otherNegative, otherNumeral, otherSpelled, otherValid, otherWritten⟩ := Number.is_spelled otherFinite
  rw [written, otherWritten] at same
  obtain ⟨rfl, unsigned⟩ := signs_unique valid otherValid same
  obtain ⟨rfl, rest⟩ := Lexeme.numerals_unique valid otherValid follows otherFollows unsigned
  exact ⟨spelled.unique otherSpelled, rest⟩

namespace Number

theorem finite_number {value : Float} (finite : (Number.double value).Finite) : value ≠ Float.nan := by
  intro unknown
  subst unknown
  exact finite (by decide +kernel)

theorem doubles_equal_iff {one other : Float} (finite : (Number.double one).Finite)
    (otherFinite : (Number.double other).Finite) :
    (one == other) = true ↔ unsignedFloat one = unsignedFloat other := by
  have zeroBits : Float.ofBits 0 = 0 := Float.toBits_inj.mp (by decide +kernel)
  have signedBits : (-0 : Float).toBits = 0x8000000000000000 := by decide +kernel
  have signed_iff : ∀ value : Float, value.toBits = 0x8000000000000000 ↔ value = -0 := by
    intro value
    rw [← signedBits, Float.toBits_inj]
  rw [Float.beq_iff_ne_nan_and_eq, and_iff_right (finite_number finite), and_iff_right (finite_number otherFinite)]
  simp only [unsignedFloat, signed_iff, zeroBits]
  by_cases signed : one = -0
  · by_cases otherSigned : other = -0
    · simp [signed, otherSigned]
    · simp [signed, otherSigned, eq_comm]
  · by_cases otherSigned : other = -0
    · simp [signed, otherSigned]
    · simp [signed, otherSigned]

theorem same_iff {one other : Number} (finite : one.Finite) (otherFinite : other.Finite) :
    one.same other = true ↔ one.unsigned = other.unsigned := by
  cases one with
  | integer value inRange =>
      cases other with
      | integer otherValue otherInRange => simp [same, unsigned]
      | double otherValue => simp [same, unsigned]
  | double value =>
      cases other with
      | integer otherValue otherInRange => simp [same, unsigned]
      | double otherValue =>
          rw [same, doubles_equal_iff finite otherFinite, unsigned, unsigned, Number.double.injEq]

end Number
end DocumentViews
