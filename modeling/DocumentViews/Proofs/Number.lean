import DocumentViews.Json.Value

set_option autoImplicit false

namespace DocumentViews.Binary64

open Float.Model.UnpackedFloat

def biased (bits : Nat) : Nat := bits / 0x10000000000000 % 0x800

def fraction (bits : Nat) : Nat := bits % 0x10000000000000

theorem unpack_mantissa (bits : BitVec Float.Model.Format.binary64.numBits) :
    (unpackMantissa bits).toNat = fraction bits.toNat := by
  simp [unpackMantissa, fraction]

theorem unpack_exponent (bits : BitVec Float.Model.Format.binary64.numBits) :
    (unpackExponent bits).toNat = biased bits.toNat := by
  simp [unpackExponent, biased, Nat.shiftRight_eq_div_pow]

theorem unpack_sign (bits : BitVec Float.Model.Format.binary64.numBits) :
    (unpackSign bits).toNat = bits.toNat / 0x8000000000000000 := by
  have bound : bits.toNat < 0x10000000000000000 := bits.isLt
  delta unpackSign
  simp only [BitVec.toNat_cast, BitVec.extractLsb_toNat, Nat.shiftRight_eq_div_pow]
  change bits.toNat / 0x8000000000000000 % 2 = _
  omega

def signOf (bits : Nat) : Sign := if bits < 0x8000000000000000 then .positive else .negative

theorem sign_of_unpacked (bits : BitVec Float.Model.Format.binary64.numBits) :
    Sign.ofBitVec (unpackSign bits) = signOf bits.toNat := by
  have positive : unpackSign bits = 0#1 ↔ bits.toNat < 0x8000000000000000 := by
    rw [← BitVec.toNat_inj, unpack_sign]
    change bits.toNat / 0x8000000000000000 = 0 ↔ _
    omega
  simp only [Sign.ofBitVec, signOf, positive]

inductive Unpacks (bits : BitVec Float.Model.Format.binary64.numBits) : Float.Model.UnpackedFloat → Prop
  | infinity (sign : Sign) : biased bits.toNat = 2047 → Unpacks bits (.infinity sign)
  | notANumber : biased bits.toNat = 2047 → Unpacks bits .notANumber
  | zero (sign : Sign) : biased bits.toNat = 0 → fraction bits.toNat = 0 → Unpacks bits (.zero sign)
  | subnormal (positive : 0 < fraction bits.toNat) : biased bits.toNat = 0 →
      Unpacks bits (.finite (signOf bits.toNat) (fraction bits.toNat) (-1074) positive)
  | normal (positive : 0 < 0x10000000000000 + fraction bits.toNat) :
      Unpacks bits (.finite (signOf bits.toNat) (0x10000000000000 + fraction bits.toNat)
        ((biased bits.toNat : Int) - 1075) positive)

theorem finite_congr {sign other : Sign} {mantissa otherMantissa : Nat} {exponent otherExponent : Int}
    (signs : sign = other) (mantissas : mantissa = otherMantissa) (exponents : exponent = otherExponent)
    {positive : 0 < mantissa} : Float.Model.UnpackedFloat.finite sign mantissa exponent positive =
      .finite other otherMantissa otherExponent (mantissas ▸ positive) := by
  subst signs mantissas exponents
  rfl

theorem unpack_spec (bits : BitVec Float.Model.Format.binary64.numBits) :
    Unpacks bits (unpack Float.Model.Format.binary64 bits) := by
  have mantissa := unpack_mantissa bits
  have exponent := unpack_exponent bits
  delta unpack
  dsimp only
  by_cases ones : unpackExponent bits = -1#_
  · have infinite : biased bits.toNat = 2047 := by
      rw [← exponent, ones]
      rfl
    rw [if_pos ones]
    by_cases empty : unpackMantissa bits = 0#_
    · rw [if_pos empty]
      exact .infinity _ infinite
    · rw [if_neg empty]
      exact .notANumber infinite
  · rw [if_neg ones]
    by_cases zero : unpackExponent bits = 0#_
    · rw [if_pos zero]
      have biasedZero : biased bits.toNat = 0 := by
        rw [← exponent, zero]
        rfl
      by_cases empty : unpackMantissa bits = 0#_
      · rw [dif_pos empty]
        refine .zero _ biasedZero ?_
        rw [← mantissa, empty]
        rfl
      · have positive : 0 < fraction bits.toNat := by
          rw [← mantissa, Nat.pos_iff_ne_zero]
          exact fun none => empty (BitVec.toNat_inj.mp none)
        have shape := Unpacks.subnormal positive biasedZero
        have exponentHere : ((unpackExponent bits).toNat : Int) - (Float.Model.Format.binary64.exponentBias +
            Float.Model.Format.binary64.mantissaBitsWithoutImplicit) + 1 = -1074 := by
          rw [zero]
          rfl
        rw [dif_neg empty, finite_congr (sign_of_unpacked bits) mantissa exponentHere]
        exact shape
    · have joined : (1#1 ++ unpackMantissa bits).toNat = 0x10000000000000 + fraction bits.toNat := by
        rw [← mantissa]
        change 2 ^ 52 ||| (unpackMantissa bits).toNat = _
        rw [Nat.or_comm, Nat.or_two_pow_eq_add_of_lt (unpackMantissa bits).isLt, Nat.add_comm]
        rfl
      have exponentHere : ((unpackExponent bits).toNat : Int) - (Float.Model.Format.binary64.exponentBias +
          Float.Model.Format.binary64.mantissaBitsWithoutImplicit) = (biased bits.toNat : Int) - 1075 := by
        rw [exponent]
        rfl
      rw [if_neg zero, finite_congr (sign_of_unpacked bits) joined exponentHere]
      exact .normal _

theorem parts_compared {exponent otherExponent : Int} {mantissa otherMantissa : Nat}
    (equal : (compare exponent otherExponent).then (compare mantissa otherMantissa) = .eq) :
    exponent = otherExponent ∧ mantissa = otherMantissa := by
  rw [Ordering.then_eq_eq, Std.compare_eq_iff_eq, Std.compare_eq_iff_eq] at equal
  exact equal

theorem compared_equal {first second : Float.Model.UnpackedFloat} (equal : first.compare second = some .eq) :
    (first = second ∧ first ≠ .notANumber) ∨ ∃ sign other, first = .zero sign ∧ second = .zero other := by
  cases first with
  | notANumber => cases equal
  | zero sign =>
      cases second with
      | zero other => exact .inr ⟨sign, other, rfl, rfl⟩
      | notANumber => cases equal
      | infinity other => cases other <;> cases equal
      | finite other _ _ _ => cases other <;> cases equal
  | infinity sign =>
      cases second with
      | infinity other => cases sign <;> cases other <;> first | exact .inl ⟨rfl, nofun⟩ | cases equal
      | notANumber => cases equal
      | zero other => cases sign <;> cases equal
      | finite other _ _ _ => cases sign <;> cases equal
  | finite sign mantissa exponent positive =>
      cases second with
      | notANumber => cases sign <;> cases equal
      | zero other => cases sign <;> cases equal
      | infinity other => cases sign <;> cases other <;> cases equal
      | finite other otherMantissa otherExponent _ =>
          have parts : sign = other ∧ exponent = otherExponent ∧ mantissa = otherMantissa := by
            cases sign with
            | positive =>
                cases other with
                | positive => exact ⟨rfl, parts_compared (Option.some.inj equal)⟩
                | negative => cases equal
            | negative =>
                cases other with
                | positive => cases equal
                | negative => exact ⟨rfl, parts_compared (Ordering.swap_eq_eq.mp (Option.some.inj equal))⟩
          obtain ⟨rfl, rfl, rfl⟩ := parts
          exact .inl ⟨rfl, nofun⟩

theorem unpacks_inj {one other : BitVec Float.Model.Format.binary64.numBits} {first second : Float.Model.UnpackedFloat}
    (unpacked : Unpacks one first) (otherUnpacked : Unpacks other second) (same : first = second)
    (isNumber : first ≠ .notANumber) : one = other ∨
      (biased one.toNat = 0 ∧ fraction one.toNat = 0 ∧ biased other.toNat = 0 ∧ fraction other.toNat = 0) ∨
      (biased one.toNat = 2047 ∧ biased other.toNat = 2047) := by
  have bound : one.toNat < 0x10000000000000000 := one.isLt
  have otherBound : other.toNat < 0x10000000000000000 := other.isLt
  -- Sign, exponent and fraction are all the bits there are.
  have whole : signOf one.toNat = signOf other.toNat → biased one.toNat = biased other.toNat →
      fraction one.toNat = fraction other.toNat → one = other := by
    intro signs exponents fractions
    apply BitVec.toNat_inj.mp
    unfold signOf at signs
    unfold biased at exponents
    unfold fraction at fractions
    split at signs <;> split at signs <;> first | omega | cases signs
  cases unpacked with
  | notANumber => exact absurd rfl isNumber
  | infinity sign infinite =>
      cases otherUnpacked with
      | infinity otherSign otherInfinite => exact .inr (.inr ⟨infinite, otherInfinite⟩)
      | _ => cases same
  | zero sign noExponent noFraction =>
      cases otherUnpacked with
      | zero otherSign otherNoExponent otherNoFraction =>
          exact .inr (.inl ⟨noExponent, noFraction, otherNoExponent, otherNoFraction⟩)
      | _ => cases same
  | subnormal positive noExponent =>
      cases otherUnpacked with
      | subnormal otherPositive otherNoExponent =>
          injection same with signs fractions _
          exact .inl (whole signs (noExponent.trans otherNoExponent.symm) fractions)
      | normal otherPositive =>
          injection same with _ fractions _
          unfold fraction at fractions
          omega
      | _ => cases same
  | normal positive =>
      cases otherUnpacked with
      | normal otherPositive =>
          injection same with signs fractions exponents
          exact .inl (whole signs (by omega) (by omega))
      | subnormal otherPositive _ =>
          injection same with _ fractions _
          unfold fraction at fractions
          omega
      | _ => cases same

theorem equal_floats {one other : Float} (equal : (one == other) = true) : one = other ∨
    (biased one.toBits.toNat = 0 ∧ fraction one.toBits.toNat = 0 ∧ biased other.toBits.toNat = 0 ∧
      fraction other.toBits.toNat = 0) ∨
    (biased one.toBits.toNat = 2047 ∧ biased other.toBits.toNat = 2047) := by
  have unpacked := unpack_spec one.toBits.toBitVec
  have otherUnpacked := unpack_spec other.toBits.toBitVec
  have compared : (unpack Float.Model.Format.binary64 one.toBits.toBitVec).compare
      (unpack Float.Model.Format.binary64 other.toBits.toBitVec) = some .eq := eq_of_beq equal
  rcases compared_equal compared with ⟨same, isNumber⟩ | ⟨sign, otherSign, zero, otherZero⟩
  · rcases unpacks_inj unpacked otherUnpacked same isNumber with sameBits | apart
    · left
      obtain ⟨⟨bits, valid⟩⟩ := one
      obtain ⟨⟨otherBits, otherValid⟩⟩ := other
      have equalBits : bits = otherBits := UInt64.toBitVec_inj.mp sameBits
      subst equalBits
      rfl
    · exact .inr apart
  · rw [zero] at unpacked
    rw [otherZero] at otherUnpacked
    cases unpacked with
    | zero _ noExponent noFraction =>
        cases otherUnpacked with
        | zero _ otherNoExponent otherNoFraction =>
            exact .inr (.inl ⟨noExponent, noFraction, otherNoExponent, otherNoFraction⟩)

theorem compared_itself {value : Float.Model.UnpackedFloat} (isNumber : value ≠ .notANumber) :
    value.compare value = some .eq := by
  cases value with
  | notANumber => exact absurd rfl isNumber
  | zero sign => rfl
  | infinity sign => cases sign <;> rfl
  | finite sign mantissa exponent positive =>
      have parts : (compare exponent exponent).then (compare mantissa mantissa) = .eq := by
        rw [Ordering.then_eq_eq, Std.compare_eq_iff_eq, Std.compare_eq_iff_eq]
        exact ⟨rfl, rfl⟩
      cases sign with
      | positive => exact congrArg some parts
      | negative => exact congrArg some (Ordering.swap_eq_eq.mpr parts)

theorem equal_itself {value : Float} (finite : biased value.toBits.toNat ≠ 2047) : (value == value) = true := by
  have isNumber : unpack Float.Model.Format.binary64 value.toBits.toBitVec ≠ .notANumber := by
    intro notNumber
    have unpacked := unpack_spec value.toBits.toBitVec
    rw [notNumber] at unpacked
    cases unpacked with
    | notANumber infinite => exact finite infinite
  exact (beq_of_eq (compared_itself isNumber) :
    ((unpack Float.Model.Format.binary64 value.toBits.toBitVec).compare _ == some .eq) = true)

end DocumentViews.Binary64

namespace DocumentViews

open Binary64

theorem of_float_zero {value : Float} (noExponent : biased value.toBits.toNat = 0)
    (noFraction : fraction value.toBits.toNat = 0) : Value.ofFloat value = .number (.ofInt 0) := by
  unfold biased at noExponent
  unfold fraction at noFraction
  have exact : Dyadic.ofFloat? value =
      some ⟨decide (value.toBits.toNat / 0x8000000000000000 = 1), 0, -1074⟩ := by
    simp only [Dyadic.ofFloat?, noExponent, noFraction]
    rfl
  have whole : (⟨decide (value.toBits.toNat / 0x8000000000000000 = 1), 0, -1074⟩ : Dyadic).toInt? = some 0 := by
    simp [Dyadic.toInt?, Dyadic.ratio]
  simp only [Value.ofFloat, exact, whole]
  rfl

theorem of_float_infinite {value : Float} (infinite : biased value.toBits.toNat = 2047) : Value.ofFloat value = .null := by
  unfold biased at infinite
  have none : Dyadic.ofFloat? value = none := by
    simp only [Dyadic.ofFloat?, infinite]
    rfl
  simp only [Value.ofFloat, none]

end DocumentViews
