import DocumentViews.Proofs.Number
import DocumentViews.Proofs.Number.Nearest

set_option autoImplicit false

namespace DocumentViews.Binary64

open Float.Model.UnpackedFloat

variable {bits : BitVec Float.Model.Format.binary64.numBits} {exponent : BitVec Float.Model.Format.binary64.exponentBits}
  {mantissa : BitVec Float.Model.Format.binary64.mantissaBitsWithoutImplicit}

theorem pack_components (sign : Sign) : (packComponents Float.Model.Format.binary64 sign exponent mantissa).toNat =
    (sign.toBitVec.toNat * 0x800 + exponent.toNat) * 0x10000000000000 + mantissa.toNat := by
  have exponentLt : exponent.toNat < 2 ^ 11 := exponent.isLt
  have mantissaLt : mantissa.toNat < 2 ^ 52 := mantissa.isLt
  rw [packComponents]
  change ((sign.toBitVec ++ exponent) ++ mantissa).toNat = _
  rw [BitVec.toNat_append, BitVec.toNat_append, ← Nat.shiftLeft_add_eq_or_of_lt exponentLt,
    ← Nat.shiftLeft_add_eq_or_of_lt mantissaLt, Nat.shiftLeft_eq, Nat.shiftLeft_eq]

theorem packed_components (isExponent : unpackExponent bits = exponent) (isMantissa : unpackMantissa bits = mantissa) :
    packComponents Float.Model.Format.binary64 (Sign.ofBitVec (unpackSign bits)) exponent mantissa = bits := by
  have sign : (Sign.ofBitVec (unpackSign bits)).toBitVec.toNat = bits.toNat / 0x8000000000000000 := by
    have bound : bits.toNat < 0x10000000000000000 := bits.isLt
    rw [sign_of_unpacked, signOf]
    split
    next small =>
      change 0 = _
      omega
    next great =>
      change 1 = _
      omega
  apply BitVec.toNat_inj.mp
  rw [pack_components, sign, ← isExponent, ← isMantissa, unpack_exponent, unpack_mantissa, biased, fraction]
  omega

theorem mantissa_short (present : unpackMantissa bits ≠ 0#_) :
    ¬ (unpackMantissa bits).toNat.log2 + 1 = Float.Model.Format.binary64.mantissaBits := by
  intro full
  have nonzero : (unpackMantissa bits).toNat ≠ 0 := fun none => present (BitVec.toNat_inj.mp none)
  have least := Nat.log2_self_le nonzero
  rw [show (unpackMantissa bits).toNat.log2 = 52 from Nat.succ.inj full, unpack_mantissa] at least
  have fractionLt : fraction bits.toNat < 2 ^ 52 := Nat.mod_lt _ (by decide)
  omega

theorem mantissa_joined : (1#1 ++ unpackMantissa bits).toNat = 0x10000000000000 + fraction bits.toNat := by
  rw [← unpack_mantissa bits]
  change 2 ^ 52 ||| (unpackMantissa bits).toNat = _
  rw [Nat.or_comm, Nat.or_two_pow_eq_add_of_lt (unpackMantissa bits).isLt, Nat.add_comm]
  rfl

theorem joined_long (number : Nat) :
    (0x10000000000000 + fraction number).log2 + 1 = Float.Model.Format.binary64.mantissaBits := by
  have fractionLt : fraction number < 2 ^ 52 := Nat.mod_lt _ (by decide)
  have long : (0x10000000000000 + fraction number).log2 = 52 :=
    (Nat.log2_eq_iff (by omega)).mpr ⟨by omega, by omega⟩
  rw [long]
  rfl

def packedExponent (exponent : Int) : Nat :=
  (exponent + Float.Model.Format.binary64.exponentBias + Float.Model.Format.binary64.mantissaBitsWithoutImplicit).toNat

theorem pack_finite (sign : Sign) {mantissa : Nat} (exponent : Int) (positive : 0 < mantissa) :
    pack Float.Model.Format.binary64 (.finite sign mantissa exponent positive) =
      if 2 ^ Float.Model.Format.binary64.exponentBits ≤ packedExponent exponent + 1 then
        packedInfinity Float.Model.Format.binary64 sign
      else if mantissa.log2 + 1 = Float.Model.Format.binary64.mantissaBits then
        packComponents Float.Model.Format.binary64 sign (BitVec.ofNat _ (packedExponent exponent)) (BitVec.ofNat _ mantissa)
      else packComponents Float.Model.Format.binary64 sign 0#_ (BitVec.ofNat _ mantissa) := rfl

theorem pack_unpack (finite : biased bits.toNat ≠ 2047) :
    pack Float.Model.Format.binary64 (unpack Float.Model.Format.binary64 bits) = bits := by
  have exponentHere := unpack_exponent bits
  have mantissaHere := unpack_mantissa bits
  have fractionLt : fraction bits.toNat < 2 ^ 52 := Nat.mod_lt _ (by decide)
  have biasedLt : biased bits.toNat < 2048 := Nat.mod_lt _ (by decide)
  have notOnes : unpackExponent bits ≠ -1#_ := by
    intro ones
    rw [ones] at exponentHere
    exact finite exponentHere.symm
  delta unpack
  dsimp only
  rw [if_neg notOnes]
  by_cases zero : unpackExponent bits = 0#_
  · rw [if_pos zero]
    by_cases empty : unpackMantissa bits = 0#_
    · rw [dif_pos empty]
      exact packed_components zero empty
    · rw [dif_neg empty]
      rw [pack_finite, zero, if_neg (by decide), if_neg (mantissa_short empty)]
      exact packed_components zero (by rw [BitVec.ofNat_toNat, BitVec.setWidth_eq])
  · rw [if_neg zero]
    have restored : packedExponent ((unpackExponent bits).toNat - (Float.Model.Format.binary64.exponentBias +
        Float.Model.Format.binary64.mantissaBitsWithoutImplicit)) = biased bits.toNat := by
      rw [packedExponent, exponentHere]
      omega
    have inRange : ¬ 2 ^ Float.Model.Format.binary64.exponentBits ≤ biased bits.toNat + 1 := by
      change ¬ 2048 ≤ biased bits.toNat + 1
      omega
    have joined : (1#1 ++ unpackMantissa bits).toNat = 0x10000000000000 + fraction bits.toNat := mantissa_joined
    rw [pack_finite, restored, joined, if_neg inRange, if_pos (joined_long _)]
    refine packed_components ?_ ?_
    · rw [← exponentHere, BitVec.ofNat_toNat, BitVec.setWidth_eq]
    · apply BitVec.toNat_inj.mp
      rw [BitVec.toNat_ofNat, mantissaHere]
      change _ = (0x10000000000000 + fraction bits.toNat) % 2 ^ 52
      omega

end DocumentViews.Binary64

namespace DocumentViews

open Binary64

theorem to_bits_of_bits {bits : Nat} (finite : bits < Dyadic.infinityBits) :
    (Float.ofBits bits.toUInt64).toBits.toNat = bits := by
  have kept : bits.toUInt64.toNat = bits := by
    rw [Nat.toUInt64, UInt64.toNat_ofNat']
    exact Nat.mod_eq_of_lt (finite.trans (by decide))
  have isFinite : biased bits.toUInt64.toBitVec.toNat ≠ 2047 := by
    change biased bits.toUInt64.toNat ≠ 2047
    rw [kept, biased]
    simp only [Dyadic.infinityBits] at finite
    omega
  have same := congrArg BitVec.toNat (pack_unpack isFinite)
  exact same.trans kept

theorem nearest_le (numerator denominator : Nat) : Dyadic.nearestBits numerator denominator ≤ Dyadic.infinityBits := by
  rw [Dyadic.nearestBits]
  split
  next => exact Nat.zero_le _
  next => exact Nat.min_le_left _ _

theorem nearest_bits (numerator denominator : Nat) :
    (Dyadic.nearest false numerator denominator).toBits.toNat = Dyadic.nearestBits numerator denominator := by
  have made : Dyadic.nearest false numerator denominator =
      Float.ofBits (Dyadic.nearestBits numerator denominator).toUInt64 := rfl
  rw [made]
  rcases Nat.eq_or_lt_of_le (nearest_le numerator denominator) with infinite | finite
  · rw [infinite]
    decide +kernel
  · exact to_bits_of_bits finite

-- Doubles without a sign are equal just when they are the same: there is no second zero among
-- them, and each of them is a number.
theorem nearest_equal_iff (numerator denominator otherNumerator otherDenominator : Nat) :
    (Dyadic.nearest false numerator denominator == Dyadic.nearest false otherNumerator otherDenominator) = true ↔
      Dyadic.nearest false numerator denominator = Dyadic.nearest false otherNumerator otherDenominator := by
  have made : ∀ numerator denominator, Dyadic.nearest false numerator denominator =
      Float.ofBits (Dyadic.nearestBits numerator denominator).toUInt64 := fun _ _ => rfl
  have bound := nearest_le numerator denominator
  have otherBound := nearest_le otherNumerator otherDenominator
  have bits := nearest_bits numerator denominator
  constructor
  · intro equal
    rcases equal_floats equal with same | apart
    · exact same
    · rw [bits, nearest_bits] at apart
      have sameBits : Dyadic.nearestBits numerator denominator =
          Dyadic.nearestBits otherNumerator otherDenominator := by
        simp only [biased, fraction] at apart
        simp only [Dyadic.infinityBits] at bound otherBound
        omega
      rw [made, made, sameBits]
  · intro same
    rw [← same]
    rcases Nat.eq_or_lt_of_le bound with infinite | finite
    · rw [made, infinite]
      decide +kernel
    · refine equal_itself ?_
      rw [bits, biased]
      simp only [Dyadic.infinityBits] at finite
      omega

theorem of_float_of_bits {bits : Nat} (finite : bits < Dyadic.infinityBits) (nonzero : bits ≠ 0) :
    ∃ mantissa unit, Dyadic.ofFloat? (Float.ofBits bits.toUInt64) = some ⟨false, mantissa, unit⟩ ∧
      Dyadic.Normal mantissa unit ∧ unit ≤ 971 ∧ Dyadic.bitsOf mantissa unit = bits := by
  simp only [Dyadic.infinityBits] at finite
  have noSign : bits / 0x8000000000000000 ≠ 1 := by omega
  have notOnes : bits / 0x10000000000000 % 0x800 ≠ 2047 := by omega
  simp only [Dyadic.ofFloat?, to_bits_of_bits finite, decide_eq_false noSign, if_neg notOnes]
  by_cases subnormal : bits / 0x10000000000000 % 0x800 = 0
  · simp only [if_pos subnormal]
    refine ⟨_, _, rfl, ⟨by omega, by omega, by omega, .inr rfl⟩, by omega, ?_⟩
    simp only [Dyadic.bitsOf]
    omega
  · simp only [if_neg subnormal]
    refine ⟨_, _, rfl, ⟨by omega, by omega, by omega, .inl (by omega)⟩, by omega, ?_⟩
    simp only [Dyadic.bitsOf]
    omega

end DocumentViews
