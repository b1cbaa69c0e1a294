
set_option autoImplicit false

namespace DocumentViews

structure Dyadic where
  negative : Bool
  mantissa : Nat
  exponent : Int
deriving DecidableEq, Repr

namespace Dyadic

def ofFloat? (value : Float) : Option Dyadic :=
  let bits := value.toBits.toNat
  let negative := decide (bits / 0x8000000000000000 = 1)
  let biased : Nat := bits / 0x10000000000000 % 0x800
  let fraction : Nat := bits % 0x10000000000000
  if biased = 2047 then none
  else if biased = 0 then some ⟨negative, fraction, -1074⟩
  else some ⟨negative, fraction + 0x10000000000000, (biased : Int) - 1075⟩

def powerAbove (base : Nat) (exponent : Int) : Nat := Nat.pow base exponent.toNat

def powerBelow (base : Nat) (exponent : Int) : Nat := Nat.pow base (-exponent).toNat

def ratio (number : Dyadic) : Nat × Nat :=
  (number.mantissa * powerAbove 2 number.exponent, powerBelow 2 number.exponent)

def roundToEven (numerator denominator : Nat) : Nat :=
  let quotient := numerator / denominator
  let twice := 2 * (numerator % denominator)
  if twice < denominator then quotient
  else if twice > denominator then quotient + 1
  else quotient + quotient % 2

def floorLog2 (numerator denominator : Nat) : Int :=
  let estimate : Int := (numerator.log2 : Int) - denominator.log2
  if denominator * powerAbove 2 estimate ≤ numerator * powerBelow 2 estimate then estimate
  else estimate - 1

def infinityBits : Nat := 0x7FF0000000000000

-- The bits of the double nearest to a ratio, a half to the even neighbour. The mantissa is
-- rounded in units of its last place; a mantissa rounded up to the next power of two
-- carries into the exponent by itself.
def nearestBits (numerator denominator : Nat) : Nat :=
  if numerator = 0 then 0
  else
    let unit := max (floorLog2 numerator denominator - 52) (-1074)
    let mantissa := roundToEven (numerator * powerBelow 2 unit) (denominator * powerAbove 2 unit)
    min infinityBits ((unit + 1074).toNat * 0x10000000000000 + mantissa)

def nearest (negative : Bool) (numerator denominator : Nat) : Float :=
  Float.ofBits (nearestBits numerator denominator + if negative then 0x8000000000000000 else 0).toUInt64

def nearestDecimal (negative : Bool) (mantissa : Nat) (exponent : Int) : Float :=
  nearest negative (mantissa * powerAbove 10 exponent) (powerBelow 10 exponent)

def toFloat (number : Dyadic) : Float :=
  nearest number.negative number.ratio.1 number.ratio.2

def toInt? (number : Dyadic) : Option Int :=
  let (numerator, denominator) := number.ratio
  if numerator % denominator = 0 then
    some (if number.negative then -(numerator / denominator : Nat) else (numerator / denominator : Nat))
  else none

inductive Rounding
  | floor
  | ceiling
  | halfAway
deriving DecidableEq, Repr

def round (number : Dyadic) (rounding : Rounding) : Int :=
  let (numerator, denominator) := number.ratio
  let signed : Int := if number.negative then -numerator else numerator
  match rounding with
  | .floor => signed.fdiv denominator
  | .ceiling => -((-signed).fdiv denominator)
  | .halfAway =>
      let magnitude : Int := ((2 * numerator + denominator) / (2 * denominator) : Nat)
      if number.negative then -magnitude else magnitude

def remainder (dividend divisor : Dyadic) : Dyadic :=
  let exponent := min dividend.exponent divisor.exponent
  let scaled (number : Dyadic) : Nat := number.mantissa * powerAbove 2 (number.exponent - exponent)
  ⟨dividend.negative, scaled dividend % scaled divisor, exponent⟩

end Dyadic
end DocumentViews
