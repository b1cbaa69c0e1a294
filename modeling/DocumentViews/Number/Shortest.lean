import DocumentViews.Number.Binary

set_option autoImplicit false

namespace DocumentViews

structure Decimal where
  digits : Nat
  exponent : Int
deriving DecidableEq, Repr

inductive Tie
  | even
  | up
deriving DecidableEq, Repr

namespace Decimal

def ReadsAs (decimal : Decimal) (bits : Nat) : Prop :=
  Dyadic.nearestBits (decimal.digits * Dyadic.powerAbove 10 decimal.exponent)
    (Dyadic.powerBelow 10 decimal.exponent) = bits

instance (decimal : Decimal) (bits : Nat) : Decidable (decimal.ReadsAs bits) :=
  inferInstanceAs (Decidable (_ = _))

-- Only the two multiples of `10 ^ exponent` around the ratio can be nearest to it.
def onGrid? (numerator denominator : Nat) (tie : Tie) (exponent : Int) : Option Decimal :=
  let bits := Dyadic.nearestBits numerator denominator
  let scaled := numerator * Dyadic.powerBelow 10 exponent
  let unit := denominator * Dyadic.powerAbove 10 exponent
  let below := scaled / unit
  let twice := 2 * (scaled % unit)
  let low : Decimal := ⟨below, exponent⟩
  let high : Decimal := ⟨below + 1, exponent⟩
  let nearer :=
    if twice < unit then low
    else if twice > unit then high
    else match tie with
      | .even => if below % 2 = 0 then low else high
      | .up => high
  if low.ReadsAs bits then
    if high.ReadsAs bits then some nearer else some low
  else if high.ReadsAs bits then some high
  else none

def search (numerator denominator : Nat) (tie : Tie) : Nat → Int → Decimal
  | 0, exponent => ⟨numerator * Dyadic.powerBelow 10 exponent / (denominator * Dyadic.powerAbove 10 exponent), exponent⟩
  | steps + 1, exponent =>
      match onGrid? numerator denominator tie exponent with
      | some decimal => decimal
      | none => search numerator denominator tie steps (exponent - 1)

def startExponent (numerator denominator : Nat) : Int :=
  (Dyadic.floorLog2 numerator denominator * 1233).fdiv 4096 + 2

-- Seventeen digits tell all doubles apart, so that many grids below the first digit
-- suffice.
def shortest (numerator denominator : Nat) (tie : Tie) : Decimal :=
  search numerator denominator tie 20 (startExponent numerator denominator)

def significant (decimal : Decimal) : List Char :=
  ((Nat.toDigits 10 decimal.digits).reverse.dropWhile (· = '0')).reverse

def firstExponent (decimal : Decimal) : Int :=
  decimal.exponent + (Nat.toDigits 10 decimal.digits).length - 1

end Decimal
end DocumentViews
