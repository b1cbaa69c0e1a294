import DocumentViews.Number.Shortest

set_option autoImplicit false

namespace DocumentViews

structure NumberLayout where
  tie : Tie
  isPlain : Int → Bool
  keepsPoint : Bool
  infinity : String
  nan : String

namespace NumberLayout

-- In JSON the plain form always has a point, and a number too small or too large for it
-- gets an exponent with a sign. JSON has no text for what is not finite.
def json : NumberLayout :=
  ⟨.even, fun exponent => decide (-5 ≤ exponent ∧ exponent ≤ 15), true, "null", "null"⟩

def message : NumberLayout :=
  ⟨.up, fun _ => true, false, "inf", "NaN"⟩

def plain (layout : NumberLayout) (digits : List Char) (first : Int) : List Char :=
  if first < 0 then
    '0' :: '.' :: (List.replicate (-first - 1).toNat '0' ++ digits)
  else
    let whole := first.toNat + 1
    let fraction := digits.drop whole
    digits.take whole ++ List.replicate (whole - digits.length) '0' ++
      if fraction.isEmpty then (if layout.keepsPoint then ['.', '0'] else []) else '.' :: fraction

def scientific (digits : List Char) (first : Int) : List Char :=
  let power := Nat.toDigits 10 first.natAbs
  let mantissa := match digits with
    | [] => []
    | [digit] => [digit]
    | digit :: more => digit :: '.' :: more
  mantissa ++ 'e' :: (if first < 0 then '-' else '+') :: power

def magnitude (layout : NumberLayout) (numerator denominator : Nat) : List Char :=
  let decimal := Decimal.shortest numerator denominator layout.tie
  if layout.isPlain decimal.firstExponent then layout.plain decimal.significant decimal.firstExponent
  else scientific decimal.significant decimal.firstExponent

def write (layout : NumberLayout) (value : Float) : String :=
  match Dyadic.ofFloat? value with
  | none =>
      if value.isNaN then layout.nan
      else if value < 0 then "-" ++ layout.infinity else layout.infinity
  | some number =>
      let digits :=
        if number.mantissa = 0 then (if layout.keepsPoint then ['0', '.', '0'] else ['0'])
        else layout.magnitude number.ratio.1 number.ratio.2
      String.ofList (if number.negative then '-' :: digits else digits)

end NumberLayout
end DocumentViews
