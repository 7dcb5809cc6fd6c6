import Stencil.Binary64.Basic

namespace Stencil.Binary64

/-- The quotient rounded to the nearest natural number, a half to the even one. -/
def roundQuotient (numerator denominator : Nat) : Nat :=
  let whole := numerator / denominator
  let twice := 2 * (numerator % denominator)
  if twice < denominator ∨ (twice = denominator ∧ whole % 2 = 0) then whole else whole + 1

/-- The nearest number to a positive fraction. -/
def ofFraction? (negative : Bool) (numerator denominator : Nat) : Option Binary64 :=
  -- the value lies above 2 ^ (bits - 1) and below 2 ^ (bits + 1)
  let bits : Int := numerator.log2 - denominator.log2
  let small := numerator * Nat.pow 2 (-bits).toNat < denominator * Nat.pow 2 bits.toNat
  let exponent := max (-1074) (if small then bits - 53 else bits - 52)
  let significand :=
    roundQuotient (numerator * Nat.pow 2 (-exponent).toNat)
      (denominator * Nat.pow 2 exponent.toNat)
  if significand = Nat.pow 2 53 then ofParts? negative (Nat.pow 2 52) (exponent + 1)
  else ofParts? negative significand exponent

/-- The number nearest to `digits * 10 ^ exponent`. The first two cases answer
for decimals far below the least and far above the greatest number. -/
def ofDecimal? (negative : Bool) (digits : Nat) (exponent : Int) : Option Binary64 :=
  if digits = 0 ∨ digits.log2 + 3 * exponent < -1080 then some (zero negative)
  else if 400 < exponent then none
  else ofFraction? negative (digits * Nat.pow 10 exponent.toNat) (Nat.pow 10 (-exponent).toNat)

example : ofDecimal? false 1 (-1) =
    ofParts? false 7205759403792794 (-56) := by decide +kernel

end Stencil.Binary64
