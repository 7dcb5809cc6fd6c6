import Stencil.Binary64.Basic

namespace Stencil.Binary64

/-! Writing a number of double precision: the decimal with the fewest digits that
reads back to it, of those the nearest, and of two equally near the one with the
even last digit. All comparisons are exact. -/

structure Decimal where
  digits : Nat
  exponent : Int
deriving DecidableEq, Repr

/-- Compares `digits * 10 ^ tens` with `units * 2 ^ twos`. -/
def compareScaled (digits : Nat) (tens : Int) (units : Nat) (twos : Int) : Ordering :=
  compare (digits * Nat.pow 10 tens.toNat * Nat.pow 2 (-twos).toNat)
    (units * Nat.pow 2 twos.toNat * Nat.pow 10 (-tens).toNat)

/-- The decimal lies among the reals that round to the magnitude of the number:
up to halfway to each neighbour, and halfway itself for an even significand. -/
def readsBack (x : Binary64) (decimal : Decimal) : Bool :=
  -- below a power of two the neighbour is half as far away
  let narrow := x.significand = Nat.pow 2 52 ∧ -1074 < x.exponent
  let low := if narrow then 4 * x.significand - 1 else 4 * x.significand - 2
  let high := 4 * x.significand + 2
  let even := x.significand % 2 = 0
  let fromLow := compareScaled decimal.digits decimal.exponent low (x.exponent - 2)
  let toHigh := compareScaled decimal.digits decimal.exponent high (x.exponent - 2)
  (fromLow = .gt ∨ (even ∧ fromLow = .eq)) ∧ (toHigh = .lt ∨ (even ∧ toHigh = .eq))

/-- The multiple of `10 ^ grid` that reads back to the number, the nearer one if
both neighbours do. -/
def onGrid? (x : Binary64) (grid : Int) : Option Decimal :=
  let below := x.significand * Nat.pow 2 x.exponent.toNat * Nat.pow 10 (-grid).toNat /
    (Nat.pow 2 (-x.exponent).toNat * Nat.pow 10 grid.toNat)
  match x.readsBack ⟨below, grid⟩, x.readsBack ⟨below + 1, grid⟩ with
  | true, true =>
      match compareScaled (2 * below + 1) grid (2 * x.significand) x.exponent with
      | .gt => some ⟨below, grid⟩
      | .lt => some ⟨below + 1, grid⟩
      | .eq => some ⟨if below % 2 = 0 then below else below + 1, grid⟩
  | true, false => some ⟨below, grid⟩
  | false, true => some ⟨below + 1, grid⟩
  | false, false => none

/-- The exponent of the power of ten next above a positive magnitude. -/
def decimalPlace (x : Binary64) : Int :=
  let numerator := x.significand * Nat.pow 2 x.exponent.toNat
  let denominator := Nat.pow 2 (-x.exponent).toNat
  if denominator ≤ numerator then (Nat.toDigits 10 (numerator / denominator)).length
  else
    let places := (Nat.toDigits 10 (denominator / numerator)).length
    if denominator ≤ numerator * Nat.pow 10 (places - 1) then 2 - places else 1 - places

def Decimal.trimZeros (decimal : Decimal) : Decimal :=
  if nonzero : decimal.digits ≠ 0 ∧ decimal.digits % 10 = 0 then
    trimZeros ⟨decimal.digits / 10, decimal.exponent + 1⟩
  else decimal
termination_by decimal.digits
decreasing_by exact Nat.div_lt_self (Nat.pos_of_ne_zero nonzero.1) (by decide)

def exactDecimal (x : Binary64) : Decimal :=
  if 0 ≤ x.exponent then ⟨x.significand * Nat.pow 2 x.exponent.toNat, 0⟩
  else ⟨x.significand * Nat.pow 5 (-x.exponent).toNat, x.exponent⟩

/-- The magnitude of a number other than zero in the fewest digits. Seventeen
always suffice. -/
def shortest (x : Binary64) : Decimal :=
  let place := x.decimalPlace
  let found := (List.range 17).findSome? fun (more : Nat) => x.onGrid? (place - more - 1)
  (found.getD x.exactDecimal).trimZeros

end Stencil.Binary64
