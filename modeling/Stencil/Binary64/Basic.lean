namespace Stencil

/-- A finite number of IEEE 754 double precision, as the exact value it stands for: a
significand times a power of two, with a sign that zero has too. -/
structure Binary64 where
  negative : Bool
  significand : Nat
  exponent : Int
  significand_lt : significand < Nat.pow 2 53
  least_le_exponent : -1074 ≤ exponent
  exponent_le_greatest : exponent ≤ 971
  /-- Only at the least exponent is the leading bit allowed to be missing. -/
  normal : Nat.pow 2 52 ≤ significand ∨ exponent = -1074
deriving DecidableEq, Repr

namespace Binary64

def zero (negative : Bool) : Binary64 where
  negative
  significand := 0
  exponent := -1074
  significand_lt := by decide
  least_le_exponent := by decide
  exponent_le_greatest := by decide
  normal := .inr rfl

/-- The number with these parts, if they are the parts of one. -/
def ofParts? (negative : Bool) (significand : Nat) (exponent : Int) : Option Binary64 :=
  if parts : significand < Nat.pow 2 53 ∧ -1074 ≤ exponent ∧ exponent ≤ 971 ∧
      (Nat.pow 2 52 ≤ significand ∨ exponent = -1074) then
    some ⟨negative, significand, exponent, parts.1, parts.2.1, parts.2.2.1, parts.2.2.2⟩
  else none

/-- The magnitude as a natural number, if it is one. -/
def wholeMagnitude? (x : Binary64) : Option Nat :=
  if 0 ≤ x.exponent then some (x.significand * Nat.pow 2 x.exponent.toNat)
  else if x.significand % Nat.pow 2 (-x.exponent).toNat = 0 then
    some (x.significand / Nat.pow 2 (-x.exponent).toNat)
  else none

/-- The value as an integer, if it is one. Both zeros are the integer zero. -/
def integer? (x : Binary64) : Option Int :=
  x.wholeMagnitude?.map fun magnitude => if x.negative then -(magnitude : Int) else magnitude

end Binary64

end Stencil
