import Abacus.Binary64.Basic

/-!
# Decimals

A non-negative decimal number is a whole number of digits with a power of ten.  Reading one as a
double is correctly rounded for any number of digits.
-/

namespace Abacus

/-- The number `digits * 10 ^ exponent`. -/
structure Decimal where
  digits : Nat
  exponent : Int
deriving Repr, DecidableEq

namespace Decimal

/-- Ten to the power `k`. -/
def ten (k : Nat) : Nat := Nat.pow 10 k

/-- The number of the double nearest to a decimal.

The two guards give the answer of the last line for decimals far outside the range of the doubles,
whose power of ten need not be computed. -/
def nearest (d : Decimal) : Nat :=
  if d.digits = 0 then 0
  else if 400 < d.exponent then Binary64.infinity
  else if d.exponent + d.digits.log2 + 1 < -400 then 0
  else Binary64.nearest (d.digits * ten d.exponent.toNat * Binary64.one) (ten (-d.exponent).toNat)

/-- The same number without the zeros that `digits` ends in. -/
def trim (d : Decimal) : Decimal :=
  if d.digits ≠ 0 ∧ d.digits % 10 = 0 then trim ⟨d.digits / 10, d.exponent + 1⟩ else d
termination_by d.digits
decreasing_by omega

end Decimal

end Abacus
