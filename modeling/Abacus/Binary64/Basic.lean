/-!
# Doubles by number

The non-negative doubles, written in increasing order, are numbered `0, 1, 2, …`: the number of a
double is its bit pattern with the sign bit left out.  Every finite double is a whole multiple of
the unit `2 ^ (-1074)`, so all questions about them are questions about natural numbers:

1. `units n` is the value of double number `n`, counted in units;
2. `nearest num den` is the number of the double nearest to `num / den` units, a half going to the
   even number;
3. `ofNumber` and `number` go between numbers and `Float`.
-/

namespace Abacus.Binary64

/-- Two to the power `k`. -/
def two (k : Nat) : Nat := Nat.pow 2 k

/-- The finite doubles are the numbers below this one, which is infinity. -/
def infinity : Nat := 2047 * two 52

/-- Double number `n` and its successor lie `two (step n)` units apart. -/
def step (n : Nat) : Nat := n / two 52 - 1

/-- The value of double number `n`, counted in steps. -/
def mantissa (n : Nat) : Nat := n - step n * two 52

/-- The value of double number `n`, counted in units of `2 ^ (-1074)`. -/
def units (n : Nat) : Nat := mantissa n * two (step n)

/-- How many units make one. -/
def one : Nat := two 1074

/-! ## Rounding -/

/-- The natural number nearest to `num / den`; a half goes to the even neighbour. -/
def roundHalfEven (num den : Nat) : Nat :=
  let quotient := num / den
  let twice := 2 * (num % den)
  if twice < den then quotient
  else if den < twice then quotient + 1
  else quotient + quotient % 2

/-- The number of the double nearest to `num / den` units; a half goes to the even number, and what
lies beyond the last finite double by half a step or more is infinite. -/
def nearest (num den : Nat) : Nat :=
  let s := (num / den).log2 - 52
  min (s * two 52 + roundHalfEven num (den * two s)) infinity

/-! ## Signed doubles -/

/-- The double with the given number and sign. -/
def ofNumber (negative : Bool) (n : Nat) : Float :=
  Float.ofBits (UInt64.ofNat (n + if negative then two 63 else 0))

/-- The number of `x`, whatever its sign. -/
def number (x : Float) : Nat := x.toBits.toNat % two 63

/-- Whether the sign bit of `x` is set. -/
def isNegative (x : Float) : Bool := two 63 ≤ x.toBits.toNat

/-- The double that is not a number. -/
def notANumber : Float := ofNumber false (infinity + two 51)

end Abacus.Binary64
