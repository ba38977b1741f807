import Abacus.Binary64.Basic

/-!
# Remainder

The remainder of a division truncated toward zero.  It is always a double: with both operands
counted in units it is the remainder of two natural numbers, and it takes the sign of the dividend.
-/

namespace Abacus.Binary64

/-- What is left of `x` after taking out as many whole `y` as fit, with the sign of `x`.

There is none of an infinite dividend or by zero, and an infinite divisor leaves `x` as it is. -/
def remainder (x y : Float) : Float :=
  if infinity < number x || infinity < number y then notANumber
  else if number x = infinity || number y = 0 then notANumber
  else if number y = infinity then x
  else ofNumber (isNegative x) (nearest (units (number x) % units (number y)) 1)

end Abacus.Binary64
