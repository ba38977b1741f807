import Abacus.Decimal.Written

/-!
# Values

What an expression can come to: a number, or nothing at all.
-/

namespace Abacus

/-- The value of an expression. -/
inductive Value
  | number (x : Float)
  | null
deriving Repr, DecidableEq

namespace Value

/-- The name of the type of a value. -/
def typeName : Value → String
  | .number _ => "number"
  | .null => "null"

/-- A value as it is shown to the reader. -/
def text : Value → String
  | .number x => Decimal.Style.plain.write x
  | .null => "null"

end Value

end Abacus
