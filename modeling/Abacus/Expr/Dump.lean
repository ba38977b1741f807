import Abacus.Decimal.Written
import Abacus.Expr.Basic
import Abacus.Text.Quoted

/-!
# Dumps

The dump of an expression names every node and shows all that it holds, on one line.
-/

namespace Abacus.Expr

/-- Writes the dump of an expression after `done`. -/
def dumpAfter (done : String) : Expr → String
  | .number x => done ++ "NumericLiteral(" ++ Decimal.Style.literal.write x ++ ")"
  | .name text => done ++ "Identifier(" ++ Text.quote text ++ ")"
  | .null => done ++ "NullLiteral"
  | .binary op l r =>
    dumpAfter (dumpAfter (done ++ "Binary(" ++ op.name ++ ", ") l ++ ", ") r ++ ")"

/-- An expression with all its parts, on one line. -/
def dump (e : Expr) : String := dumpAfter "" e

end Abacus.Expr
