import Abacus.Decimal.Written
import Abacus.Program.Grammar
import Abacus.Token.Alphabet

/-!
# Expressions as sources

An expression is written back as a source with parentheses only where the tree would otherwise be
another one: around a left operand of a looser level, and around a right operand of the same or a
looser level.
-/

namespace Abacus

/-- The level of the expressions that an operator makes. -/
def Op.level (op : Op) : Level := op.tier.level

namespace Expr

/-- Whether an expression made by `op` has to be put into parentheses at a level. -/
def isLoose (level : Level) (op : Op) : Bool := op.level.rank < level.rank

/-- How deep the parentheses are nested when an expression is written at a level. -/
def nesting (level : Level) : Expr → Nat
  | .binary op l r =>
    let inside := max (l.nesting op.level) (r.nesting op.level.tighter)
    if isLoose level op then inside + 1 else inside
  | _ => 0

/-- The digits of a number that digits can stand for; a number too large for a double is written as
a power of ten that is. -/
def digits (x : Float) : String :=
  if Binary64.number x = Binary64.infinity then String.ofList ('1' :: Decimal.zeros 309)
  else Decimal.Style.plain.write x

/-- An expression as a source, written at a level. -/
def sourceAt (level : Level) : Expr → String
  | .number x => digits x
  | .name text => text
  | .null => "null"
  | .binary op l r =>
    let inside := l.sourceAt op.level ++ " " ++ op.symbol ++ " " ++ r.sourceAt op.level.tighter
    if isLoose level op then "(" ++ inside ++ ")" else inside

/-- Whether all parts of an expression can be written in a source: every number is what some digits
stand for, every name is a word of letters, and there is no null. -/
def HasWritableParts : Expr → Prop
  | .number x => ∃ ds : String, ds ≠ "" ∧ ds.toList.all Char.isDigit ∧ Numeral.read? ds = some x
  | .name text => text ≠ "" ∧ text.toList.all Text.isCased ∧ text ≠ "let"
  | .null => False
  | .binary _ l r => l.HasWritableParts ∧ r.HasWritableParts

/-- Whether an expression is the tree of some source. -/
def IsWritable (e : Expr) : Prop := e.HasWritableParts ∧ e.nesting .sum ≤ maxNesting

end Expr

/-- A program as a source. -/
def Program.source (program : Program) : String :=
  " ".intercalate (program.map (Expr.sourceAt .sum))

end Abacus
