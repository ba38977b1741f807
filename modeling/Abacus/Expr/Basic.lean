import Abacus.Binary64.Remainder

/-!
# Expressions

Arithmetic over doubles: numbers, names, a null, and the five binary operators.  The operators
stand on two tiers, and those of the product tier bind tighter than those of the sum tier.
-/

namespace Abacus

/-- The tiers of operators. -/
inductive Tier
  | sum
  | product
deriving Repr, DecidableEq

/-- The binary operators. -/
inductive Op
  | plus
  | minus
  | times
  | divide
  | modulo
deriving Repr, DecidableEq

namespace Op

/-- The name of an operator in dumps. -/
def name : Op → String
  | .plus => "Plus"
  | .minus => "Minus"
  | .times => "Mult"
  | .divide => "Div"
  | .modulo => "Mod"

/-- How an operator is written in a source. -/
def symbol : Op → String
  | .plus => "+"
  | .minus => "-"
  | .times => "*"
  | .divide => "/"
  | .modulo => "%"

/-- The operator that is written as `symbol`. -/
def ofSymbol? (symbol : String) : Option Op :=
  match symbol with
  | "+" => some .plus
  | "-" => some .minus
  | "*" => some .times
  | "/" => some .divide
  | "%" => some .modulo
  | _ => none

/-- The tier of an operator. -/
def tier : Op → Tier
  | .plus | .minus => .sum
  | .times | .divide | .modulo => .product

/-- What an operator makes of two doubles.  Division by zero is infinite or not a number, and a
remainder has the sign of the dividend. -/
def apply : Op → Float → Float → Float
  | .plus, x, y => x + y
  | .minus, x, y => x - y
  | .times, x, y => x * y
  | .divide, x, y => x / y
  | .modulo, x, y => Binary64.remainder x y

theorem ofSymbol?_symbol (op : Op) : ofSymbol? op.symbol = some op := by
  cases op <;> rfl

end Op

/-- An expression. -/
inductive Expr
  | number (x : Float)
  | name (text : String)
  | null
  | binary (op : Op) (left right : Expr)
deriving Repr, Inhabited

namespace Expr

/-- How many nodes an expression has. -/
def size : Expr → Nat
  | .binary _ l r => l.size + r.size + 1
  | _ => 1

/-- Whether two expressions have the same shape with equal numbers in it: a zero equals the negative
zero, and what is not a number equals nothing. -/
def agrees : Expr → Expr → Bool
  | .number x, .number y => x == y
  | .name a, .name b => a == b
  | .null, .null => true
  | .binary p l r, .binary q l' r' => decide (p = q) && l.agrees l' && r.agrees r'
  | _, _ => false

instance : BEq Expr := ⟨agrees⟩

theorem size_pos (e : Expr) : 0 < e.size := by
  cases e <;> simp [size]

end Expr

/-- A program is a row of expressions, its statements. -/
abbrev Program := List Expr

end Abacus
