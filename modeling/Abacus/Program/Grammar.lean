import Abacus.Program.Reading

/-!
# The grammar

Which rows of tokens are programs, and which program each of them is, said without a word on how it
is found out.  An operator token is one whose text is one of the five symbols, and a number token is
one whose text stands for a double.  The rule of a tier is repeated to the left, so the operand
before an operator holds everything of that tier before it.

1. `Derives room level tokens e`: all of `tokens` is an expression of the level with the tree `e`,
   in which no more than `room` groupings stand inside each other.
2. `IsProgram tokens program`: `tokens` is a row of statements.
-/

namespace Abacus

/-- The levels of the grammar, from the loosest to the tightest. -/
inductive Level
  | sum
  | product
  | factor
deriving Repr, DecidableEq

namespace Level

/-- How tightly a level binds. -/
def rank : Level → Nat
  | .sum => 0
  | .product => 1
  | .factor => 2

/-- The level of the operands to the right of an operator. -/
def tighter : Level → Level
  | .sum => .product
  | .product => .factor
  | .factor => .factor

end Level

/-- The level of the expressions that the operators of a tier make. -/
def Tier.level : Tier → Level
  | .sum => .sum
  | .product => .product

/-- Whether a token is the given operator. -/
def Token.IsOperator (t : Token) (op : Op) : Prop := t.kind = .operator ∧ t.lexeme = op.symbol

/-- Derivations of trees from all of some tokens. -/
inductive Derives : (room : Nat) → Level → List Token → Expr → Prop
  | name {room : Nat} {t : Token} (kind : t.kind = .identifier) :
    Derives room .factor [t] (.name t.lexeme)
  | number {room : Nat} {t : Token} {x : Float} (kind : t.kind = .number)
    (value : Numeral.read? t.lexeme = some x) : Derives room .factor [t] (.number x)
  | group {room : Nat} {opening closing : Token} {inner : List Token} {e : Expr}
    (opens : opening.kind = .openParen) (closes : closing.kind = .closeParen)
    (inside : Derives room .sum inner e) :
    Derives (room + 1) .factor (opening :: inner ++ [closing]) e
  | ofFactor {room : Nat} {tokens : List Token} {e : Expr}
    (single : Derives room .factor tokens e) : Derives room .product tokens e
  | product {room : Nat} {before after : List Token} {t : Token} {op : Op} {l r : Expr}
    (left : Derives room .product before l) (operator : t.IsOperator op)
    (tier : op.tier = .product) (right : Derives room .factor after r) :
    Derives room .product (before ++ t :: after) (.binary op l r)
  | ofProduct {room : Nat} {tokens : List Token} {e : Expr}
    (single : Derives room .product tokens e) : Derives room .sum tokens e
  | sum {room : Nat} {before after : List Token} {t : Token} {op : Op} {l r : Expr}
    (left : Derives room .sum before l) (operator : t.IsOperator op)
    (tier : op.tier = .sum) (right : Derives room .product after r) :
    Derives room .sum (before ++ t :: after) (.binary op l r)

/-- A row of tokens that is a row of statements. -/
inductive IsProgram : List Token → Program → Prop
  | nil : IsProgram [] []
  | cons {tokens rest : List Token} {e : Expr} {program : Program}
    (statement : Derives maxNesting .sum tokens e) (others : IsProgram rest program) :
    IsProgram (tokens ++ rest) (e :: program)

/-- Every derivation uses at least one token. -/
theorem Derives.tokens_ne_nil {room : Nat} {level : Level} {tokens : List Token} {e : Expr}
    (h : Derives room level tokens e) : tokens ≠ [] := by
  induction h with
  | ofFactor _ ih => exact ih
  | ofProduct _ ih => exact ih
  | _ => simp

end Abacus
