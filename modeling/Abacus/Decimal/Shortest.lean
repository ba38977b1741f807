import Abacus.Decimal.Basic

/-!
# The shortest decimal of a double

Among the decimals that are read as a given double, the one with the fewest digits is its shortest
decimal; among several of that length the nearest to the double, and of two equally near the larger.

The decimals with a given power of ten lie on a grid.  On each grid only the two neighbours of the
double can be the nearest, so the grids are tried from the coarsest, on which the double has one
digit, to ever finer ones, and the first grid with a neighbour that reads back decides.  On the grid
of `10 ^ (-1074)` lies the double itself.
-/

namespace Abacus.Decimal

/-- How many digits `n` has. -/
def digitCount (n : Nat) : Nat := (Nat.toDigits 10 n).length

/-- The least power of ten above `num / den`, as an exponent. -/
def magnitude (num den : Nat) : Int :=
  if den ≤ num then digitCount (num / den) else 1 - digitCount ((den - 1) / num)

/-- Of the two neighbours of double `n` on the grid of `10 ^ exponent`, the one that is read as `n`;
the nearer if both are. -/
def neighbour? (n : Nat) (exponent : Int) : Option Decimal :=
  let num := Binary64.units n * ten (-exponent).toNat
  let den := Binary64.one * ten exponent.toNat
  let below := trim ⟨num / den, exponent⟩
  let above := trim ⟨num / den + 1, exponent⟩
  if below.nearest = n ∧ (2 * (num % den) < den ∨ above.nearest ≠ n) then some below
  else if above.nearest = n then some above
  else none

/-- Double `n` on the grid of `10 ^ (-1074)`, digit by digit to the last. -/
def exact (n : Nat) : Decimal := ⟨Binary64.units n * Nat.pow 5 1074, -1074⟩

/-- The first decimal that is found on the grids from `10 ^ exponent` down, of which there are
`grids`; `onGrid` says what is found on each. -/
def firstOnGrids (onGrid : Int → Option Decimal) :
    (grids : Nat) → (exponent : Int) → Option Decimal
  | 0, _ => none
  | grids + 1, exponent =>
    match onGrid exponent with
    | some decimal => some decimal
    | none => firstOnGrids onGrid grids (exponent - 1)

/-- The shortest decimal that is read as double number `n`. -/
def shortest (n : Nat) : Decimal :=
  let k := magnitude (Binary64.units n) Binary64.one
  (firstOnGrids (neighbour? n) (k + 1073).toNat (k - 1)).getD (exact n)

end Abacus.Decimal
