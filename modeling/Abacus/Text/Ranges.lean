/-!
# Ranges of code points

A set of characters is given by the ranges of code points that it is made of.
-/

namespace Abacus.Text

/-- Whether the code point of `c` lies in one of the ranges, ends included. -/
def inRanges (ranges : List (Nat × Nat)) (c : Char) : Bool :=
  ranges.any fun (first, last) => first ≤ c.toNat && c.toNat ≤ last

end Abacus.Text
