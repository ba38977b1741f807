import Abacus.Decimal.Shortest

/-!
# Numbers as text

A double is written with the digits of its shortest decimal.  What else the text holds is settled by
a `Style`: `Style.plain` is for readers and never uses an exponent, `Style.literal` is for dumps,
marks whole numbers with `.0` and writes very large and very small numbers with an exponent.
-/

namespace Abacus.Decimal

/-- How the digits of a number are laid out. -/
structure Style where
  /-- What follows a whole number. -/
  whole : String
  /-- Which powers of ten of the leading digit are written as an exponent. -/
  isScientific : Int → Bool

/-- No exponents, and whole numbers without a point: `11`, `2.5`, `100000000000000000000000`. -/
def Style.plain : Style where
  whole := ""
  isScientific _ := false

/-- A point in every number below `1e16`, and an exponent from there on and below `1e-4`. -/
def Style.literal : Style where
  whole := ".0"
  isScientific e := e < -4 || 16 ≤ e

/-- A run of `n` zeros. -/
def zeros (n : Nat) : List Char := List.replicate n '0'

/-- The digits of `d` around a decimal point; a whole number ends in `whole` instead. -/
def positional (whole : String) (d : Decimal) : List Char :=
  let ds := Nat.toDigits 10 d.digits
  let point := ds.length + d.exponent
  if 0 ≤ d.exponent then ds ++ zeros d.exponent.toNat ++ whole.toList
  else if 0 < point then ds.take point.toNat ++ '.' :: ds.drop point.toNat
  else '0' :: '.' :: zeros (-point).toNat ++ ds

/-- The leading digit of `d`, a point before the others if there are any, and the power of ten. -/
def scientific (d : Decimal) : List Char :=
  let ds := Nat.toDigits 10 d.digits
  let power := ds.length + d.exponent - 1
  let fraction := if ds.length ≤ 1 then [] else '.' :: ds.drop 1
  let sign := if power < 0 then ['-'] else []
  ds.take 1 ++ fraction ++ 'e' :: sign ++ Nat.toDigits 10 power.natAbs

/-- The text of a decimal in a style. -/
def Style.layout (style : Style) (d : Decimal) : List Char :=
  if d.digits ≠ 0 ∧ style.isScientific (digitCount d.digits + d.exponent - 1) then scientific d
  else positional style.whole d

/-- The text of a double in a style: a zero keeps its sign, and what is not a number has none. -/
def Style.write (style : Style) (x : Float) : String :=
  let n := Binary64.number x
  if Binary64.infinity < n then "NaN"
  else
    let sign := if Binary64.isNegative x then "-" else ""
    if n = Binary64.infinity then sign ++ "inf"
    else if n = 0 then sign ++ "0" ++ style.whole
    else sign ++ String.ofList (style.layout (shortest n))

end Abacus.Decimal
