import Abacus.Decimal.Basic

/-!
# Reading numbers

The texts that are read as a double are an optional sign and then either one of the words `inf`,
`infinity` and `nan`, in any case of letters, or a decimal: digits with at most one point among
them, at least one digit, and an optional exponent `e` with an optional sign and at least one digit.
Nothing may stand before, between or after these parts.
-/

namespace Abacus.Numeral

/-- The number that a run of decimal digits stands for. -/
def valueOf (digits : List Char) : Nat :=
  digits.foldl (fun n c => 10 * n + (c.toNat - '0'.toNat)) 0

/-- An optional sign, and what follows it. -/
def sign : List Char → Bool × List Char
  | '-' :: cs => (true, cs)
  | '+' :: cs => (false, cs)
  | cs => (false, cs)

/-- The power of ten that an exponent stands for; no text stands for no exponent. -/
def exponent? : List Char → Option Int
  | [] => some 0
  | c :: cs =>
    let (negative, digits) := sign cs
    if (c = 'e' ∨ c = 'E') ∧ digits ≠ [] ∧ digits.all Char.isDigit then
      some (if negative then -(valueOf digits : Int) else valueOf digits)
    else none

/-- The digits after a point, if the text begins with one, and what follows them. -/
def fraction : List Char → List Char × List Char
  | '.' :: cs => (cs.takeWhile Char.isDigit, cs.dropWhile Char.isDigit)
  | cs => ([], cs)

/-- The decimal that an unsigned text stands for. -/
def decimal? (cs : List Char) : Option Decimal :=
  let whole := cs.takeWhile Char.isDigit
  let (part, rest) := fraction (cs.dropWhile Char.isDigit)
  if whole = [] ∧ part = [] then none
  else (exponent? rest).map fun e => ⟨valueOf (whole ++ part), e - part.length⟩

/-- The number of the double that an unsigned text stands for. -/
def magnitude? (cs : List Char) : Option Nat :=
  let word := cs.map Char.toLower
  if word = "inf".toList ∨ word = "infinity".toList then some Binary64.infinity
  else if word = "nan".toList then some (Binary64.infinity + Binary64.two 51)
  else (decimal? cs).map Decimal.nearest

/-- The double that a text stands for. -/
def read? (text : String) : Option Float :=
  let (negative, cs) := sign text.toList
  (magnitude? cs).map fun n =>
    if Binary64.infinity < n then Binary64.notANumber else Binary64.ofNumber negative n

end Abacus.Numeral
