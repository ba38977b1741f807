/-!
# Positions

A place in a text is given by its line and its column, both counted from one; columns count
characters.  A newline ends the line that it stands on.
-/

namespace Abacus

/-- A place in a text. -/
structure Position where
  line : Nat
  column : Nat
deriving Repr, DecidableEq

namespace Position

/-- The place of the first character. -/
def start : Position := ⟨1, 1⟩

/-- The place after a character that stands at `p`. -/
def next (p : Position) (c : Char) : Position :=
  if c = '\n' then ⟨p.line + 1, 1⟩ else ⟨p.line, p.column + 1⟩

/-- The place after a text that begins at `p`. -/
def after (p : Position) (text : List Char) : Position := text.foldl next p

/-- Where `p`, a place in a text, is found when that text begins at `origin`. -/
def shift (origin p : Position) : Position :=
  if p.line = 1 then ⟨origin.line, origin.column + p.column - 1⟩
  else ⟨origin.line + p.line - 1, p.column⟩

/-- A position as it is shown to the reader. -/
def describe (p : Position) : String := s!"[line {p.line}, column {p.column}]"

end Position

end Abacus
