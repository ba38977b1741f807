import Abacus.Expr.Basic
import Abacus.Token.Lexing

/-!
# Layout

Tokens put back into their places.  The text that comes out is the source that the tokens were read
from, up to blanks that cannot be seen: a tab counts as a space, and blanks at the end of a line are
dropped (`Layout.normalize`).  `Token.WellPlaced` says which rows of tokens have places that a
source could give them.
-/

namespace Abacus

namespace Layout

/-- The way from one place to a later one: newlines down, spaces to the right. -/
def gap (p q : Position) : List Char :=
  if p.line = q.line then List.replicate (q.column - p.column) ' '
  else List.replicate (q.line - p.line) '\n' ++ List.replicate (q.column - 1) ' '

/-- The text of a token; an end of file has none. -/
def written (t : Token) : List Char := if t.isEnd then [] else t.lexeme.toList

/-- The text of some tokens, written on from a place. -/
def writeFrom (p : Position) : List Token → List Char
  | [] => []
  | t :: rest => gap p t.pos ++ written t ++ writeFrom t.stop rest

/-- The text that has every token in its place. -/
def write (tokens : List Token) : String := String.ofList (writeFrom .start tokens)

/-- A text with spaces for tabs and no blanks at the end of a line that a newline ends. -/
def normalize : List Char → List Char
  | [] => []
  | c :: rest =>
    if c = ' ' ∨ c = '\t' then
      match normalize rest with
      | '\n' :: rest => '\n' :: rest
      | rest => ' ' :: rest
    else c :: normalize rest

end Layout

namespace Token

/-- Whether the text of a token is one that its kind can have. -/
def Fits (t : Token) : Prop :=
  match t.kind with
  | .number => t.lexeme ≠ "" ∧ t.lexeme.toList.all Char.isDigit
  | .identifier => t.lexeme ≠ "" ∧ t.lexeme.toList.all Text.isCased ∧ t.lexeme ≠ "let"
  | .letKeyword => t.lexeme = "let"
  | .equals => t.lexeme = "="
  | .openParen => t.lexeme = "("
  | .closeParen => t.lexeme = ")"
  | .operator => (Op.ofSymbol? t.lexeme).isSome
  | .endOfFile => t.lexeme = Kind.endOfFile.name

/-- Whether a kind is read from letters. -/
def Kind.isWord (kind : Kind) : Bool := kind = .identifier || kind = .letKeyword

/-- Whether two neighbouring tokens of these kinds would be read as one. -/
def Kind.merges (a b : Kind) : Bool := (a = .number && b = .number) || (a.isWord && b.isWord)

/-- Whether `u` can come next after `t`: further down, or further right on the same line, and not
merging with `t` if there is nothing between them. -/
def Precedes (t u : Token) : Prop :=
  t.pos.line < u.pos.line ∨
    t.pos.line = u.pos.line ∧ t.stop.column ≤ u.pos.column ∧
      (t.stop.column = u.pos.column → t.kind.merges u.kind = false)

/-- Whether `tokens` have texts and places that a source could give them. -/
structure WellPlaced (tokens : List Token) : Prop where
  /-- The last token is the only end of file. -/
  ends : ∃ before stop, tokens = before ++ [stop] ∧ stop.isEnd ∧ ∀ t ∈ before, t.isEnd = false
  fits : ∀ t ∈ tokens, t.Fits
  placed : ∀ t ∈ tokens, 1 ≤ t.pos.line ∧ 1 ≤ t.pos.column
  ordered : ∀ before t u after, tokens = before ++ t :: u :: after → t.Precedes u

end Token

end Abacus
