import Abacus.Position
import Abacus.Text.Quoted

/-!
# Tokens

The smallest parts of a source that mean something, each with its place.  The last token of a source
is the end of the file.
-/

namespace Abacus

/-- What kind of thing a token is. -/
inductive Token.Kind
  | number
  | identifier
  | equals
  | letKeyword
  | openParen
  | closeParen
  | operator
  | endOfFile
deriving Repr, DecidableEq

/-- The name of a kind in messages. -/
def Token.Kind.name : Token.Kind → String
  | .number => "Number"
  | .identifier => "Identifier"
  | .equals => "Equals"
  | .letKeyword => "Let"
  | .openParen => "OpenParen"
  | .closeParen => "CloseParen"
  | .operator => "BinaryOperator"
  | .endOfFile => "EndOfFile"

/-- A token: its kind, the text that it was read from, and where that text begins. -/
structure Token where
  kind : Token.Kind
  lexeme : String
  pos : Position
deriving Repr, DecidableEq

namespace Token

/-- The end of a file that ends at `p`. -/
def endOfFile (p : Position) : Token := ⟨.endOfFile, Kind.endOfFile.name, p⟩

/-- Whether a token is an end of file. -/
def isEnd (t : Token) : Bool := t.kind = .endOfFile

/-- The place directly after a token. -/
def stop (t : Token) : Position := ⟨t.pos.line, t.pos.column + t.lexeme.length⟩

/-- A token as messages name it; the text of an end of file is never shown. -/
def describe (t : Token) : String :=
  if t.isEnd then Kind.endOfFile.name else s!"{t.kind.name} '{t.lexeme}'"

/-- A token with all its parts. -/
def dump (t : Token) : String :=
  "Token \x7b type: " ++ t.kind.name ++ ", lexeme: " ++ Text.quote t.lexeme ++
    s!", line: {t.pos.line}, column: {t.pos.column} \x7d"

end Token

end Abacus
