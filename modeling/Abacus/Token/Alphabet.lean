import Abacus.Text.Cased
import Abacus.Token.Basic

/-!
# The alphabet

The characters that a source may be written in, and the part that each of them plays.
-/

namespace Abacus

/-- The part a character plays: it separates, it belongs to a run, or it is a token by itself. -/
inductive Role
  | blank
  | digit
  | letter
  | mark (kind : Token.Kind)
deriving Repr, DecidableEq

namespace Role

/-- The part that a character plays; one outside the alphabet plays none. -/
def of? (c : Char) : Option Role :=
  match c with
  | ' ' | '\t' | '\n' => some .blank
  | '(' => some (.mark .openParen)
  | ')' => some (.mark .closeParen)
  | '+' | '-' | '*' | '/' | '%' => some (.mark .operator)
  | '=' => some (.mark .equals)
  | c => if c.isDigit then some .digit else if Text.isCased c then some .letter else none

/-- Whether two neighbouring characters belong to the same token: both are digits or both are
letters. -/
def joins : Option Role → Option Role → Bool
  | some .digit, some .digit => true
  | some .letter, some .letter => true
  | _, _ => false

end Role

/-- Whether a source may hold a character. -/
def isRecognized (c : Char) : Bool := (Role.of? c).isSome

end Abacus
