import Abacus.Expr.Outline
import Abacus.Failure
import Abacus.Record

/-!
# Runs

A run takes a source through the stages: characters to tokens, tokens to a program, a program to its
value.  It may stop early and show what an earlier stage made.
-/

namespace Abacus

/-- What a run shows. -/
inductive Emit
  | value
  | tokens
  | tree
deriving Repr, DecidableEq

namespace Emit

/-- The mode with the given name. -/
def ofName? (name : String) : Option Emit :=
  match name with
  | "value" => some .value
  | "tokens" => some .tokens
  | "ast" => some .tree
  | _ => none

/-- What is said about a name that no mode has. -/
def unknown (name : String) : String :=
  s!"unknown emit mode '{name}', expected one of value, tokens, ast"

end Emit

/-- A run of some stages: it leaves records and ends in a result or a failure. -/
abbrev Run := Traced Record Failure

namespace Run

/-- The tokens of a source. -/
def tokens (source : String) : Run (List Token) := (Token.tokenize source).embed .lex .lex

/-- The program of a source. -/
def program (source : String) : Run Program := do
  let tokens ← tokens source
  (Program.ofTokens tokens).embed .statement .parse

/-- The value of a source. -/
def value (source : String) : Run Value := do
  Traced.record (.running source)
  let program ← program source
  let value ← program.evaluate.embed .combined .eval
  Traced.record (.evaluated value)
  return value

/-- What a source comes to, as text, in the given mode. -/
def text (emit : Emit) (source : String) : Run String :=
  match emit with
  | .value => return (← value source).text
  | .tokens => return "\n".intercalate ((← tokens source).map Token.dump)
  | .tree => return "\n".intercalate ((← program source).map Expr.outline)

end Run

end Abacus
