import Abacus.Expr.Dump
import Abacus.Expr.Eval
import Abacus.Program.Reading
import Abacus.Token.Lexing

/-!
# Failures

A run fails in one of its three stages.  Failures of the first two have a place in the source; an
expression does not know where it came from, so those of the last one have none.
-/

namespace Abacus

/-- What kind of thing went wrong. -/
inductive Failure.Kind
  | unrecognizedCharacter
  | expectedToken
  | unexpectedToken
  | invalidNumber
  | nestingTooDeep
  | unsupportedNode
  /-- An operator was applied to too few values. -/
  | missingOperand
  /-- Other than one value was left. -/
  | unbalanced
deriving Repr, DecidableEq

/-- What ended a run. -/
inductive Failure
  | lex (error : LexError)
  | parse (error : ParseError)
  | eval (error : EvalError)
deriving Repr

/-- The token at which a program cannot be read on. -/
def ParseError.token : ParseError → Token
  | .expected _ found => found
  | .unexpected found => found
  | .invalidNumber token => token
  | .nestingTooDeep token _ => token

/-- What is wrong with the tokens, without their place. -/
def ParseError.message : ParseError → String
  | .expected kind found => s!"Expected {kind.name}, but encountered {found.describe}"
  | .unexpected found => s!"Unexpected token {found.describe}"
  | .invalidNumber token => s!"Invalid numeric literal '{token.lexeme}'"
  | .nestingTooDeep _ limit => s!"Groupings nested deeper than {limit} levels"

/-- What is wrong with the expression. -/
def EvalError.message : EvalError → String
  | .unsupportedNode node => s!"Unsupported node {node.dump}"
  | .missingOperand op => s!"Operator {op.symbol} applied with fewer than two operands"
  | .unbalanced => "Evaluation did not leave exactly one value"

/-! ## Lines for the reader -/

/-- The line that reports a foreign character. -/
def LexError.display (error : LexError) : String :=
  s!"{error.pos.describe} Error: Unrecognized character '{error.char}'"

/-- The line that reports tokens which are no program. -/
def ParseError.display : ParseError → String
  | .expected kind found =>
    s!"{found.pos.describe} Error: Expected {kind.name}, but encountered {found.describe}"
  | .unexpected found => s!"{found.pos.describe} Error: Unexpected token {found.describe}"
  | .invalidNumber token =>
    s!"{token.pos.describe} Error: Invalid numeric literal '{token.lexeme}'"
  | .nestingTooDeep token limit =>
    s!"{token.pos.describe} Error: Groupings nested deeper than {limit} levels"

/-- The line that reports an expression without a value, which has no place. -/
def EvalError.display : EvalError → String
  | .unsupportedNode node => s!"Error: Unsupported node {node.dump}"
  | .missingOperand op => s!"Error: Operator {op.symbol} applied with fewer than two operands"
  | .unbalanced => "Error: Evaluation did not leave exactly one value"

namespace Failure

/-- The kind of a failure. -/
def kind : Failure → Kind
  | .lex _ => .unrecognizedCharacter
  | .parse (.expected _ _) => .expectedToken
  | .parse (.unexpected _) => .unexpectedToken
  | .parse (.invalidNumber _) => .invalidNumber
  | .parse (.nestingTooDeep _ _) => .nestingTooDeep
  | .eval (.unsupportedNode _) => .unsupportedNode
  | .eval (.missingOperand _) => .missingOperand
  | .eval .unbalanced => .unbalanced

/-- Where in the source the fault lies, if that is known. -/
def pos? : Failure → Option Position
  | .lex error => some error.pos
  | .parse error => some error.token.pos
  | .eval _ => none

/-- What went wrong, without the place. -/
def message : Failure → String
  | .lex error => s!"Unrecognized character '{error.char}'"
  | .parse error => error.message
  | .eval error => error.message

/-- The line that reports a failure to the reader. -/
def display : Failure → String
  | .lex error => error.display
  | .parse error => error.display
  | .eval error => error.display

end Failure

end Abacus
