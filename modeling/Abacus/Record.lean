import Abacus.Expr.Eval
import Abacus.Program.Reading
import Abacus.Token.Lexing

/-!
# Records

What a run leaves in its log: the records of its stages, between a record of the source that it
began with and one of the value that it came to.
-/

namespace Abacus

/-- How important a record is. -/
inductive Record.Level
  | debug
  | trace
deriving Repr, DecidableEq

/-- The part of a run that made a record. -/
inductive Record.Stage
  | lexing
  | parsing
  | evaluation
  | run
deriving Repr, DecidableEq

/-- A record of a run. -/
inductive Record
  | running (source : String)
  | lex (record : LexRecord)
  | statement (record : StatementRecord)
  | combined (combination : Combination)
  | evaluated (value : Value)
deriving Repr

/-- The text of a record of the first stage. -/
def LexRecord.message : LexRecord → String
  | .lexed token => s!"lexed {token.dump}"
  | .tokenized count => s!"tokenized {count} tokens"

/-- The text of a record of the second stage. -/
def StatementRecord.message (r : StatementRecord) : String :=
  s!"parsed statement {r.index} ending at token {r.cursor}"

/-- The text of a record of the third stage. -/
def Combination.message (c : Combination) : String :=
  s!"{c.left.text} {c.op.symbol} {c.right.text} = {c.result.text}"

namespace Record

/-- How important a record is. -/
def level : Record → Level
  | .running _ | .evaluated _ => .debug
  | .lex _ | .statement _ | .combined _ => .trace

/-- Which part of the run made a record. -/
def stage : Record → Stage
  | .running _ | .evaluated _ => .run
  | .lex _ => .lexing
  | .statement _ => .parsing
  | .combined _ => .evaluation

/-- The text of a record. -/
def message : Record → String
  | .running source => s!"running {Text.quote source}"
  | .lex r => r.message
  | .statement r => r.message
  | .combined c => c.message
  | .evaluated value => s!"evaluated to {value.typeName} {value.text}"

end Record

end Abacus
