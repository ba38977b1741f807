import Abacus.Program.Reading

/-!
# Recognizing programs

Whether tokens are a program, and what is wrong with them if not, can be told without building a
tree: it is enough to count the groupings that are open and to know what may come next.

1. `Scan` is what is known between two tokens: the mode and the number of open groupings.
2. `Scan.take` is what one token does to it; an end of file is a token like any other.
3. `recognize` goes through the tokens once, with an end of file supplied after the last one.

The scan shares no limit, no list of operators and no place with the readers: it states its own.
-/

namespace Abacus

/-- What may come next. -/
inductive Scan.Mode
  /-- A statement, or the end. -/
  | start
  /-- An operand. -/
  | operand
  /-- An operator, or whatever ends the expression. -/
  | after
deriving Repr, DecidableEq

/-- What is known between two tokens. -/
structure Scan where
  mode : Scan.Mode
  /-- How many groupings are open. -/
  depth : Nat
deriving Repr, DecidableEq

namespace Scan

/-- How a token leaves a scan that it does not fail. -/
inductive Next
  | accept
  | more (scan : Scan)
deriving Repr, DecidableEq

/-- Whether a token is one of the five operators. -/
def isOperator (t : Token) : Bool :=
  t.kind = .operator && ["+", "-", "*", "/", "%"].contains t.lexeme

/-- What a token does where an operand has to stand. -/
def takeOperand (depth : Nat) (t : Token) : Except ParseError Next :=
  match t.kind with
  | .identifier => .ok (.more ⟨.after, depth⟩)
  | .number =>
    match Numeral.read? t.lexeme with
    | some _ => .ok (.more ⟨.after, depth⟩)
    | none => .error (.invalidNumber t)
  | .openParen =>
    if 256 ≤ depth then .error (.nestingTooDeep t 256)
    else .ok (.more ⟨.operand, depth + 1⟩)
  | _ => .error (.unexpected t)

/-- What a token does where a statement or the end may stand. -/
def takeStart (depth : Nat) (t : Token) : Except ParseError Next :=
  if t.isEnd then .ok .accept else takeOperand depth t

/-- What a token does after an operand. -/
def takeAfter (depth : Nat) (t : Token) : Except ParseError Next :=
  if isOperator t then .ok (.more ⟨.operand, depth⟩)
  else if depth = 0 then takeStart depth t
  else if t.kind = .closeParen then .ok (.more ⟨.after, depth - 1⟩)
  else .error (.expected .closeParen t)

/-- What a token does to a scan. -/
def take (scan : Scan) (t : Token) : Except ParseError Next :=
  match scan.mode with
  | .start => takeStart scan.depth t
  | .operand => takeOperand scan.depth t
  | .after => takeAfter scan.depth t

@[simp] theorem take_start (depth : Nat) (t : Token) :
    take ⟨.start, depth⟩ t = takeStart depth t := rfl

@[simp] theorem take_operand (depth : Nat) (t : Token) :
    take ⟨.operand, depth⟩ t = takeOperand depth t := rfl

@[simp] theorem take_after (depth : Nat) (t : Token) :
    take ⟨.after, depth⟩ t = takeAfter depth t := rfl

/-- Goes through the tokens one by one, with `stop` after the last one, until one of them accepts or
fails. -/
def run (stop : Token) (scan : Scan) : List Token → Except ParseError Unit
  | [] =>
    match scan.take stop with
    | .error e => .error e
    | .ok _ => .ok ()
  | t :: rest =>
    match scan.take t with
    | .error e => .error e
    | .ok .accept => .ok ()
    | .ok (.more scan) => run stop scan rest

/-- The end of file behind tokens: on the line of the last one, and further right than that by the
characters of its text.  Without tokens it stands at the very beginning. -/
def supplied : List Token → Token
  | [] => ⟨.endOfFile, "EndOfFile", ⟨1, 1⟩⟩
  | [last] => ⟨.endOfFile, "EndOfFile", ⟨last.pos.line, last.pos.column + last.lexeme.length⟩⟩
  | _ :: t :: rest => supplied (t :: rest)

end Scan

/-- Whether the tokens up to the first end of file are a program. -/
def Program.recognize (tokens : List Token) : Except ParseError Unit :=
  Scan.run (Scan.supplied tokens) ⟨.start, 0⟩ tokens

end Abacus
