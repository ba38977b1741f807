import Abacus.Program.Grammar

/-!
# The descent, call by call

The readers say what is read, and not in which state.  Here the levels of the grammar are calls that
make other calls and wait for them, while all of them share one cursor and one count of the groupings
that they have opened.

1. `Descent.State` is all there is between two steps, with the waiting calls on a stack.
2. `Descent.step` is one step: a call, a look at the next token, or a return.
3. `Descent.run` is the state after some steps, and `Descent.runWithin` gives up where more calls of
   an expression would be active than a limit allows.
-/

namespace Abacus.Descent

/-- What can be called: an expression, a level of the grammar, or what stands at the tightest
level. -/
inductive Call
  | expression
  | level (level : Level)
  | primary
deriving Repr, DecidableEq

/-- A call that waits for the call above it, with what it has to remember. -/
inductive Frame
  /-- An expression, for its loosest level. -/
  | expression
  /-- The level of a tier, for its first operand. -/
  | first (tier : Tier)
  /-- The level of a tier, for the operand behind an operator. -/
  | second (tier : Tier) (op : Op) (left : Expr)
  /-- The tightest level, for the only thing that it consists of. -/
  | single
  /-- A primary, for the expression between its parentheses. -/
  | group
deriving Repr

/-- What is done next. -/
inductive Control
  /-- The loop over the statements looks whether there is another one. -/
  | round
  /-- A call begins. -/
  | enter (call : Call)
  /-- The level of a tier looks whether an operator follows what it has read. -/
  | operators (tier : Tier) (left : Expr)
  /-- A call ends with an expression, which goes to the call that waits for it. -/
  | leave (e : Expr)
  /-- Nothing: the descent has come to its end. -/
  | done (result : Except ParseError Program)
deriving Repr

/-- The state between two steps. -/
structure State where
  /-- How many tokens have been read. -/
  cursor : Nat
  /-- The count of open groupings. -/
  depth : Nat
  /-- How often the loop over the statements has begun a round. -/
  rounds : Nat
  /-- The statements read so far, the last one first. -/
  body : Program
  /-- Their records, the last one first. -/
  records : List StatementRecord
  /-- The calls that wait, the innermost one first. -/
  stack : List Frame
  control : Control
deriving Repr

/-- Before the first token. -/
def start : State := ⟨0, 0, 0, [], [], [], .round⟩

namespace State

/-- The next token; behind the last one stands the end of file that is supplied. -/
def peek (tokens : List Token) (s : State) : Token :=
  tokens[s.cursor]?.getD (Program.suppliedEnd tokens)

/-- Goes over the next token, but never over an end of file. -/
def advance (tokens : List Token) (s : State) : State :=
  if (s.peek tokens).isEnd then s else { s with cursor := s.cursor + 1 }

/-- Lets a call wait. -/
def push (frame : Frame) (s : State) : State := { s with stack := frame :: s.stack }

/-- Begins a call. -/
def enter (callee : Call) (s : State) : State := { s with control := .enter callee }

/-- Ends the call that runs. -/
def leave (e : Expr) (s : State) : State := { s with control := .leave e }

/-- Goes on with the operators behind what the level of a tier has read. -/
def extend (tier : Tier) (left : Expr) (s : State) : State :=
  { s with control := .operators tier left }

/-- Comes to the end, with no call left. -/
def finish (result : Except ParseError Program) (s : State) : State :=
  { s with stack := [], control := .done result }

/-- A failure ends all calls at once. -/
def fail (e : ParseError) (s : State) : State := s.finish (.error e)

/-- One look of the loop over the statements. -/
def round (tokens : List Token) (s : State) : State :=
  if (s.peek tokens).isEnd then s.finish (.ok s.body.reverse)
  else { s with rounds := s.rounds + 1 }.enter .expression

/-- What stands at the tightest level: a name, a number, or a grouping, which is opened only if the
limit is not reached. -/
def primary (tokens : List Token) (s : State) : State :=
  let t := s.peek tokens
  match t.kind with
  | .identifier => (s.advance tokens).leave (.name t.lexeme)
  | .number =>
    match Numeral.read? t.lexeme with
    | some x => (s.advance tokens).leave (.number x)
    | none => (s.advance tokens).fail (.invalidNumber t)
  | .openParen =>
    if maxNesting ≤ s.depth then s.fail (.nestingTooDeep t maxNesting)
    else ({ s.advance tokens with depth := s.depth + 1 }.push .group).enter .expression
  | _ => s.fail (.unexpected t)

/-- One look of the loop over the operators of a tier. -/
def operators (tokens : List Token) (tier : Tier) (left : Expr) (s : State) : State :=
  match (s.peek tokens).operator? tier with
  | some op =>
    ((s.advance tokens).push (.second tier op left)).enter (.level tier.level.tighter)
  | none => s.leave left

/-- Closes a grouping behind the expression `e`.  It no longer counts when its parenthesis is looked
for. -/
def close (tokens : List Token) (e : Expr) (s : State) : State :=
  let t := s.peek tokens
  if t.kind = .closeParen then { s.advance tokens with depth := s.depth - 1 }.leave e
  else { s with depth := s.depth - 1 }.fail (.expected .closeParen t)

/-- Takes up the statement `e`. -/
def take (e : Expr) (s : State) : State :=
  { s with
    body := e :: s.body
    records := ⟨s.body.length + 1, s.cursor⟩ :: s.records
    control := .round }

/-- Hands `e` to the call that waits for it, or to the loop over the statements. -/
def resume (tokens : List Token) (e : Expr) (s : State) : State :=
  match s.stack with
  | [] => s.take e
  | .expression :: stack => { s with stack := stack }.leave e
  | .single :: stack => { s with stack := stack }.leave e
  | .first tier :: stack => { s with stack := stack }.extend tier e
  | .second tier op left :: stack => { s with stack := stack }.extend tier (.binary op left e)
  | .group :: stack => { s with stack := stack }.close tokens e

end State

/-- One step. -/
def step (tokens : List Token) (s : State) : State :=
  match s.control with
  | .round => s.round tokens
  | .enter .expression => (s.push .expression).enter (.level .sum)
  | .enter (.level .sum) => (s.push (.first .sum)).enter (.level .product)
  | .enter (.level .product) => (s.push (.first .product)).enter (.level .factor)
  | .enter (.level .factor) => (s.push .single).enter .primary
  | .enter .primary => s.primary tokens
  | .operators tier left => s.operators tokens tier left
  | .leave e => s.resume tokens e
  | .done _ => s

/-- The state `n` steps after `s`. -/
def State.after (tokens : List Token) (s : State) : (n : Nat) → State
  | 0 => s
  | n + 1 => step tokens (s.after tokens n)

/-- The state after `n` steps from the beginning. -/
def run (tokens : List Token) (n : Nat) : State := start.after tokens n

namespace State

/-- What the descent has come to, once it has ended. -/
def ending? (s : State) : Option (Traced StatementRecord ParseError Program) :=
  match s.control with
  | .done result => some ⟨s.records.reverse, result⟩
  | _ => none

/-- A call has just ended, and it was the one that `callers` wait for. -/
def ReturnsTo (callers : List Frame) (s : State) : Prop :=
  s.stack = callers ∧ ∃ e, s.control = .leave e

end State

/-- The call that begins in `s` ends well in `s'`: there, for the first time, something is handed to
the calls that waited in `s`. -/
def Succeeds (tokens : List Token) (s s' : State) : Prop :=
  ∃ n, s' = s.after tokens n ∧ s'.ReturnsTo s.stack ∧
    ∀ m < n, ¬ (s.after tokens m).ReturnsTo s.stack

/-! ## Open groupings and active expressions -/

/-- How many of the tokens open a grouping. -/
def openings (tokens : List Token) : Nat := tokens.countP fun t => t.kind = .openParen

/-- How many of the tokens close a grouping. -/
def closings (tokens : List Token) : Nat := tokens.countP fun t => t.kind = .closeParen

/-- Whether a call of an expression waits here. -/
def Frame.isExpression : Frame → Bool
  | .expression => true
  | _ => false

/-- Whether a primary waits here for what stands in its grouping. -/
def Frame.isGroup : Frame → Bool
  | .group => true
  | _ => false

/-- Whether a call of an expression begins. -/
def Control.entersExpression : Control → Bool
  | .enter .expression => true
  | _ => false

namespace State

/-- How many calls of an expression have begun and not ended. -/
def active (s : State) : Nat :=
  s.stack.countP Frame.isExpression + s.control.entersExpression.toNat

/-- How many primaries wait for what stands in the groupings that they have opened. -/
def groups (s : State) : Nat := s.stack.countP Frame.isGroup

end State

/-- One step, but none where an expression is called and more than `limit` of these calls are
active. -/
def stepWithin (limit : Nat) (tokens : List Token) (s : State) : Option State :=
  if s.control.entersExpression ∧ limit < s.active then none else some (step tokens s)

/-- The state after `n` steps, unless one of them was not taken. -/
def runWithin (limit : Nat) (tokens : List Token) : (n : Nat) → Option State
  | 0 => some start
  | n + 1 => (runWithin limit tokens n).bind (stepWithin limit tokens)

end Abacus.Descent
