import Abacus.Expr.Basic
import Abacus.Traced
import Abacus.Value

/-!
# Evaluation

An expression is evaluated from left to right, operands before their operator.  Every combination
of two values is recorded.  There is nothing that a name could stand for, so the first name met ends
the evaluation.

A chain of operators is as deep as it is long, so the evaluator is a machine with two stacks: the
frames still to be worked off, and the values waiting for their operator.
-/

namespace Abacus

/-- How an operator combines two values: null with anything is null. -/
def Op.combine (op : Op) : Value → Value → Value
  | .number x, .number y => .number (op.apply x y)
  | _, _ => .null

/-- Two values and what an operator made of them. -/
structure Combination where
  left : Value
  op : Op
  right : Value
  result : Value
deriving Repr, DecidableEq

/-- The combination of two values by an operator. -/
def Combination.of (op : Op) (left right : Value) : Combination :=
  ⟨left, op, right, op.combine left right⟩

/-- Why an evaluation ends without a value. -/
inductive EvalError
  /-- A node that has no value, which a name is. -/
  | unsupportedNode (node : Expr)
  /-- An operator found fewer than two values. -/
  | missingOperand (op : Op)
  /-- Other than one value was left. -/
  | unbalanced
deriving Repr

namespace Expr

/-- A step that the evaluator has still to take. -/
inductive Frame
  | visit (expr : Expr)
  | apply (op : Op)
deriving Repr

/-- How much work a frame stands for; it shrinks with every step. -/
def Frame.weight : Frame → Nat
  | .visit e => 2 * e.size
  | .apply _ => 1

/-- How much work the frames of a stack stand for. -/
def Frame.weightOf : List Frame → Nat
  | [] => 0
  | frame :: rest => frame.weight + weightOf rest

/-- Works off a stack of frames, with the values waiting on the second stack.  The combinations made
so far stand in `done`, the last one first. -/
def runFrames (done : List Combination) (values : List Value) :
    List Frame → Traced Combination EvalError Value
  | [] =>
    match values with
    | [v] => ⟨done.reverse, .ok v⟩
    | _ => ⟨done.reverse, .error .unbalanced⟩
  | .visit (.number x) :: frames => runFrames done (.number x :: values) frames
  | .visit .null :: frames => runFrames done (.null :: values) frames
  | .visit (.name text) :: _ => ⟨done.reverse, .error (.unsupportedNode (.name text))⟩
  | .visit (.binary op l r) :: frames =>
    runFrames done values (.visit l :: .visit r :: .apply op :: frames)
  | .apply op :: frames =>
    match values with
    | y :: x :: values =>
      let c := Combination.of op x y
      runFrames (c :: done) (c.result :: values) frames
    | _ => ⟨done.reverse, .error (.missingOperand op)⟩
termination_by frames => Frame.weightOf frames
decreasing_by all_goals (simp only [Frame.weightOf, Frame.weight, size]; omega)

/-- The value of an expression. -/
def evaluate (e : Expr) : Traced Combination EvalError Value := runFrames [] [] [.visit e]

end Expr

namespace Program

/-- Evaluates the statements of a program in order; `last` is the value of the one before.  The
combinations made so far stand in `done`, the last one first. -/
def evaluateFrom (done : List Combination) (last : Value) :
    Program → Traced Combination EvalError Value
  | [] => ⟨done.reverse, .ok last⟩
  | e :: rest =>
    let step := e.evaluate
    match step.result with
    | .ok v => evaluateFrom (step.trace.reverse ++ done) v rest
    | .error fault => ⟨done.reverse ++ step.trace, .error fault⟩

/-- The value of a program is that of its last statement; an empty program has none. -/
def evaluate (program : Program) : Traced Combination EvalError Value :=
  evaluateFrom [] .null program

end Program

end Abacus
