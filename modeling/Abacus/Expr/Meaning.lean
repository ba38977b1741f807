import Abacus.Expr.Eval

/-!
# The meaning of an expression

Evaluation by recursion on the tree: the left operand, then the right one, then their combination.
`Expr.eval` gives the value alone, `Expr.meaning` also records the combinations on the way.  The
machine of `Expr.evaluate` does the same work without recursion; `runFrames_visit` says what it does
with an expression on top of its stack.
-/

namespace Abacus.Expr

/-- The value of an expression, by recursion.  The right operand counts only if the left one has a
value, and anything but two numbers is combined to null. -/
def eval : Expr → Except EvalError Value
  | .number x => .ok (.number x)
  | .null => .ok .null
  | .name text => .error (.unsupportedNode (.name text))
  | .binary op l r =>
    match l.eval with
    | .error fault => .error fault
    | .ok v =>
      match r.eval with
      | .error fault => .error fault
      | .ok w =>
        match v, w with
        | .number x, .number y => .ok (.number (op.apply x y))
        | _, _ => .ok .null

/-- The value of an expression and the combinations on the way to it, by recursion. -/
def meaning : Expr → Traced Combination EvalError Value
  | .number x => return .number x
  | .null => return .null
  | .name text => .error (.unsupportedNode (.name text))
  | .binary op l r => do
    let x ← l.meaning
    let y ← r.meaning
    Traced.record (Combination.of op x y)
    return op.combine x y

/-- The names in an expression, from left to right. -/
def names : Expr → List String
  | .name text => [text]
  | .binary _ l r => l.names ++ r.names
  | _ => []

/-- Whether there is a null in an expression. -/
def hasNull : Expr → Bool
  | .null => true
  | .binary _ l r => l.hasNull || r.hasNull
  | _ => false

/-- The machine makes the combinations of the expression on top of its stack.  Then it either stacks
the value and goes on with the other frames, or it stops at the error. -/
theorem runFrames_visit (e : Expr) (done : List Combination) (values : List Value)
    (frames : List Frame) :
    runFrames done values (.visit e :: frames) =
      match e.meaning.result with
      | .ok v => runFrames (e.meaning.trace.reverse ++ done) (v :: values) frames
      | .error fault => ⟨done.reverse ++ e.meaning.trace, .error fault⟩ := by
  induction e generalizing done values frames with
  | number x => rw [runFrames]; rfl
  | null => rw [runFrames]; rfl
  | name text =>
    rw [runFrames]
    simp [meaning, Traced.error]
  | binary op l r ihl ihr =>
    rw [runFrames, ihl, meaning]
    cases hl : l.meaning.result with
    | error fault =>
      -- the left operand fails: nothing else is looked at
      rw [Traced.bind_of_error hl]
    | ok x =>
      rw [Traced.bind_of_ok hl]
      simp only
      rw [ihr]
      cases hr : r.meaning.result with
      | error fault =>
        -- the right operand fails after the combinations of the left one
        rw [Traced.bind_of_error hr]
        simp
      | ok y =>
        -- both operands are on the stack, the right one on top
        rw [Traced.bind_of_ok hr]
        simp only
        rw [runFrames]
        simp [Traced.record, Traced.bind, bind, pure, Traced.ok, Combination.of]

end Abacus.Expr
