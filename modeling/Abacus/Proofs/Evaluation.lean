import Abacus.Expr.Meaning
import Mathlib.Tactic.Common

/-!
# The evaluator and the recursion

The evaluator works on two stacks, the recursion on the tree.  They agree:

1. `Stacks.round` is one round of the evaluator.  It either ends the evaluation or leaves less work
   than before (`weight_lt_of_round`), so an expression is done after two rounds a node
   (`runFor_start`).
2. Whatever stands below an expression on the two stacks, the evaluator goes on with the value of
   that expression, or stops at its first name (`runFrames_visit`).
3. The recursion fails at the first name and nowhere else; without names its value is null exactly
   if there is a null somewhere (`eval_cases`).
4. So the evaluator ends in the value of the recursion, and it never misses an operand nor keeps a
   value too many.
5. A program fails at its first name; without names it has the value of its last statement
   (`evaluateFrom_of_names_cons`, `evaluateFrom_of_names_nil`).
6. So the leaves of an expression or of a program settle what it comes to
   (`evaluate_eq_error_iff`).
-/

namespace Abacus.Expr

/-! ## Rounds -/

/-- The two stacks between two rounds, and the combinations made so far, the last one first. -/
structure Stacks where
  done : List Combination
  values : List Value
  frames : List Frame

namespace Stacks

/-- The stacks on which the evaluation of an expression begins. -/
def start (e : Expr) : Stacks := ⟨[], [], [.visit e]⟩

/-- How much work the frames stand for. -/
def weight (s : Stacks) : Nat := Frame.weightOf s.frames

/-- One round: it takes the topmost frame off, and it either ends the evaluation or leaves the
stacks for the next round. -/
def round (s : Stacks) : Traced Combination EvalError Value ⊕ Stacks :=
  match s.frames, s.values with
  | [], [v] => .inl ⟨s.done.reverse, .ok v⟩
  | [], _ => .inl ⟨s.done.reverse, .error .unbalanced⟩
  | .visit (.number x) :: frames, values => .inr ⟨s.done, .number x :: values, frames⟩
  | .visit .null :: frames, values => .inr ⟨s.done, .null :: values, frames⟩
  | .visit (.name text) :: _, _ => .inl ⟨s.done.reverse, .error (.unsupportedNode (.name text))⟩
  | .visit (.binary op l r) :: frames, values =>
    .inr ⟨s.done, values, .visit l :: .visit r :: .apply op :: frames⟩
  | .apply op :: frames, y :: x :: values =>
    .inr ⟨Combination.of op x y :: s.done, op.combine x y :: values, frames⟩
  | .apply op :: _, _ => .inl ⟨s.done.reverse, .error (.missingOperand op)⟩

/-- What the evaluation ends in, if it ends within `n` rounds. -/
def runFor : (n : Nat) → Stacks → Option (Traced Combination EvalError Value)
  | 0, _ => none
  | n + 1, s =>
    match s.round with
    | .inl outcome => some outcome
    | .inr s' => runFor n s'

end Stacks

/-- The evaluator takes one round after the other. -/
theorem runFrames_eq_round (s : Stacks) :
    runFrames s.done s.values s.frames =
      match s.round with
      | .inl outcome => outcome
      | .inr s' => runFrames s'.done s'.values s'.frames := by
  rcases s with ⟨done, values, _ | ⟨e | op, frames⟩⟩
  · -- no frame is left: one value is the result
    rcases values with _ | ⟨v, _ | ⟨w, values⟩⟩
    · rw [runFrames] <;> simp [Stacks.round]
    · rw [runFrames]
      rfl
    · rw [runFrames] <;> simp [Stacks.round]
  · cases e with
    | number x => rw [runFrames]; rfl
    | name text => rw [runFrames]; rfl
    | null => rw [runFrames]; rfl
    | binary op l r => rw [runFrames]; rfl
  · -- an operator takes the two topmost values
    rcases values with _ | ⟨y, _ | ⟨x, values⟩⟩
    · rw [runFrames] <;> simp [Stacks.round]
    · rw [runFrames] <;> simp [Stacks.round]
    · rw [runFrames]
      rfl

/-- A round that does not end the evaluation leaves less work. -/
theorem weight_lt_of_round {s s' : Stacks} (h : s.round = .inr s') : s'.weight < s.weight := by
  rcases s with ⟨done, values, _ | ⟨e | op, frames⟩⟩
  · rcases values with _ | ⟨v, _ | ⟨w, values⟩⟩ <;> simp [Stacks.round] at h
  · cases e with
    | name text => simp [Stacks.round] at h
    | number x =>
      obtain rfl := Sum.inr.inj h
      simp [Stacks.weight, Frame.weightOf, Frame.weight, size]
    | null =>
      obtain rfl := Sum.inr.inj h
      simp [Stacks.weight, Frame.weightOf, Frame.weight, size]
    | binary op l r =>
      obtain rfl := Sum.inr.inj h
      simp only [Stacks.weight, Frame.weightOf, Frame.weight, size]
      omega
  · rcases values with _ | ⟨y, _ | ⟨x, values⟩⟩
    · simp [Stacks.round] at h
    · simp [Stacks.round] at h
    · obtain rfl := Sum.inr.inj h
      simp [Stacks.weight, Frame.weightOf, Frame.weight]

/-- With more rounds than there is work, the evaluation comes to its end. -/
theorem runFor_of_weight_lt {n : Nat} {s : Stacks} (h : s.weight < n) :
    s.runFor n = some (runFrames s.done s.values s.frames) := by
  induction n generalizing s with
  | zero => exact absurd h (Nat.not_lt_zero _)
  | succ n ih =>
    rw [Stacks.runFor, runFrames_eq_round]
    cases hround : s.round with
    | inl outcome => rfl
    | inr s' =>
      have hlt := weight_lt_of_round hround
      exact ih (by omega)

/-- An expression is done after two rounds a node, and one more that finds no frame. -/
theorem runFor_start (e : Expr) : (Stacks.start e).runFor (2 * e.size + 1) = some e.evaluate := by
  refine runFor_of_weight_lt ?_
  simp [Stacks.weight, Stacks.start, Frame.weightOf, Frame.weight]

/-! ## Values -/

/-- The records of the recursion apart, its result is the plain value. -/
theorem result_meaning (e : Expr) : e.meaning.result = e.eval := by
  induction e with
  | number x => rfl
  | name text => rfl
  | null => rfl
  | binary op l r ihl ihr =>
    rw [meaning, eval, ← ihl, ← ihr]
    cases hl : l.meaning.result with
    | error fault => rw [Traced.bind_of_error hl]
    | ok v =>
      rw [Traced.bind_of_ok hl]
      simp only
      cases hr : r.meaning.result with
      | error fault => rw [Traced.bind_of_error hr]
      | ok w =>
        rw [Traced.bind_of_ok hr]
        simp only
        cases v <;> cases w <;> rfl

/-- The machine makes the combinations of the recursion and ends as it does. -/
theorem evaluate_eq_meaning (e : Expr) : e.evaluate = e.meaning := by
  unfold evaluate
  rw [runFrames_visit]
  cases hresult : e.meaning.result with
  | ok v =>
    simp only
    rw [runFrames, ← hresult]
    simp
  | error fault =>
    simp only
    rw [← hresult]
    simp

/-! ## Names and nulls -/

/-- The first name from the left ends the evaluation, whatever stands before it.  Without a name
there is a value, and it is null exactly if there is a null somewhere. -/
theorem eval_cases (e : Expr) :
    (∃ text others, e.names = text :: others ∧ e.eval = .error (.unsupportedNode (.name text))) ∨
      (e.names = [] ∧ e.hasNull = true ∧ e.eval = .ok .null) ∨
      (e.names = [] ∧ e.hasNull = false ∧ ∃ x, e.eval = .ok (.number x)) := by
  induction e with
  | number x => exact .inr (.inr ⟨rfl, rfl, x, rfl⟩)
  | null => exact .inr (.inl ⟨rfl, rfl, rfl⟩)
  | name text => exact .inl ⟨text, [], rfl, rfl⟩
  | binary op l r ihl ihr =>
    rw [eval, names, hasNull]
    rcases ihl with ⟨text, others, hnames, heval⟩ | hleft
    · -- the left operand has a name
      refine .inl ⟨text, others ++ r.names, by simp [hnames], ?_⟩
      rw [heval]
    rcases ihr with ⟨text, others, hnames, heval⟩ | hright
    · -- the left operand has a value, and the first name is in the right one
      rcases hleft with ⟨hl, _, hlv⟩ | ⟨hl, _, x, hlv⟩
      · refine .inl ⟨text, others, by simp [hl, hnames], ?_⟩
        rw [hlv, heval]
      · refine .inl ⟨text, others, by simp [hl, hnames], ?_⟩
        rw [hlv, heval]
    -- both operands have values
    right
    rcases hleft with ⟨hl, hln, hlv⟩ | ⟨hl, hln, x, hlv⟩
    · rcases hright with ⟨hr, hrn, hrv⟩ | ⟨hr, hrn, y, hrv⟩
      · exact .inl ⟨by simp [hl, hr], by simp [hln], by rw [hlv, hrv]⟩
      · exact .inl ⟨by simp [hl, hr], by simp [hln], by rw [hlv, hrv]⟩
    · rcases hright with ⟨hr, hrn, hrv⟩ | ⟨hr, hrn, y, hrv⟩
      · exact .inl ⟨by simp [hl, hr], by simp [hrn], by rw [hlv, hrv]⟩
      · exact .inr ⟨by simp [hl, hr], by simp [hln, hrn], op.apply x y, by rw [hlv, hrv]⟩

theorem eval_of_names_cons {e : Expr} {text : String} {others : List String}
    (h : e.names = text :: others) : e.eval = .error (.unsupportedNode (.name text)) := by
  rcases eval_cases e with ⟨text', others', hnames, heval⟩ | ⟨hnames, _⟩ | ⟨hnames, _⟩
  · rw [heval, (List.cons.inj (hnames.symm.trans h)).1]
  · exact absurd (hnames.symm.trans h) (by simp)
  · exact absurd (hnames.symm.trans h) (by simp)

theorem eval_of_names_nil {e : Expr} (h : e.names = []) : ∃ v, e.eval = .ok v := by
  rcases eval_cases e with ⟨text, others, hnames, _⟩ | ⟨_, _, heval⟩ | ⟨_, _, x, heval⟩
  · exact absurd (hnames.symm.trans h) (by simp)
  · exact ⟨.null, heval⟩
  · exact ⟨.number x, heval⟩

theorem eval_of_hasNull_eq_false {e : Expr} (hnames : e.names = []) (hnull : e.hasNull = false) :
    ∃ x, e.eval = .ok (.number x) := by
  rcases eval_cases e with ⟨text, others, hcons, _⟩ | ⟨_, htrue, _⟩ | ⟨_, _, x, heval⟩
  · exact absurd (hcons.symm.trans hnames) (by simp)
  · exact absurd (htrue.symm.trans hnull) (by simp)
  · exact ⟨x, heval⟩

/-- The recursion fails at names and nowhere else. -/
theorem eval_error {e : Expr} {fault : EvalError} (h : e.eval = .error fault) :
    ∃ text, fault = .unsupportedNode (.name text) := by
  rcases eval_cases e with ⟨text, _, _, heval⟩ | ⟨_, _, heval⟩ | ⟨_, _, x, heval⟩
  · exact ⟨text, (Except.error.inj (heval.symm.trans h)).symm⟩
  · exact absurd (heval.symm.trans h) (by simp)
  · exact absurd (heval.symm.trans h) (by simp)

theorem result_evaluate (e : Expr) : e.evaluate.result = e.eval := by
  rw [evaluate_eq_meaning, result_meaning]

/-- The evaluator ends, after at most two rounds a node and the last look at its frames.  It ends in
the value of the recursion, and neither with an operator that lacks an operand nor with other than
one value left. -/
theorem evaluate_refines_eval (e : Expr) :
    (Stacks.start e).runFor (2 * e.size + 1) = some e.evaluate ∧
      e.evaluate.result = e.eval ∧
      (∀ op, e.evaluate.result ≠ .error (.missingOperand op)) ∧
      e.evaluate.result ≠ .error .unbalanced := by
  refine ⟨runFor_start e, result_evaluate e, ?_, ?_⟩
  · intro op h
    rw [result_evaluate] at h
    rcases eval_error h with ⟨text, hfault⟩
    exact absurd hfault (by simp)
  · intro h
    rw [result_evaluate] at h
    rcases eval_error h with ⟨text, hfault⟩
    exact absurd hfault (by simp)

end Abacus.Expr

/-! ## Programs -/

namespace Abacus.Program

/-- The names in a program, from the first statement to the last. -/
def names (program : Program) : List String := program.flatMap Expr.names

theorem evaluateFrom_result (done : List Combination) (last : Value) (e : Expr) (rest : Program) :
    (evaluateFrom done last (e :: rest)).result =
      match e.eval with
      | .ok v => (evaluateFrom (e.evaluate.trace.reverse ++ done) v rest).result
      | .error fault => .error fault := by
  rw [evaluateFrom, Expr.result_evaluate]
  cases e.eval with
  | ok v => rfl
  | error fault => rfl

/-- A program fails at the first name of its first statement that has one. -/
theorem evaluateFrom_of_names_cons {done : List Combination} {last : Value} {program : Program}
    {text : String} {others : List String} (h : program.names = text :: others) :
    (evaluateFrom done last program).result = .error (.unsupportedNode (.name text)) := by
  induction program generalizing done last with
  | nil => exact absurd h (by simp [names])
  | cons e rest ih =>
    rw [evaluateFrom_result]
    cases hnames : e.names with
    | cons text' others' =>
      rw [Expr.eval_of_names_cons hnames]
      have hfirst : text' = text := by
        simp only [names, List.flatMap_cons, hnames, List.cons_append] at h
        exact (List.cons.inj h).1
      rw [hfirst]
    | nil =>
      rcases Expr.eval_of_names_nil hnames with ⟨v, heval⟩
      rw [heval]
      refine ih ?_
      simpa [names, hnames] using h

/-- Without a name, a program has the value of its last statement. -/
theorem evaluateFrom_of_names_nil {done : List Combination} {last : Value} {program : Program}
    (h : program.names = []) :
    (evaluateFrom done last program).result = (program.getLast?.map Expr.eval).getD (.ok last) := by
  induction program generalizing done last with
  | nil => rfl
  | cons e rest ih =>
    have hboth : e.names = [] ∧ names rest = [] := by
      simpa [names] using h
    rcases Expr.eval_of_names_nil hboth.1 with ⟨v, heval⟩
    rw [evaluateFrom_result, heval]
    simp only
    rw [ih hboth.2]
    cases rest with
    | nil => exact heval.symm
    | cons next rest => rw [List.getLast?_cons_cons]; rfl

/-- A program fails exactly at the first name of the first statement that has one. -/
theorem evaluate_eq_error_iff {program : Program} {fault : EvalError} :
    program.evaluate.result = .error fault ↔
      ∃ text, program.findSome? (fun s => s.names.head?) = some text ∧
        fault = .unsupportedNode (.name text) := by
  rw [← List.head?_flatMap]
  change _ ↔ ∃ text, (names program).head? = some text ∧ _
  unfold evaluate
  cases hnames : names program with
  | nil =>
    rw [evaluateFrom_of_names_nil hnames]
    cases hlast : program.getLast? with
    | none => simp
    | some e =>
      -- the last statement has no name either, so it has a value
      have he : e.names = [] := List.flatMap_eq_nil_iff.mp hnames e (List.mem_of_getLast? hlast)
      rcases Expr.eval_of_names_nil he with ⟨v, heval⟩
      simp [heval]
  | cons text others =>
    rw [evaluateFrom_of_names_cons hnames]
    simp [eq_comm]

/-- What an expression and a program come to can be read off their leaves.  The first name from the
left ends the evaluation of an expression, whatever stands before it.  Without a name the value is
null if there is a null anywhere, and else it is a number.  A program ends at the first name of its
first statement that has one, and otherwise in the value of its last statement, or in null if it has
none. -/
theorem evaluate_closed_form (e : Expr) (program : Program) :
    (∀ fault, e.evaluate.result = .error fault ↔
      ∃ text, e.names.head? = some text ∧ fault = .unsupportedNode (.name text)) ∧
    (e.names = [] →
      (e.evaluate.result = .ok .null ↔ e.hasNull = true) ∧
      ((∃ x, e.evaluate.result = .ok (.number x)) ↔ e.hasNull = false)) ∧
    (∀ fault, program.evaluate.result = .error fault ↔
      ∃ text, program.findSome? (fun s => s.names.head?) = some text ∧
        fault = .unsupportedNode (.name text)) ∧
    ((∀ s ∈ program, s.names = []) →
      program.evaluate.result =
        (program.getLast?.map fun s => s.evaluate.result).getD (.ok .null)) := by
  simp only [Expr.result_evaluate]
  refine ⟨?_, ?_, fun _ => evaluate_eq_error_iff, ?_⟩
  · intro fault
    rcases Expr.eval_cases e with ⟨text, others, hnames, heval⟩ | ⟨hnames, _, heval⟩ |
      ⟨hnames, _, x, heval⟩
    · simp [hnames, heval, eq_comm]
    · simp [hnames, heval]
    · simp [hnames, heval]
  · intro hnames
    rcases Expr.eval_cases e with ⟨text, others, hcons, _⟩ | ⟨_, hnull, heval⟩ |
      ⟨_, hnull, x, heval⟩
    · exact absurd (hcons.symm.trans hnames) (by simp)
    · simp [hnull, heval]
    · simp [hnull, heval]
  · intro hnames
    exact evaluateFrom_of_names_nil (List.flatMap_eq_nil_iff.mpr hnames)

/-- A null before a name does not keep the name from being met, but a null anywhere else settles the
value. -/
theorem evaluate_of_null_operand :
    let failing : Expr := .binary .plus .null (.name "x")
    let last : Expr := .binary .times (.number 2) (.binary .minus .null (.number 1))
    failing.evaluate.result = .error (.unsupportedNode (.name "x")) ∧
      (evaluate [.number 1, last]).result = .ok .null := by
  intro failing last
  have hfailing := (evaluate_closed_form failing []).1
  rcases evaluate_closed_form last [.number 1, last] with ⟨_, hvalue, _, hprogram⟩
  have hnames : ∀ s ∈ ([.number 1, last] : Program), s.names = [] := by
    simp [last, Expr.names]
  refine ⟨(hfailing _).mpr ⟨"x", rfl, rfl⟩, ?_⟩
  rw [hprogram hnames]
  exact (hvalue rfl).1.mpr rfl

end Abacus.Program
