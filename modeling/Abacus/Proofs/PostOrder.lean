import Abacus.Proofs.Evaluation
import Abacus.Record
import Mathlib.Data.List.Forall2

/-!
# The order of combinations

The records of an evaluation show in which order the operators of an expression are worked off.

1. `Expr.nodes` lists the operators of an expression in post-order, each with its operands and with
   the number of leaves to its left (`extract_leaves`).
2. Without a name, the evaluator makes one combination for each of them, in this order
   (`forall₂_shows_of_names_nil`).
3. The first name cuts this list: combined are exactly the operators whose leaves all stand to the
   left of it (`forall₂_shows`).
4. A program works off its statements one after the other, up to the first that fails
   (`trace_evaluateFrom`).
-/

namespace Abacus.Expr

/-! ## Leaves and operators -/

/-- The leaves of an expression, from left to right. -/
def leaves : Expr → List Expr
  | .binary _ l r => l.leaves ++ r.leaves
  | e => [e]

/-- Whether an expression is a name. -/
def isName : Expr → Bool
  | .name _ => true
  | _ => false

/-- How many leaves stand to the left of the first name; all of them, if there is no name. -/
def firstName (e : Expr) : Nat := e.leaves.findIdx isName

/-- An operator in its place in an expression. -/
structure Node where
  op : Op
  left : Expr
  right : Expr
  /-- How many leaves of the whole expression stand to the left of this operator's own. -/
  start : Nat

namespace Node

/-- The operator with its operands. -/
def expr (n : Node) : Expr := .binary n.op n.left n.right

/-- How many leaves stand to the left of where the last of this operator's own ends. -/
def stop (n : Node) : Nat := n.start + n.expr.leaves.length

@[simp] theorem stop_mk (op : Op) (l r : Expr) (start : Nat) :
    stop ⟨op, l, r, start⟩ = start + (l.leaves.length + r.leaves.length) := by
  rw [stop, expr, leaves, List.length_append]

/-- The combination is that of the operator: it shows the values of the two operands and what the
operator makes of them, which is the value of the operator with its operands. -/
structure Shows (n : Node) (c : Combination) : Prop where
  op : c.op = n.op
  left : n.left.eval = .ok c.left
  right : n.right.eval = .ok c.right
  combined : c.result = n.op.combine c.left c.right
  value : n.expr.eval = .ok c.result
  message : c.message =
    c.left.text ++ " " ++ n.op.symbol ++ " " ++ c.right.text ++ " = " ++ c.result.text

end Node

/-- The operators of an expression that has `start` leaves to its left, in post-order: those of the
left operand, those of the right operand, and then the operator between them. -/
def nodesFrom (start : Nat) : Expr → List Node
  | .binary op l r =>
    l.nodesFrom start ++ r.nodesFrom (start + l.leaves.length) ++ [⟨op, l, r, start⟩]
  | _ => []

/-- The operators of an expression, in post-order. -/
def nodes (e : Expr) : List Node := e.nodesFrom 0

section Places

variable {e l r : Expr} {op : Op} {start bound : Nat}

theorem length_leaves_pos (e : Expr) : 0 < e.leaves.length := by
  induction e with
  | binary op l r ihl _ =>
    rw [leaves, List.length_append]
    omega
  | _ => exact Nat.one_pos

/-- An operator has its leaves among those of the expression that it stands in. -/
theorem stop_bounds {n : Node} (h : n ∈ e.nodesFrom start) :
    start < n.stop ∧ n.stop ≤ start + e.leaves.length := by
  induction e generalizing start with
  | binary op l r ihl ihr =>
    have hl := length_leaves_pos l
    rw [leaves, List.length_append]
    rw [nodesFrom, List.mem_append, List.mem_append, List.mem_singleton] at h
    rcases h with (hleft | hright) | rfl
    · have hbounds := ihl hleft
      omega
    · have hbounds := ihr hright
      omega
    · rw [Node.stop_mk]
      omega
  | _ => exact absurd h (by simp [nodesFrom])

/-- The leaves of an operator are those that its place says, whatever stands around them. -/
theorem extract_leaves {n : Node} {before : List Expr} (h : n ∈ e.nodesFrom before.length)
    (after : List Expr) :
    (before ++ (e.leaves ++ after)).extract n.start n.stop = n.expr.leaves := by
  induction e generalizing before after with
  | binary op l r ihl ihr =>
    rw [nodesFrom, List.mem_append, List.mem_append, List.mem_singleton] at h
    rw [leaves, List.append_assoc]
    rcases h with (hleft | hright) | rfl
    · exact ihl hleft (r.leaves ++ after)
    · rw [← List.length_append] at hright
      rw [← List.append_assoc]
      exact ihr hright after
    · rw [Node.stop_mk, Node.expr, leaves, ← List.length_append, ← List.append_assoc l.leaves,
        List.extract_eq_take_drop, List.drop_left, Nat.add_sub_cancel_left, List.take_left]
  | _ => exact absurd h (by simp [nodesFrom])

theorem filter_nodesFrom_of_le (h : start + e.leaves.length ≤ bound) :
    (e.nodesFrom start).filter (fun n => n.stop ≤ bound) = e.nodesFrom start := by
  apply List.filter_eq_self.mpr
  intro n hn
  have hbounds := stop_bounds hn
  rw [decide_eq_true_eq]
  omega

theorem filter_nodesFrom_of_ge (h : bound ≤ start) :
    (e.nodesFrom start).filter (fun n => n.stop ≤ bound) = [] := by
  apply List.filter_eq_nil_iff.mpr
  intro n hn
  have hbounds := stop_bounds hn
  rw [decide_eq_true_eq]
  omega

/-- A bound before the last leaf of an operator keeps some operators of its operands, but not the
operator itself. -/
theorem filter_nodesFrom_binary (op : Op) (h : bound < start + (l.leaves.length + r.leaves.length)) :
    ((binary op l r).nodesFrom start).filter (fun n => n.stop ≤ bound) =
      (l.nodesFrom start).filter (fun n => n.stop ≤ bound) ++
        (r.nodesFrom (start + l.leaves.length)).filter (fun n => n.stop ≤ bound) := by
  have hown : ¬ Node.stop ⟨op, l, r, start⟩ ≤ bound := by
    rw [Node.stop_mk]
    omega
  rw [nodesFrom, List.filter_append, List.filter_append,
    List.filter_cons_of_neg (by simpa using hown), List.filter_nil, List.append_nil]

/-! ## The first name -/

theorem exists_isName_iff (e : Expr) : (∃ leaf ∈ e.leaves, isName leaf = true) ↔ e.names ≠ [] := by
  induction e with
  | binary op l r ihl ihr =>
    simp only [leaves, names, List.mem_append, or_and_right, exists_or, ihl, ihr, ne_eq,
      List.append_eq_nil_iff]
    exact Decidable.not_and_iff_not_or_not.symm
  | _ => simp [leaves, names, isName]

theorem firstName_lt (h : e.names ≠ []) : e.firstName < e.leaves.length :=
  List.findIdx_lt_length.mpr ((exists_isName_iff e).mpr h)

theorem firstName_of_names_nil (h : e.names = []) : e.firstName = e.leaves.length := by
  apply List.findIdx_eq_length.mpr
  intro leaf hleaf
  rw [Bool.eq_false_iff]
  intro hname
  exact (exists_isName_iff e).mp ⟨leaf, hleaf, hname⟩ h

theorem firstName_of_left (h : l.names ≠ []) : (binary op l r).firstName = l.firstName := by
  have hlt : l.leaves.findIdx isName < l.leaves.length := firstName_lt h
  rw [firstName, leaves, List.findIdx_append, if_pos hlt]
  rfl

theorem firstName_of_right (h : l.names = []) :
    (binary op l r).firstName = l.leaves.length + r.firstName := by
  have hlength : l.leaves.findIdx isName = l.leaves.length := firstName_of_names_nil h
  rw [firstName, leaves, List.findIdx_append, hlength, if_neg (Nat.lt_irrefl _), Nat.add_comm]
  rfl

end Places

/-! ## Records -/

section Trace

variable {l r : Expr} {x y : Value} {fault : EvalError}

theorem trace_of_left_error (op : Op) (r : Expr) (hl : l.eval = .error fault) :
    (binary op l r).evaluate.trace = l.evaluate.trace := by
  rw [← result_meaning] at hl
  rw [evaluate_eq_meaning, evaluate_eq_meaning, meaning, Traced.bind_of_error hl]

theorem trace_of_right_error (op : Op) (hl : l.eval = .ok x) (hr : r.eval = .error fault) :
    (binary op l r).evaluate.trace = l.evaluate.trace ++ r.evaluate.trace := by
  rw [← result_meaning] at hl hr
  rw [evaluate_eq_meaning, evaluate_eq_meaning, evaluate_eq_meaning, meaning,
    Traced.bind_of_ok hl, Traced.bind_of_error hr]

/-- An operator whose operands have values adds its own record behind theirs. -/
theorem trace_of_values (op : Op) (hl : l.eval = .ok x) (hr : r.eval = .ok y) :
    (binary op l r).evaluate.trace =
      l.evaluate.trace ++ r.evaluate.trace ++ [Combination.of op x y] := by
  rw [← result_meaning] at hl hr
  rw [evaluate_eq_meaning, evaluate_eq_meaning, evaluate_eq_meaning, meaning,
    Traced.bind_of_ok hl, Traced.bind_of_ok hr, List.append_assoc]
  rfl

theorem shows_of_values (op : Op) (start : Nat) (hl : l.eval = .ok x) (hr : r.eval = .ok y) :
    Node.Shows ⟨op, l, r, start⟩ (Combination.of op x y) where
  op := rfl
  left := hl
  right := hr
  combined := rfl
  value := by
    rw [Node.expr, eval, hl, hr]
    cases x <;> cases y <;> rfl
  message := by
    simp [Combination.message, Combination.of, toString]

end Trace

/-- By induction on the expression: the records of the left operand come first, then those of the
right operand, and the operator between them comes last. -/
theorem forall₂_shows_of_names_nil {e : Expr} (h : e.names = []) (start : Nat) :
    List.Forall₂ Node.Shows (e.nodesFrom start) e.evaluate.trace := by
  induction e generalizing start with
  | binary op l r ihl ihr =>
    rw [names, List.append_eq_nil_iff] at h
    rcases eval_of_names_nil h.1 with ⟨x, hx⟩
    rcases eval_of_names_nil h.2 with ⟨y, hy⟩
    rw [nodesFrom, trace_of_values op hx hy]
    apply List.rel_append
    · exact List.rel_append (ihl h.1 start) (ihr h.2 _)
    · exact .cons (shows_of_values op start hx hy) .nil
  | name text => exact absurd h (by simp [names])
  | number x =>
    rw [evaluate_eq_meaning]
    exact .nil
  | null =>
    rw [evaluate_eq_meaning]
    exact .nil

/-- By induction on the expression, with the first name in its left operand, in its right operand,
or nowhere. -/
theorem forall₂_shows (e : Expr) (start : Nat) :
    List.Forall₂ Node.Shows ((e.nodesFrom start).filter fun n => n.stop ≤ start + e.firstName)
      e.evaluate.trace := by
  induction e generalizing start with
  | binary op l r ihl ihr =>
    by_cases hl : l.names = []
    swap
    · -- the left operand fails, so neither the right one nor the operator is reached
      rcases List.exists_cons_of_ne_nil hl with ⟨text, others, htext⟩
      have hlt := firstName_lt hl
      have hright : (r.nodesFrom (start + l.leaves.length)).filter
          (fun n => n.stop ≤ start + l.firstName) = [] := filter_nodesFrom_of_ge (by omega)
      rw [trace_of_left_error op r (eval_of_names_cons htext), firstName_of_left hl,
        filter_nodesFrom_binary op (by omega), hright, List.append_nil]
      exact ihl start
    rcases eval_of_names_nil hl with ⟨x, hx⟩
    by_cases hr : r.names = []
    swap
    · -- the right operand fails after all records of the left one
      rcases List.exists_cons_of_ne_nil hr with ⟨text, others, htext⟩
      have hlt := firstName_lt hr
      have hleft : (l.nodesFrom start).filter
          (fun n => n.stop ≤ start + (l.leaves.length + r.firstName)) = l.nodesFrom start :=
        filter_nodesFrom_of_le (by omega)
      rw [trace_of_right_error op hx (eval_of_names_cons htext), firstName_of_right hl,
        filter_nodesFrom_binary op (by omega), hleft, ← Nat.add_assoc]
      exact List.rel_append (forall₂_shows_of_names_nil hl start) (ihr _)
    · have hnames : (binary op l r).names = [] := by
        rw [names, hl, hr]
        rfl
      rw [firstName_of_names_nil hnames, filter_nodesFrom_of_le (Nat.le_refl _)]
      exact forall₂_shows_of_names_nil hnames start
  | _ =>
    rw [evaluate_eq_meaning]
    exact .nil

end Abacus.Expr

namespace Abacus.Program

/-! ## Programs -/

/-- By induction on the statements: each leaves its records behind those of the statements before
it, and the first that fails is the last one looked at. -/
theorem trace_evaluateFrom (done : List Combination) (last : Value) (program : Program) :
    (evaluateFrom done last program).trace = done.reverse ++
      (program.take (program.findIdx (fun s => !s.evaluate.result.isOk) + 1)).flatMap
        fun s => s.evaluate.trace := by
  induction program generalizing done last with
  | nil => simp [evaluateFrom]
  | cons e rest ih =>
    rw [evaluateFrom, List.findIdx_cons]
    cases hresult : e.evaluate.result with
    | error fault => simp [Except.isOk, Except.toBool]
    | ok v =>
      simp only
      rw [ih]
      simp [Except.isOk, Except.toBool]

/-- The combinations of an evaluation are those of the operators whose leaves all stand to the left
of the first name, in post-order, one for each of them; without a name these are all operators.  The
place of an operator says which leaves are its own.  A program makes the combinations of its
statements, from the first one up to and including the first that fails. -/
theorem trace_in_post_order (e : Expr) (program : Program) :
    (∀ n ∈ e.nodes, e.leaves.extract n.start n.stop = n.expr.leaves) ∧
    List.Forall₂ Expr.Node.Shows (e.nodes.filter fun n => n.stop ≤ e.firstName)
      e.evaluate.trace ∧
    (e.names = [] → List.Forall₂ Expr.Node.Shows e.nodes e.evaluate.trace) ∧
    program.evaluate.trace =
      (program.take (program.findIdx (fun s => !s.evaluate.result.isOk) + 1)).flatMap
        fun s => s.evaluate.trace := by
  constructor
  · intro n hn
    have hleaves : ([] ++ (e.leaves ++ [])).extract n.start n.stop = n.expr.leaves :=
      Expr.extract_leaves hn []
    rw [List.nil_append, List.append_nil] at hleaves
    exact hleaves
  constructor
  · have hshows := Expr.forall₂_shows e 0
    rw [Nat.zero_add] at hshows
    exact hshows
  constructor
  · intro h
    exact Expr.forall₂_shows_of_names_nil h 0
  · exact trace_evaluateFrom [] .null program

/-- In `(1 + 2) * x - 3 / 4` only the sum is combined, and in `(1 + 2) * 3` it is combined first. -/
theorem trace_of_interrupted_product :
    let sum : Expr := .binary .plus (.number 1) (.number 2)
    let failing : Expr :=
      .binary .minus (.binary .times sum (.name "x")) (.binary .divide (.number 3) (.number 4))
    let product : Expr := .binary .times sum (.number 3)
    List.Forall₂ Expr.Node.Shows [⟨.plus, .number 1, .number 2, 0⟩] failing.evaluate.trace ∧
      List.Forall₂ Expr.Node.Shows
        [⟨.plus, .number 1, .number 2, 0⟩, ⟨.times, sum, .number 3, 0⟩] product.evaluate.trace ∧
      (evaluate [sum, failing, product]).trace = sum.evaluate.trace ++ failing.evaluate.trace := by
  intro sum failing product
  rcases trace_in_post_order failing [sum, failing, product] with ⟨_, hfailing, _, hprogram⟩
  have hvalue : sum.evaluate.result = .ok (.number (1 + 2)) := Expr.result_evaluate sum
  have hfault : failing.evaluate.result = .error (.unsupportedNode (.name "x")) :=
    Expr.result_evaluate failing
  refine ⟨hfailing, (trace_in_post_order product []).2.2.1 rfl, ?_⟩
  rw [hprogram]
  simp [List.findIdx_cons, hvalue, hfault, Except.isOk, Except.toBool]

end Abacus.Program
