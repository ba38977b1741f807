import Abacus.Expr.Outline
import Mathlib.Tactic.Common

/-!
# Outlines piece by piece

The outline of an expression is written from a stack of pieces, and it comes out as the recursion
would write it.

1. `Draft.round` is one round of the writing.  It takes one piece off the stack, and it changes
   neither the outline that the stack leads to (`writePieces_of_round`) nor the number of rounds
   that are made in all (`rounds_of_round`).
2. So the rounds come to an end with an empty stack, after as many of them as the pieces stand for
   (`after_rounds`): two for every node but the first one, which takes one.
3. Whatever stands below a node on the stack, the outline of the node is written in front of it
   (`writePieces_node`).
-/

namespace Abacus.Expr

/-! ## Rounds -/

/-- How many rounds a piece takes.  An operator takes one for itself, those of its operands, and one
for each of the two texts that stand behind them. -/
def Piece.rounds : Piece → Nat
  | .text _ => 1
  | .node e _ => 2 * e.size - 1

/-- How many rounds the pieces of a stack take. -/
def Piece.roundsOf : List Piece → Nat
  | [] => 0
  | piece :: rest => piece.rounds + roundsOf rest

/-- An outline between two rounds: what is written, and the pieces still to come. -/
structure Draft where
  done : String
  pieces : List Piece

namespace Draft

/-- The stack from which an outline is begun. -/
def start (e : Expr) : Draft := ⟨"", [.node e 0]⟩

/-- How many rounds are still to be made. -/
def rounds (d : Draft) : Nat := Piece.roundsOf d.pieces

/-- One round takes the topmost piece off the stack and writes it, and an operator leaves its
operands there with the texts behind them.  Without a piece there is no round. -/
def round (d : Draft) : Option Draft :=
  match d.pieces with
  | [] => none
  | .text s :: rest => some ⟨d.done ++ s, rest⟩
  | .node (.number x) depth :: rest =>
    some ⟨d.done ++ indent depth ++ Decimal.Style.plain.write x, rest⟩
  | .node (.name text) depth :: rest => some ⟨d.done ++ indent depth ++ text, rest⟩
  | .node .null depth :: rest => some ⟨d.done ++ indent depth ++ "null", rest⟩
  | .node (.binary op l r) depth :: rest =>
    some ⟨d.done ++ indent depth ++ op.symbol ++ "(\n",
      .node l (depth + 1) :: .text ",\n" :: .node r (depth + 1) :: .text ")" :: rest⟩

/-- What `n` rounds lead to, if there are as many. -/
def after : (n : Nat) → Draft → Option Draft
  | 0, d => some d
  | n + 1, d => d.round.bind (after n)

variable {d d' : Draft}

theorem pieces_eq_nil_of_round (h : d.round = none) : d.pieces = [] := by
  rcases d with ⟨done, _ | ⟨s | ⟨e, depth⟩, rest⟩⟩
  · rfl
  · exact absurd h (by simp [round])
  · cases e <;> exact absurd h (by simp [round])

/-- One round: the writer does the same before it goes on with the stack. -/
theorem writePieces_of_round (h : d.round = some d') :
    writePieces d.done d.pieces = writePieces d'.done d'.pieces := by
  rcases d with ⟨done, _ | ⟨s | ⟨e, depth⟩, rest⟩⟩
  · exact absurd h (by simp [round])
  · rw [← Option.some.inj h, writePieces]
  · cases e with
    | number x => rw [← Option.some.inj h, writePieces]
    | name text => rw [← Option.some.inj h, writePieces]
    | null => rw [← Option.some.inj h, writePieces]
    | binary op l r => rw [← Option.some.inj h, writePieces]

/-- One round: one less is left. -/
theorem rounds_of_round (h : d.round = some d') : d.rounds = d'.rounds + 1 := by
  rcases d with ⟨done, _ | ⟨s | ⟨e, depth⟩, rest⟩⟩
  · exact absurd h (by simp [round])
  · rw [← Option.some.inj h]
    simp [rounds, Piece.roundsOf, Piece.rounds, Nat.add_comm]
  · cases e with
    | number x =>
      rw [← Option.some.inj h]
      simp [rounds, Piece.roundsOf, Piece.rounds, size, Nat.add_comm]
    | name text =>
      rw [← Option.some.inj h]
      simp [rounds, Piece.roundsOf, Piece.rounds, size, Nat.add_comm]
    | null =>
      rw [← Option.some.inj h]
      simp [rounds, Piece.roundsOf, Piece.rounds, size, Nat.add_comm]
    | binary op l r =>
      have hleft := l.size_pos
      have hright := r.size_pos
      rw [← Option.some.inj h]
      simp only [rounds, Piece.roundsOf, Piece.rounds, size]
      omega

theorem after_add (m n : Nat) (d : Draft) : after (m + n) d = (after m d).bind (after n) := by
  induction m generalizing d with
  | zero => rw [Nat.zero_add, after, Option.bind_some]
  | succ m ih =>
    rw [Nat.add_right_comm, after, after, Option.bind_assoc]
    congr 1
    funext d'
    exact ih d'

/-- By induction on the rounds that are left: the last of them leaves an empty stack, and all is
written. -/
theorem after_rounds (d : Draft) : d.after d.rounds = some ⟨writePieces d.done d.pieces, []⟩ := by
  obtain ⟨n, hn⟩ : ∃ n, d.rounds = n := ⟨_, rfl⟩
  rw [hn]
  induction n generalizing d with
  | zero =>
    cases hround : d.round with
    | none =>
      rcases d with ⟨done, pieces⟩
      obtain rfl : pieces = [] := pieces_eq_nil_of_round hround
      rw [after, writePieces]
    | some d' =>
      have hmore := rounds_of_round hround
      omega
  | succ n ih =>
    cases hround : d.round with
    | none =>
      have hnone : d.rounds = 0 := by rw [rounds, pieces_eq_nil_of_round hround]; rfl
      omega
    | some d' =>
      have hless := rounds_of_round hround
      rw [after, hround, Option.bind_some, ih d' (by omega), writePieces_of_round hround]

end Draft

/-- The outline of an expression is done when its stack is empty, which is the case after two rounds
a node less one, and no round can be made from there.  What is written then is what the recursion
writes. -/
theorem outline_after_rounds (e : Expr) :
    (Draft.start e).after (2 * e.size - 1) = some ⟨e.outline, []⟩ ∧
      (Draft.start e).after (2 * e.size) = none ∧ e.outline = e.outlineAt 0 := by
  have hrounds : (Draft.start e).rounds = 2 * e.size - 1 := by
    simp [Draft.rounds, Draft.start, Piece.roundsOf, Piece.rounds]
  have hlast : (Draft.start e).after (2 * e.size - 1) = some ⟨e.outline, []⟩ := by
    rw [← hrounds, Draft.after_rounds]
    rfl
  have hsize : 2 * e.size = 2 * e.size - 1 + 1 := by
    have hpos := e.size_pos
    omega
  refine ⟨hlast, ?_, outline_eq_outlineAt e⟩
  rw [hsize, Draft.after_add, hlast]
  rfl

end Abacus.Expr
