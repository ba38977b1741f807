import Abacus.Decimal.Written
import Abacus.Expr.Basic

/-!
# Outlines

The outline of an expression shows its tree: every operand stands on a line of its own, one tab
further in than its operator.

A chain of operators is as deep as it is long, so the outline is written from a stack of pieces
still to come and not by recursion on the tree.
-/

namespace Abacus.Expr

/-- A part of an outline that is still to be written. -/
inductive Piece
  | text (text : String)
  | node (expr : Expr) (depth : Nat)
deriving Repr

/-- How much there is to be written; it shrinks with every piece taken off a stack. -/
def Piece.weight : Piece → Nat
  | .text _ => 1
  | .node e _ => 4 * e.size

/-- How much the pieces of a stack leave to be written. -/
def Piece.weightOf : List Piece → Nat
  | [] => 0
  | piece :: rest => piece.weight + weightOf rest

/-- The tabs in front of a line. -/
def indent (depth : Nat) : String := String.ofList (List.replicate depth '\t')

/-- Writes the pieces of a stack after `done`, the topmost first. -/
def writePieces (done : String) : List Piece → String
  | [] => done
  | .text s :: rest => writePieces (done ++ s) rest
  | .node (.number x) depth :: rest =>
    writePieces (done ++ indent depth ++ Decimal.Style.plain.write x) rest
  | .node (.name text) depth :: rest => writePieces (done ++ indent depth ++ text) rest
  | .node .null depth :: rest => writePieces (done ++ indent depth ++ "null") rest
  | .node (.binary op l r) depth :: rest =>
    writePieces (done ++ indent depth ++ op.symbol ++ "(\n")
      (.node l (depth + 1) :: .text ",\n" :: .node r (depth + 1) :: .text ")" :: rest)
termination_by stack => Piece.weightOf stack
decreasing_by all_goals (simp only [Piece.weightOf, Piece.weight, size]; omega)

/-- The tree of an expression, an operand to a line. -/
def outline (e : Expr) : String := writePieces "" [.node e 0]

/-! ## Outlines by recursion -/

/-- The lines of an expression that stands `depth` tabs in. -/
def outlineAt (depth : Nat) : Expr → String
  | .number x => String.ofList (List.replicate depth '\t') ++ Decimal.Style.plain.write x
  | .name text => String.ofList (List.replicate depth '\t') ++ text
  | .null => String.ofList (List.replicate depth '\t') ++ "null"
  | .binary op l r =>
    String.ofList (List.replicate depth '\t') ++ op.symbol ++ "(\n" ++ l.outlineAt (depth + 1) ++
      ",\n" ++ r.outlineAt (depth + 1) ++ ")"

/-- A piece on top of a stack is written before the rest of the stack. -/
theorem writePieces_node (e : Expr) (depth : Nat) (done : String) (rest : List Piece) :
    writePieces done (.node e depth :: rest) = writePieces (done ++ e.outlineAt depth) rest := by
  induction e generalizing depth done rest with
  | number x => rw [writePieces, indent, outlineAt, String.append_assoc]
  | name text => rw [writePieces, indent, outlineAt, String.append_assoc]
  | null => rw [writePieces, indent, outlineAt, String.append_assoc]
  | binary op l r ihl ihr =>
    -- the operands are written in turn, each followed by its text piece
    rw [writePieces, indent, ihl, writePieces, ihr, writePieces, outlineAt]
    simp only [String.append_assoc]

/-- The pieces of an outline are written as the recursion writes them. -/
theorem outline_eq_outlineAt (e : Expr) : e.outline = e.outlineAt 0 := by
  rw [outline, writePieces_node, writePieces, String.empty_append]

end Abacus.Expr
