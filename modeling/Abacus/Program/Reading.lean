import Abacus.Decimal.Numeral
import Abacus.Expr.Basic
import Abacus.Token.Basic
import Abacus.Traced

/-!
# From tokens to programs

A program is read from left to right by the grammar

    statement := sum
    sum       := product (("+" | "-") product)*
    product   := factor (("*" | "/" | "%") factor)*
    factor    := name | number | "(" sum ")"

Operators of one tier associate to the left, groupings leave no node, and statements follow each
other without a separator.  At most `maxNesting` groupings may be open at once.

1. A `Reading` of a row of tokens is a tree with the tokens that are left after it.
2. A `Reader` reads the front of any row of tokens: `factor`, and `chain` for each tier.
3. `Program.ofTokens` reads statements up to the end of the file.
-/

namespace Abacus

/-- How many groupings may be open at once. -/
def maxNesting : Nat := 256

/-- Why tokens are no program. -/
inductive ParseError
  /-- Something else stands where a token of this kind has to. -/
  | expected (kind : Token.Kind) (found : Token)
  /-- The token cannot begin an expression. -/
  | unexpected (found : Token)
  /-- The text of a number token stands for no number. -/
  | invalidNumber (token : Token)
  /-- The token opens one grouping more than the limit allows. -/
  | nestingTooDeep (token : Token) (limit : Nat)
deriving Repr, DecidableEq

/-- What is recorded after each statement: how many statements and how many tokens have been
read. -/
structure StatementRecord where
  index : Nat
  cursor : Nat
deriving Repr, DecidableEq

/-- The operator of the given tier that a token is. -/
def Token.operator? (t : Token) (tier : Tier) : Option Op :=
  if t.kind = .operator then (Op.ofSymbol? t.lexeme).filter (·.tier = tier) else none

/-- The front of `tokens`, read as an expression. -/
structure Reading (tokens : List Token) where
  tree : Expr
  /-- How many tokens were read. -/
  used : Nat
  /-- The tokens that are left. -/
  rest : List Token
  used_pos : 0 < used
  used_add_length : used + rest.length = tokens.length

/-- Reads an expression off the front of any tokens. -/
abbrev Reader := (tokens : List Token) → Except ParseError (Reading tokens)

namespace Reading

variable {tokens : List Token}

theorem length_rest_lt (r : Reading tokens) : r.rest.length < tokens.length := by
  have := r.used_pos
  have := r.used_add_length
  omega

/-- A single token. -/
def leaf (tree : Expr) (t : Token) (rest : List Token) : Reading (t :: rest) where
  tree := tree
  used := 1
  rest := rest
  used_pos := Nat.one_pos
  used_add_length := by simp [Nat.add_comm]

/-- A reading, an operator after it, and a second operand after that. -/
def join (left : Reading tokens) (op : Op) {t : Token} {after : List Token}
    (h : left.rest = t :: after) (right : Reading after) : Reading tokens where
  tree := .binary op left.tree right.tree
  used := left.used + 1 + right.used
  rest := right.rest
  used_pos := by omega
  used_add_length := by
    have hl := left.used_add_length
    have hr := right.used_add_length
    rw [h, List.length_cons] at hl
    omega

/-- A reading between parentheses. -/
def group (opening : Token) {inside : List Token} (r : Reading inside) {closing : Token}
    {after : List Token} (h : r.rest = closing :: after) : Reading (opening :: inside) where
  tree := r.tree
  used := r.used + 2
  rest := after
  used_pos := by omega
  used_add_length := by
    have hr := r.used_add_length
    rw [h, List.length_cons] at hr
    rw [List.length_cons]
    omega

end Reading

namespace Reader

/-! ## Operators -/

/-- Reads on after `left` as long as operators of the tier follow, folding to the left. -/
def extend (operand : Reader) (tier : Tier) {tokens : List Token} (left : Reading tokens) :
    Except ParseError (Reading tokens) :=
  match h : left.rest with
  | [] => .ok left
  | t :: after =>
    match t.operator? tier with
    | none => .ok left
    | some op =>
      match operand after with
      | .error e => .error e
      | .ok right => extend operand tier (left.join op h right)
termination_by left.rest.length
decreasing_by
  have := right.length_rest_lt
  rw [h, List.length_cons]
  change right.rest.length < after.length + 1
  omega

/-- Operands with operators of one tier between them. -/
def chain (operand : Reader) (tier : Tier) : Reader := fun tokens =>
  match operand tokens with
  | .error e => .error e
  | .ok first => extend operand tier first

/-- A whole expression, given what its factors are. -/
def sum (factor : Reader) : Reader := chain (chain factor .product) .sum

/-! ## Factors -/

/-- The smallest operands.  Up to `room` groupings may be opened inside each other, and `stop` is
what stands after the last token. -/
def factor (stop : Token) : (room : Nat) → Reader
  | _, [] => .error (.unexpected stop)
  | room, t :: rest =>
    match t.kind with
    | .identifier => .ok (.leaf (.name t.lexeme) t rest)
    | .number =>
      match Numeral.read? t.lexeme with
      | some x => .ok (.leaf (.number x) t rest)
      | none => .error (.invalidNumber t)
    | .openParen =>
      match room with
      | 0 => .error (.nestingTooDeep t maxNesting)
      | room + 1 =>
        match sum (factor stop room) rest with
        | .error e => .error e
        | .ok inner =>
          match h : inner.rest with
          | [] => .error (.expected .closeParen stop)
          | closing :: _ =>
            if closing.kind = .closeParen then .ok (inner.group t h)
            else .error (.expected .closeParen closing)
    | _ => .error (.unexpected t)

theorem factor_nil {stop : Token} {room : Nat} :
    factor stop room [] = .error (.unexpected stop) := by
  rw [factor.eq_def]

/-- An expression with no grouping open around it. -/
def statement (stop : Token) : Reader := sum (factor stop maxNesting)

end Reader

namespace Program

/-! ## Statements -/

/-- Reads statements until no token is left.  The statements read so far stand in `body` and their
records in `records`, the last one first; `soFar` counts them and their tokens. -/
def readStatements (stop : Token) (body : Program) (records : List StatementRecord)
    (soFar : StatementRecord) (tokens : List Token) : Traced StatementRecord ParseError Program :=
  match tokens with
  | [] => ⟨records.reverse, .ok body.reverse⟩
  | t :: rest =>
    match Reader.statement stop (t :: rest) with
    | .error e => ⟨records.reverse, .error e⟩
    | .ok r =>
      let record := ⟨soFar.index + 1, soFar.cursor + r.used⟩
      readStatements stop (r.tree :: body) (record :: records) record r.rest
termination_by tokens.length
decreasing_by exact r.length_rest_lt

/-- The end of file that is supplied to tokens without one: directly after the last token. -/
def suppliedEnd (tokens : List Token) : Token :=
  .endOfFile ((tokens.getLast?.map Token.stop).getD .start)

/-- The token at which a program ends: the first end of file, or the supplied one. -/
def endToken (tokens : List Token) : Token := (tokens.find? Token.isEnd).getD (suppliedEnd tokens)

/-- The program that stands before the first end of file. -/
def ofTokens (tokens : List Token) : Traced StatementRecord ParseError Program :=
  readStatements (endToken tokens) [] [] ⟨0, 0⟩ (tokens.takeWhile fun t => !t.isEnd)

end Program

end Abacus
