import Abacus.Program.Recognizer
import Abacus.Proofs.Exactness

/-!
# The scan and the readers

A scan keeps a counter and a mode where the readers keep a stack of calls, and still it accepts the
same tokens and finds the same fault.

1. An end of file ends a scan in every mode, so the scan never looks behind the first one
   (`run_eq_run_before_end`).
2. A reader that was called with `depth` groupings open is a piece of the scan: they fail alike, or
   the scan stands after an operand at the same depth, before what the reader left
   (`Scan.Follows`, `factor_follows`).
3. After a statement no grouping is open and no operator follows, so the scan takes the next token
   as the first one of a statement (`run_after_eq_run_start`).
-/

namespace Abacus

namespace Scan

/-! ## Single tokens -/

section Take

variable {stop t : Token} {depth : Nat} {rest : List Token}

/-- The five texts are the symbols of the operators. -/
theorem isOperator_iff : isOperator t = true ↔ ∃ op, t.IsOperator op := by
  unfold isOperator
  rw [Bool.and_eq_true, decide_eq_true_iff, List.contains_iff_mem]
  constructor
  · rintro ⟨hkind, hsymbol⟩
    simp only [List.mem_cons, List.not_mem_nil, or_false] at hsymbol
    rcases hsymbol with hplus | hminus | htimes | hdivide | hmodulo
    · exact ⟨.plus, hkind, hplus⟩
    · exact ⟨.minus, hkind, hminus⟩
    · exact ⟨.times, hkind, htimes⟩
    · exact ⟨.divide, hkind, hdivide⟩
    · exact ⟨.modulo, hkind, hmodulo⟩
  · rintro ⟨op, hkind, hsymbol⟩
    refine ⟨hkind, ?_⟩
    rw [hsymbol]
    cases op <;> simp [Op.symbol]

theorem isOperator_of_operator? {tier : Tier} {op : Op} (h : t.operator? tier = some op) :
    isOperator t = true :=
  isOperator_iff.mpr ⟨op, (Token.operator?_eq_some_iff.mp h).1⟩

theorem isOperator_eq_false (h : ∀ tier : Tier, t.operator? tier = none) :
    isOperator t = false := by
  rw [Bool.eq_false_iff]
  intro hoperator
  rcases isOperator_iff.mp hoperator with ⟨op, hop⟩
  have hsome : t.operator? op.tier = some op := Token.operator?_eq_some_iff.mpr ⟨hop, rfl⟩
  rw [h op.tier] at hsome
  exact absurd hsome (by simp)

theorem isOperator_of_kind_ne (h : t.kind ≠ .operator) : isOperator t = false := by
  simp [isOperator, h]

theorem kind_of_isEnd (h : t.isEnd = true) : t.kind = .endOfFile := by
  simpa [Token.isEnd] using h

theorem takeOperand_of_isEnd (h : t.isEnd = true) :
    takeOperand depth t = .error (.unexpected t) := by
  simp only [takeOperand, kind_of_isEnd h]

theorem takeAfter_of_isEnd (h : t.isEnd = true) :
    takeAfter depth t =
      if depth = 0 then .ok .accept else .error (.expected .closeParen t) := by
  have hkind := kind_of_isEnd h
  have hoperator : isOperator t = false := isOperator_of_kind_ne (by simp [hkind])
  simp [takeAfter, takeStart, hoperator, h, hkind]

/-- An end of file never leaves a scan to go on. -/
theorem take_of_isEnd (h : t.isEnd = true) (s s' : Scan) : s.take t ≠ .ok (.more s') := by
  rcases s with ⟨mode, depth⟩
  cases mode with
  | start => simp [takeStart, h]
  | operand => simp [takeOperand_of_isEnd h]
  | after =>
    rw [take_after, takeAfter_of_isEnd h]
    split <;> simp

theorem run_cons_more {s s' : Scan} (h : s.take t = .ok (.more s')) :
    run stop s (t :: rest) = run stop s' rest := by
  rw [run, h]

theorem run_cons_error {s : Scan} {e : ParseError} (h : s.take t = .error e) :
    run stop s (t :: rest) = .error e := by
  rw [run, h]

theorem run_nil_error {s : Scan} {e : ParseError} (h : s.take stop = .error e) :
    run stop s [] = .error e := by
  rw [run, h]

/-- An operator sends the scan to its next operand. -/
theorem run_after_operator {tier : Tier} {op : Op} (h : t.operator? tier = some op) :
    run stop ⟨.after, depth⟩ (t :: rest) = run stop ⟨.operand, depth⟩ rest := by
  refine run_cons_more ?_
  rw [take_after, takeAfter, if_pos (isOperator_of_operator? h)]

/-- Inside a grouping only a closing parenthesis may follow the operand, if no operator does. -/
theorem takeAfter_succ (h : ∀ tier : Tier, t.operator? tier = none) :
    takeAfter (depth + 1) t =
      if t.kind = .closeParen then .ok (.more ⟨.after, depth⟩)
      else .error (.expected .closeParen t) := by
  rw [takeAfter, isOperator_eq_false h]
  simp

end Take

/-- A scan stops at the first end of file: what stands behind it does not matter, and the supplied
one is not needed. -/
theorem run_eq_run_before_end (supplied : Token) (s : Scan) (tokens : List Token) :
    run supplied s tokens =
      run ((tokens.find? Token.isEnd).getD supplied) s (tokens.takeWhile fun t => !t.isEnd) := by
  induction tokens generalizing s with
  | nil => rfl
  | cons t rest ih =>
    cases hend : t.isEnd with
    | true =>
      -- both scans take this token last; the left one has no way to go on
      rw [List.find?_cons_of_pos hend, List.takeWhile_cons_of_neg (by simp [hend])]
      rw [Option.getD_some, run, run]
      cases htake : s.take t with
      | error e => rfl
      | ok next =>
        cases next with
        | accept => rfl
        | more s' => exact absurd htake (take_of_isEnd hend s s')
    | false =>
      -- both scans take this token first and go on alike
      rw [List.find?_cons_of_neg (by simp [hend]), List.takeWhile_cons_of_pos (by simp [hend])]
      rw [run, run]
      cases htake : s.take t with
      | error e => rfl
      | ok next =>
        cases next with
        | accept => rfl
        | more s' => exact ih s'

/-! ## Readers -/

/-- What a reading means for a scan that begins with the scan `s` before `tokens`: it fails with the
same error, or it comes to stand after an operand, before what the reading left. -/
def Follows (stop : Token) (depth : Nat) (s : Scan) (tokens : List Token) {all : List Token} :
    Except ParseError (Reading all) → Prop
  | .error e => run stop s tokens = .error e
  | .ok r => run stop s tokens = run stop ⟨.after, depth⟩ r.rest

theorem Follows.of_run_eq {stop : Token} {depth : Nat} {s s' : Scan} {tokens tokens' all : List Token}
    {result : Except ParseError (Reading all)} (h : Follows stop depth s' tokens' result)
    (hrun : run stop s tokens = run stop s' tokens') : Follows stop depth s tokens result := by
  cases result with
  | error e => exact hrun.trans h
  | ok r => exact hrun.trans h

section Chain

variable {stop : Token} {depth : Nat} {operand : Reader} {tier : Tier} {tokens : List Token}

/-- One operator sends the scan to the next operand, and after that operand it stands where the loop
stands. -/
theorem extend_follows (left : Reading tokens)
    (hoperand : ∀ tokens, Follows stop depth ⟨.operand, depth⟩ tokens (operand tokens)) :
    Follows stop depth ⟨.after, depth⟩ left.rest (operand.extend tier left) := by
  refine Reader.extend_induction (P := fun left result =>
    Follows stop depth ⟨.after, depth⟩ left.rest result) ?_ ?_ ?_ left
  · intro left _
    rfl
  · intro left t after op e hrest hop hright
    have hafter := hoperand after
    rw [hright] at hafter
    rw [hrest]
    exact (run_after_operator hop).trans hafter
  · intro left t after op hrest right result hop hright ih
    have hafter := hoperand after
    rw [hright] at hafter
    rw [hrest]
    exact ih.of_run_eq ((run_after_operator hop).trans hafter)

theorem chain_follows
    (hoperand : ∀ tokens, Follows stop depth ⟨.operand, depth⟩ tokens (operand tokens)) :
    Follows stop depth ⟨.operand, depth⟩ tokens (operand.chain tier tokens) := by
  have hfirst := hoperand tokens
  cases hread : operand tokens with
  | error e =>
    rw [Reader.chain_of_error hread]
    rw [hread] at hfirst
    exact hfirst
  | ok first =>
    rw [Reader.chain_of_ok hread]
    rw [hread] at hfirst
    exact (extend_follows first hoperand).of_run_eq hfirst

end Chain

section Factor

variable {stop : Token} {depth : Nat}

theorem sum_follows {factor : Reader}
    (hfactor : ∀ tokens, Follows stop depth ⟨.operand, depth⟩ tokens (factor tokens))
    (tokens : List Token) : Follows stop depth ⟨.operand, depth⟩ tokens (factor.sum tokens) := by
  refine chain_follows ?_
  intro tokens
  exact chain_follows hfactor

/-- A token that opens no grouping is an operand by itself, or no operand at all. -/
theorem leaf_follows {room : Nat} {t : Token} {rest : List Token} (hopen : t.kind ≠ .openParen) :
    Follows stop depth ⟨.operand, depth⟩ (t :: rest) (Reader.factor stop room (t :: rest)) := by
  by_cases hname : t.kind = .identifier
  · rw [Reader.factor_identifier hname]
    refine run_cons_more ?_
    simp only [take_operand, takeOperand, hname]
  by_cases hnumber : t.kind = .number
  · cases hvalue : Numeral.read? t.lexeme with
    | none =>
      rw [Reader.factor_invalidNumber hnumber hvalue]
      refine run_cons_error ?_
      simp only [take_operand, takeOperand, hnumber, hvalue]
    | some x =>
      rw [Reader.factor_number hnumber hvalue]
      refine run_cons_more ?_
      simp only [take_operand, takeOperand, hnumber, hvalue]
  · rw [Reader.factor_unexpected hname hnumber hopen]
    refine run_cons_error ?_
    rw [take_operand, takeOperand]
    simp only

/-- A grouping is one step down, an expression, and one step up. -/
theorem group_follows (hstop : stop.isEnd = true) {room : Nat} {t : Token} {rest : List Token}
    (hopen : t.kind = .openParen) (hdepth : depth < maxNesting)
    (hinside : Follows stop (depth + 1) ⟨.operand, depth + 1⟩ rest
      ((Reader.factor stop room).sum rest)) :
    Follows stop depth ⟨.operand, depth⟩ (t :: rest)
      (Reader.factor stop (room + 1) (t :: rest)) := by
  have hdown : run stop ⟨.operand, depth⟩ (t :: rest) = run stop ⟨.operand, depth + 1⟩ rest := by
    refine run_cons_more ?_
    rw [take_operand, takeOperand]
    simp only [hopen]
    exact if_neg (Nat.not_le.mpr hdepth)
  cases hinner : (Reader.factor stop room).sum rest with
  | error e =>
    rw [hinner] at hinside
    rw [Reader.factor_group_error hopen hinner]
    exact hdown.trans hinside
  | ok inner =>
    rw [hinner] at hinside
    have hrun : run stop ⟨.operand, depth⟩ (t :: rest) = run stop ⟨.after, depth + 1⟩ inner.rest :=
      hdown.trans hinside
    cases hrest : inner.rest with
    | nil =>
      -- the end of file stands where the closing parenthesis should
      rw [Reader.factor_group_unclosed hopen hinner hrest]
      rw [hrest] at hrun
      refine hrun.trans (run_nil_error ?_)
      rw [take_after, takeAfter_of_isEnd hstop]
      simp
    | cons closing after =>
      -- the expression has ended, so the next token is no operator for the scan either
      have hnone : ∀ tier : Tier, closing.operator? tier = none := by
        intro tier
        exact Reader.sum_endsAt hinner tier closing after hrest
      rw [hrest] at hrun
      by_cases hclosing : closing.kind = .closeParen
      · rw [Reader.factor_group hopen hinner hrest hclosing]
        refine hrun.trans (run_cons_more ?_)
        rw [take_after, takeAfter_succ hnone, if_pos hclosing]
      · rw [Reader.factor_group_misclosed hopen hinner hrest hclosing]
        refine hrun.trans (run_cons_error ?_)
        rw [take_after, takeAfter_succ hnone, if_neg hclosing]

/-- By induction on the room that is left: with `depth` groupings open it is what `maxNesting` leaves
over, so both sides refuse the same opening parenthesis. -/
theorem factor_follows (hstop : stop.isEnd = true) {room : Nat} (hroom : depth + room = maxNesting)
    (tokens : List Token) :
    Follows stop depth ⟨.operand, depth⟩ tokens (Reader.factor stop room tokens) := by
  induction room using Nat.strongRecOn generalizing depth tokens with
  | ind room ih =>
    rcases tokens with _ | ⟨t, rest⟩
    · rw [Reader.factor_nil]
      exact run_nil_error (takeOperand_of_isEnd hstop)
    by_cases hopen : t.kind ≠ .openParen
    · exact leaf_follows hopen
    have hkind : t.kind = .openParen := not_not.mp hopen
    rcases room with _ | room
    · -- as many groupings are open as may be
      rw [Reader.factor_nestingTooDeep hkind]
      refine run_cons_error ?_
      rw [take_operand, takeOperand]
      simp only [hkind]
      have hfull : maxNesting ≤ depth := by omega
      exact if_pos hfull
    · have hroom' : depth + 1 + room = maxNesting := by omega
      exact group_follows hstop hkind (by omega)
        (sum_follows (ih room (Nat.lt_succ_self room) hroom') rest)

end Factor

/-! ## Statements -/

/-- When no grouping is open and no operator follows, the expression is over. -/
theorem run_after_eq_run_start {stop : Token} (hstop : stop.isEnd = true) {rest : List Token}
    (hends : ∀ tier : Tier, tier.EndsAt rest) :
    run stop ⟨.after, 0⟩ rest = run stop ⟨.start, 0⟩ rest := by
  rcases rest with _ | ⟨t, rest⟩
  · rw [run, run, take_after, takeAfter_of_isEnd hstop]
    simp [takeStart, hstop]
  · have hnone : ∀ tier : Tier, t.operator? tier = none := by
      intro tier
      exact Tier.endsAt_cons.mp (hends tier)
    rw [run, run, take_after, takeAfter, isOperator_eq_false hnone]
    simp

/-- A token other than an end of file begins a statement. -/
theorem run_start_eq_run_operand {stop t : Token} {rest : List Token} (h : t.isEnd = false) :
    run stop ⟨.start, 0⟩ (t :: rest) = run stop ⟨.operand, 0⟩ (t :: rest) := by
  rw [run, run, take_start, takeStart, h]
  simp

section Statement

variable {stop t : Token} {rest : List Token}

theorem statement_follows (hstop : stop.isEnd = true) (ht : t.isEnd = false) :
    Follows stop 0 ⟨.start, 0⟩ (t :: rest) (Reader.statement stop (t :: rest)) := by
  have hsum : Follows stop 0 ⟨.operand, 0⟩ (t :: rest) (Reader.statement stop (t :: rest)) :=
    sum_follows (factor_follows hstop (Nat.zero_add maxNesting)) (t :: rest)
  exact hsum.of_run_eq (run_start_eq_run_operand ht)

/-- A statement that cannot be read stops the scan with the same error. -/
theorem run_start_of_error {e : ParseError} (hstop : stop.isEnd = true) (ht : t.isEnd = false)
    (h : Reader.statement stop (t :: rest) = .error e) :
    run stop ⟨.start, 0⟩ (t :: rest) = .error e := by
  have hfollows : Follows stop 0 ⟨.start, 0⟩ (t :: rest) (Reader.statement stop (t :: rest)) :=
    statement_follows hstop ht
  rw [h] at hfollows
  exact hfollows

/-- A statement that is read takes the scan to the start of the next one. -/
theorem run_start_of_ok {r : Reading (t :: rest)} (hstop : stop.isEnd = true)
    (ht : t.isEnd = false) (h : Reader.statement stop (t :: rest) = .ok r) :
    run stop ⟨.start, 0⟩ (t :: rest) = run stop ⟨.start, 0⟩ r.rest := by
  have hfollows : Follows stop 0 ⟨.start, 0⟩ (t :: rest) (Reader.statement stop (t :: rest)) :=
    statement_follows hstop ht
  rw [h] at hfollows
  exact hfollows.trans (run_after_eq_run_start hstop (Reader.sum_endsAt h))

end Statement

end Scan

namespace Program

/-- By induction on the tokens that are left: each statement is a piece of the scan. -/
theorem readStatements_eq_run {stop : Token} (hstop : stop.isEnd = true) {body : Program}
    {records : List StatementRecord} {soFar : StatementRecord} {tokens : List Token}
    (hends : ∀ t ∈ tokens, t.isEnd = false) :
    (readStatements stop body records soFar tokens).result.map (fun _ => ()) =
      Scan.run stop ⟨.start, 0⟩ tokens := by
  induction body, records, soFar, tokens using readStatements.induct stop with
  | case1 body records soFar =>
    rw [readStatements_nil, Scan.run]
    simp [Scan.takeStart, hstop, Except.map]
  | case2 body records soFar t rest e hread =>
    have ht : t.isEnd = false := hends t (by simp)
    rw [readStatements_of_error (by simp) hread, Scan.run_start_of_error hstop ht hread]
    rfl
  | case3 body records soFar t rest r hread record ih =>
    have ht : t.isEnd = false := hends t (by simp)
    rw [readStatements_of_ok hread, Scan.run_start_of_ok hstop ht hread]
    refine ih ?_
    intro u hu
    obtain ⟨front, htokens, _⟩ := Reader.statement_sound stop (t :: rest) r hread
    refine hends u ?_
    rw [htokens]
    exact List.mem_append_right front hu

theorem isEnd_endToken (tokens : List Token) : (endToken tokens).isEnd = true := by
  unfold endToken
  cases hfind : tokens.find? Token.isEnd with
  | none => rfl
  | some t => exact List.find?_some hfind

/-- The readers supply their end of file where the scan does. -/
theorem supplied_eq_suppliedEnd (tokens : List Token) :
    Scan.supplied tokens = suppliedEnd tokens := by
  induction tokens with
  | nil => rfl
  | cons t rest ih =>
    cases rest with
    | nil => rfl
    | cons u rest => rw [Scan.supplied, ih, suppliedEnd, suppliedEnd, List.getLast?_cons_cons]

/-- The readers and the scan accept the same buffers, and they refuse the others with the same
error. -/
theorem ofTokens_agrees_recognize (tokens : List Token) :
    (ofTokens tokens).result.map (fun _ => ()) = recognize tokens := by
  unfold ofTokens recognize
  rw [supplied_eq_suppliedEnd, Scan.run_eq_run_before_end]
  refine readStatements_eq_run (isEnd_endToken tokens) ?_
  intro t ht
  have hkept := List.all_eq_true.mp List.all_takeWhile t ht
  simpa using hkept

end Program

end Abacus
