import Abacus.Program.Descent
import Abacus.Proofs.Recognition
import Mathlib.Data.List.TakeWhile

/-!
# The descent and the readers

The descent reads what the readers read.

1. A call follows a reader (`Descent.Follows`): where the reader fails, the descent ends with the
   same error, and where it reads, the call ends with the same tree and the cursor behind it.
2. Each operator is one round of the loop of its tier (`extend_follows`), and a grouping is one more
   in the count while the expression inside is read (`group_follows`).
3. So the descent comes to its end on all tokens, and with what the readers make of them
   (`exists_ending`).
-/

namespace Abacus.Descent

/-! ## Runs -/

section Reaches

variable {tokens : List Token} {s s' s'' : State}

theorem State.after_add (tokens : List Token) (s : State) (m n : Nat) :
    s.after tokens (m + n) = (s.after tokens m).after tokens n := by
  induction n with
  | zero => rfl
  | succ n ih =>
    rw [← Nat.add_assoc, State.after, State.after, ih]

/-- Some number of steps leads from one state to the other. -/
def Reaches (tokens : List Token) (s s' : State) : Prop := ∃ n, s' = s.after tokens n

theorem Reaches.trans (h : Reaches tokens s s') (h' : Reaches tokens s' s'') :
    Reaches tokens s s'' := by
  obtain ⟨m, rfl⟩ := h
  obtain ⟨n, rfl⟩ := h'
  exact ⟨m + n, (State.after_add tokens s m n).symm⟩

theorem reaches_of_step (h : step tokens s = s') : Reaches tokens s s' := ⟨1, h.symm⟩

end Reaches

/-! ## The next token -/

/-- The tokens from the cursor on, up to the first end of file. -/
def Ahead (tokens : List Token) (cursor : Nat) (rest : List Token) : Prop :=
  ∃ front, tokens.takeWhile (fun t => !t.isEnd) = front ++ rest ∧ front.length = cursor

/-- The same state with the cursor behind `n` more tokens. -/
def State.over (n : Nat) (s : State) : State := { s with cursor := s.cursor + n }

theorem State.over_over (s : State) (m n : Nat) : (s.over m).over n = s.over (m + n) := by
  simp [State.over, Nat.add_assoc]

section Ahead

variable {tokens rest : List Token} {t : Token} {cursor : Nat} {s : State}

theorem ahead_start (tokens : List Token) :
    Ahead tokens 0 (tokens.takeWhile fun t => !t.isEnd) := ⟨[], rfl, rfl⟩

theorem Ahead.next (h : Ahead tokens cursor (t :: rest)) : Ahead tokens (cursor + 1) rest := by
  obtain ⟨front, htokens, rfl⟩ := h
  exact ⟨front ++ [t], by simp [htokens], by simp⟩

theorem Ahead.isEnd_eq_false (h : Ahead tokens cursor (t :: rest)) : t.isEnd = false := by
  obtain ⟨front, htokens, _⟩ := h
  have hmem : t ∈ tokens.takeWhile fun t => !t.isEnd := by
    rw [htokens]
    simp
  simpa using List.all_eq_true.mp List.all_takeWhile t hmem

theorem Ahead.peek_cons (h : Ahead tokens s.cursor (t :: rest)) : s.peek tokens = t := by
  obtain ⟨front, htokens, hlength⟩ := h
  have hall := List.takeWhile_append_dropWhile (p := fun t : Token => !t.isEnd) (l := tokens)
  rw [htokens] at hall
  have hget : tokens[s.cursor]? = some t := by
    rw [← hall, ← hlength]
    simp
  rw [State.peek, hget, Option.getD_some]

/-- Where no token is left, the end of the program stands. -/
theorem Ahead.peek_nil (h : Ahead tokens s.cursor []) : s.peek tokens = Program.endToken tokens := by
  obtain ⟨front, htokens, hlength⟩ := h
  have hall := List.takeWhile_append_dropWhile (p := fun t : Token => !t.isEnd) (l := tokens)
  rw [htokens, List.append_nil] at hall
  have hget : tokens[s.cursor]? = tokens.find? Token.isEnd := by
    rw [List.find?_eq_head?_dropWhile_not Token.isEnd, List.head?_eq_getElem?]
    conv_lhs => rw [← hall, ← hlength]
    rw [List.getElem?_append_right (Nat.le_refl _), Nat.sub_self]
  rw [State.peek, hget, Program.endToken]

theorem Ahead.kind_peek_nil (h : Ahead tokens s.cursor []) :
    (s.peek tokens).kind = .endOfFile := by
  rw [h.peek_nil]
  exact Scan.kind_of_isEnd (Program.isEnd_endToken tokens)

theorem Ahead.advance (h : Ahead tokens s.cursor (t :: rest)) : s.advance tokens = s.over 1 := by
  have hend := h.isEnd_eq_false
  rw [← h.peek_cons] at hend
  rw [State.advance, hend]
  rfl

end Ahead

/-! ## Calls -/

/-- What a reading means for the descent in the state `s` of a call that began in `base`: the descent
ends with the same error, or the call ends with the same tree, behind the same tokens, and with all
else as it was in the beginning. -/
def Follows (tokens : List Token) (base s : State) {all : List Token} :
    Except ParseError (Reading all) → Prop
  | .error e =>
    ∃ s', Reaches tokens s s' ∧ s'.control = .done (.error e) ∧ s'.records = base.records
  | .ok r =>
    Reaches tokens s ((base.over r.used).leave r.tree) ∧
      Ahead tokens (base.cursor + r.used) r.rest

/-- The calls of `callee` follow the reader while `depth` groupings are open. -/
def CallFollows (tokens : List Token) (depth : Nat) (callee : Call) (reader : Reader) : Prop :=
  ∀ (base : State) (rest : List Token), base.depth = depth → Ahead tokens base.cursor rest →
    Follows tokens base (base.enter callee) (reader rest)

section Follows

variable {tokens all : List Token} {base s s' : State} {depth : Nat} {reader : Reader}

/-- What fails inside a call fails the call. -/
theorem Follows.of_inner_error {inside : List Token} {base' : State} {e : ParseError}
    (h : Follows tokens base' s' (.error e : Except ParseError (Reading inside)))
    (hreaches : Reaches tokens s s') (hrecords : base'.records = base.records) :
    Follows tokens base s (.error e : Except ParseError (Reading all)) := by
  obtain ⟨last, hlast, hdone, hkept⟩ := h
  exact ⟨last, hreaches.trans hlast, hdone, hkept.trans hrecords⟩

theorem Follows.of_reaches {result : Except ParseError (Reading all)}
    (h : Follows tokens base s' result) (hreaches : Reaches tokens s s') :
    Follows tokens base s result := by
  cases result with
  | error e => exact h.of_inner_error hreaches rfl
  | ok r =>
    obtain ⟨hleave, hahead⟩ := h
    exact ⟨hreaches.trans hleave, hahead⟩

theorem follows_of_fail {e : ParseError} (hreaches : Reaches tokens s (s'.fail e))
    (hrecords : s'.records = base.records) :
    Follows tokens base s (.error e : Except ParseError (Reading all)) :=
  ⟨s'.fail e, hreaches, rfl, hrecords⟩

/-- A call that makes one other call, and passes on what it gets from it. -/
theorem CallFollows.through {frame : Frame} {caller callee : Call}
    (h : CallFollows tokens depth callee reader)
    (hcall : ∀ s : State, step tokens (s.enter caller) = (s.push frame).enter callee)
    (hback : ∀ (s : State) (e : Expr), step tokens ((s.push frame).leave e) = s.leave e) :
    CallFollows tokens depth caller reader := by
  intro base rest hdepth hahead
  have hcallee : Follows tokens (base.push frame) ((base.push frame).enter callee) (reader rest) :=
    h (base.push frame) rest hdepth hahead
  have henter := reaches_of_step (hcall base)
  cases hread : reader rest with
  | error e =>
    rw [hread] at hcallee
    exact hcallee.of_inner_error henter rfl
  | ok r =>
    rw [hread] at hcallee
    obtain ⟨hleave, hrest⟩ := hcallee
    have hreturn : Reaches tokens (((base.push frame).over r.used).leave r.tree)
        ((base.over r.used).leave r.tree) := reaches_of_step (hback (base.over r.used) r.tree)
    exact ⟨henter.trans (hleave.trans hreturn), hrest⟩

end Follows

/-! ## Tiers -/

section Chain

variable {tokens : List Token} {depth : Nat} {operand : Reader} {tier : Tier}

theorem step_extend_of_endsAt {left : Expr} {s : State} {rest : List Token}
    (hahead : Ahead tokens s.cursor rest) (hends : tier.EndsAt rest) :
    step tokens (s.extend tier left) = s.leave left := by
  have hnone : (s.peek tokens).operator? tier = none := by
    rcases rest with _ | ⟨t, after⟩
    · exact Token.operator?_eq_none (by simp [hahead.kind_peek_nil]) tier
    · rw [hahead.peek_cons]
      exact Tier.endsAt_cons.mp hends
  change (s.extend tier left).operators tokens tier left = _
  rw [State.operators, show (s.extend tier left).peek tokens = s.peek tokens from rfl, hnone]
  rfl

theorem step_extend_of_operator {left : Expr} {s : State} {t : Token} {after : List Token} {op : Op}
    (hahead : Ahead tokens s.cursor (t :: after)) (hop : t.operator? tier = some op) :
    step tokens (s.extend tier left) =
      ((s.over 1).push (.second tier op left)).enter (.level tier.level.tighter) := by
  have hextend : Ahead tokens (s.extend tier left).cursor (t :: after) := hahead
  change (s.extend tier left).operators tokens tier left = _
  rw [State.operators, hextend.peek_cons, hop, hextend.advance]
  rfl

/-- By the rounds of the loop: each operator is gone over, and its operand is a call. -/
theorem extend_follows {all : List Token} {base : State} (left : Reading all)
    (hoperand : CallFollows tokens depth (.level tier.level.tighter) operand)
    (hdepth : base.depth = depth) (hahead : Ahead tokens (base.cursor + left.used) left.rest) :
    Follows tokens base ((base.over left.used).extend tier left.tree)
      (operand.extend tier left) := by
  refine Reader.extend_induction (P := fun left result =>
    Ahead tokens (base.cursor + left.used) left.rest →
      Follows tokens base ((base.over left.used).extend tier left.tree) result) ?_ ?_ ?_ left hahead
  · intro left hends hahead
    have hover : Ahead tokens (base.over left.used).cursor left.rest := hahead
    exact ⟨reaches_of_step (step_extend_of_endsAt hover hends), hahead⟩
  · intro left t after op e hrest hop hright hahead
    rw [hrest] at hahead
    have hover : Ahead tokens (base.over left.used).cursor (t :: after) := hahead
    have hfail := hoperand (((base.over left.used).over 1).push (.second tier op left.tree)) after
      hdepth hahead.next
    rw [hright] at hfail
    exact hfail.of_inner_error (reaches_of_step (step_extend_of_operator hover hop)) rfl
  · intro left t after op hrest right result hop hright ih hahead
    rw [hrest] at hahead
    have hover : Ahead tokens (base.over left.used).cursor (t :: after) := hahead
    have hcall := hoperand (((base.over left.used).over 1).push (.second tier op left.tree)) after
      hdepth hahead.next
    rw [hright] at hcall
    obtain ⟨hleave, hafter⟩ := hcall
    -- the operand goes to the level that waits for it, which looks for the next operator
    have hreturn : Reaches tokens
        (((((base.over left.used).over 1).push (.second tier op left.tree)).over right.used).leave
          right.tree)
        ((((base.over left.used).over 1).over right.used).extend tier
          (.binary op left.tree right.tree)) := reaches_of_step rfl
    rw [State.over_over, State.over_over] at hreturn
    have hjoined : Ahead tokens (base.cursor + (left.join op hrest right).used)
        (left.join op hrest right).rest := by
      change Ahead tokens (base.cursor + (left.used + 1 + right.used)) right.rest
      have hcursor : base.cursor + (left.used + 1 + right.used) =
          base.cursor + left.used + 1 + right.used := by omega
      rw [hcursor]
      exact hafter
    refine (ih hjoined).of_reaches ?_
    exact (reaches_of_step (step_extend_of_operator hover hop)).trans (hleave.trans hreturn)

theorem chain_follows (hoperand : CallFollows tokens depth (.level tier.level.tighter) operand) :
    CallFollows tokens depth (.level tier.level) (operand.chain tier) := by
  intro base rest hdepth hahead
  have henter : Reaches tokens (base.enter (.level tier.level))
      ((base.push (.first tier)).enter (.level tier.level.tighter)) := by
    refine reaches_of_step ?_
    cases tier with
    | sum => rfl
    | product => rfl
  have hfirst := hoperand (base.push (.first tier)) rest hdepth hahead
  cases hread : operand rest with
  | error e =>
    rw [hread] at hfirst
    rw [Reader.chain_of_error hread]
    exact hfirst.of_inner_error henter rfl
  | ok first =>
    rw [hread] at hfirst
    obtain ⟨hleave, hafter⟩ := hfirst
    rw [Reader.chain_of_ok hread]
    have hreturn : Reaches tokens (((base.push (.first tier)).over first.used).leave first.tree)
        ((base.over first.used).extend tier first.tree) := reaches_of_step rfl
    exact (extend_follows first hoperand hdepth hafter).of_reaches
      (henter.trans (hleave.trans hreturn))

/-- A whole expression is the loosest level. -/
theorem expression_follows {factor : Reader}
    (hfactor : CallFollows tokens depth (.level .factor) factor) :
    CallFollows tokens depth .expression factor.sum := by
  have hproduct : CallFollows tokens depth (.level Tier.product.level) (factor.chain .product) :=
    chain_follows hfactor
  have hsum : CallFollows tokens depth (.level Tier.sum.level) factor.sum := chain_follows hproduct
  exact hsum.through (fun _ => rfl) (fun _ _ => rfl)

end Chain

/-! ## Factors -/

section Factor

variable {tokens rest : List Token} {base : State} {t : Token} {room : Nat}

/-- The step of a primary in front of the token `t`. -/
theorem step_primary (hahead : Ahead tokens base.cursor (t :: rest)) :
    step tokens (base.enter .primary) =
      match t.kind with
      | .identifier => (base.over 1).leave (.name t.lexeme)
      | .number =>
        match Numeral.read? t.lexeme with
        | some x => (base.over 1).leave (.number x)
        | none => (base.over 1).fail (.invalidNumber t)
      | .openParen =>
        if maxNesting ≤ base.depth then base.fail (.nestingTooDeep t maxNesting)
        else ({ base.over 1 with depth := base.depth + 1 }.push .group).enter .expression
      | _ => base.fail (.unexpected t) := by
  have henter : Ahead tokens (base.enter .primary).cursor (t :: rest) := hahead
  change (base.enter .primary).primary tokens = _
  rw [State.primary, henter.peek_cons, henter.advance]
  rfl

/-- An end of file is no operand. -/
theorem end_follows (hahead : Ahead tokens base.cursor []) :
    Follows tokens base (base.enter .primary)
      (Reader.factor (Program.endToken tokens) room []) := by
  have henter : Ahead tokens (base.enter .primary).cursor [] := hahead
  have hend : (Program.endToken tokens).kind = .endOfFile :=
    Scan.kind_of_isEnd (Program.isEnd_endToken tokens)
  have hstep : step tokens (base.enter .primary) =
      base.fail (.unexpected (Program.endToken tokens)) := by
    change (base.enter .primary).primary tokens = _
    rw [State.primary, henter.peek_nil]
    simp only [hend]
    rfl
  rw [Reader.factor_nil]
  exact follows_of_fail (reaches_of_step hstep) rfl

/-- A token that opens no grouping is an operand by itself, or no operand at all. -/
theorem leaf_follows (hahead : Ahead tokens base.cursor (t :: rest)) (hopen : t.kind ≠ .openParen) :
    Follows tokens base (base.enter .primary)
      (Reader.factor (Program.endToken tokens) room (t :: rest)) := by
  have hstep := step_primary hahead
  by_cases hname : t.kind = .identifier
  · simp only [hname] at hstep
    rw [Reader.factor_identifier hname]
    exact ⟨reaches_of_step hstep, hahead.next⟩
  by_cases hnumber : t.kind = .number
  · cases hvalue : Numeral.read? t.lexeme with
    | none =>
      simp only [hnumber, hvalue] at hstep
      rw [Reader.factor_invalidNumber hnumber hvalue]
      exact follows_of_fail (reaches_of_step hstep) rfl
    | some x =>
      simp only [hnumber, hvalue] at hstep
      rw [Reader.factor_number hnumber hvalue]
      exact ⟨reaches_of_step hstep, hahead.next⟩
  · simp only at hstep
    rw [Reader.factor_unexpected hname hnumber hopen]
    exact follows_of_fail (reaches_of_step hstep) rfl

/-- The state in which a grouping that was opened in `base` looks for its closing parenthesis, with
`used` tokens behind the opening one. -/
def State.inside (used : Nat) (e : Expr) (base : State) : State :=
  { (base.over (1 + used)).leave e with depth := base.depth + 1 }

/-- A grouping that is opened comes to look for its closing parenthesis if there is an expression
behind it. -/
theorem reaches_inside {inner : Reading rest} (hahead : Ahead tokens base.cursor (t :: rest))
    (hkind : t.kind = .openParen) (hdepth : base.depth < maxNesting)
    (hleave : Reaches tokens
      (({ base.over 1 with depth := base.depth + 1 }.push .group).enter .expression)
      ((({ base.over 1 with depth := base.depth + 1 }.push .group).over inner.used).leave
        inner.tree)) :
    Reaches tokens (base.enter .primary)
      ((base.inside inner.used inner.tree).close tokens inner.tree) := by
  have hopened := step_primary hahead
  simp only [hkind] at hopened
  rw [if_neg (Nat.not_le.mpr hdepth)] at hopened
  refine (reaches_of_step hopened).trans (hleave.trans (reaches_of_step ?_))
  rw [State.inside, ← State.over_over]
  rfl

/-- The count is one higher from the opening parenthesis up to the place of the closing one. -/
theorem group_follows (hahead : Ahead tokens base.cursor (t :: rest)) (hkind : t.kind = .openParen)
    (hdepth : base.depth < maxNesting)
    (hinside : CallFollows tokens (base.depth + 1) .expression
      (Reader.factor (Program.endToken tokens) room).sum) :
    Follows tokens base (base.enter .primary)
      (Reader.factor (Program.endToken tokens) (room + 1) (t :: rest)) := by
  have hcall := hinside ({ base.over 1 with depth := base.depth + 1 }.push .group) rest rfl
    hahead.next
  cases hinner : (Reader.factor (Program.endToken tokens) room).sum rest with
  | error e =>
    have hopened := step_primary hahead
    simp only [hkind] at hopened
    rw [if_neg (Nat.not_le.mpr hdepth)] at hopened
    rw [hinner] at hcall
    rw [Reader.factor_group_error hkind hinner]
    exact hcall.of_inner_error (reaches_of_step hopened) rfl
  | ok inner =>
    rw [hinner] at hcall
    have hreaches := reaches_inside hahead hkind hdepth hcall.1
    have hafter : Ahead tokens (base.inside inner.used inner.tree).cursor inner.rest := by
      change Ahead tokens (base.cursor + (1 + inner.used)) inner.rest
      rw [← Nat.add_assoc]
      exact hcall.2
    cases hrest : inner.rest with
    | nil =>
      rw [Reader.factor_group_unclosed hkind hinner hrest]
      rw [hrest] at hafter
      have hnot : (Program.endToken tokens).kind ≠ .closeParen := by
        rw [← hafter.peek_nil, hafter.kind_peek_nil]
        decide
      rw [State.close, hafter.peek_nil, if_neg hnot] at hreaches
      exact follows_of_fail hreaches rfl
    | cons closing after =>
      rw [hrest] at hafter
      by_cases hclosing : closing.kind = .closeParen
      · rw [Reader.factor_group hkind hinner hrest hclosing]
        rw [State.close, hafter.peek_cons, if_pos hclosing, hafter.advance] at hreaches
        have hused : 1 + inner.used + 1 = inner.used + 2 := by omega
        have hleave : Reaches tokens (base.enter .primary)
            ((base.over (1 + inner.used + 1)).leave inner.tree) := hreaches
        have hrest : Ahead tokens (base.cursor + (1 + inner.used + 1)) after := hafter.next
        rw [hused] at hleave hrest
        exact ⟨hleave, hrest⟩
      · rw [Reader.factor_group_misclosed hkind hinner hrest hclosing]
        rw [State.close, hafter.peek_cons, if_neg hclosing] at hreaches
        exact follows_of_fail hreaches rfl

/-- By induction on the room that is left: the count is what `maxNesting` leaves over, so both sides
refuse the same opening parenthesis. -/
theorem factor_follows {depth : Nat} (hroom : depth + room = maxNesting) :
    CallFollows tokens depth (.level .factor)
      (Reader.factor (Program.endToken tokens) room) := by
  induction room using Nat.strongRecOn generalizing depth with
  | ind room ih =>
    have hprimary : CallFollows tokens depth .primary
        (Reader.factor (Program.endToken tokens) room) := by
      intro base rest hdepth hahead
      rcases rest with _ | ⟨t, rest⟩
      · exact end_follows hahead
      by_cases hopen : t.kind ≠ .openParen
      · exact leaf_follows hahead hopen
      have hkind : t.kind = .openParen := not_not.mp hopen
      rcases room with _ | room
      · -- as many groupings are open as may be
        have hstep := step_primary hahead
        simp only [hkind] at hstep
        rw [if_pos (by omega)] at hstep
        rw [Reader.factor_nestingTooDeep hkind]
        exact follows_of_fail (reaches_of_step hstep) rfl
      · subst hdepth
        have hroom' : base.depth + 1 + room = maxNesting := by omega
        exact group_follows hahead hkind (by omega)
          (expression_follows (ih room (Nat.lt_succ_self room) hroom'))
    exact hprimary.through (fun _ => rfl) (fun _ _ => rfl)

end Factor

/-! ## Statements -/

section Statement

variable {tokens rest : List Token} {s : State} {t : Token}

theorem statement_follows (tokens : List Token) :
    CallFollows tokens 0 .expression (Reader.statement (Program.endToken tokens)) :=
  expression_follows (factor_follows (Nat.zero_add maxNesting))

theorem step_round_of_cons (hcontrol : s.control = .round)
    (hahead : Ahead tokens s.cursor (t :: rest)) :
    step tokens s = { s with rounds := s.rounds + 1 }.enter .expression := by
  rw [step, hcontrol]
  simp only
  rw [State.round, hahead.peek_cons, hahead.isEnd_eq_false]
  rfl

theorem step_round_of_nil (hcontrol : s.control = .round) (hahead : Ahead tokens s.cursor []) :
    step tokens s = s.finish (.ok s.body.reverse) := by
  rw [step, hcontrol]
  simp only
  rw [State.round, hahead.peek_nil, Program.isEnd_endToken]
  rfl

/-- No call runs, and `rest` are the tokens of the statements that are still to come. -/
structure State.Between (tokens rest : List Token) (s : State) : Prop where
  control : s.control = .round
  stack : s.stack = []
  depth : s.depth = 0
  ahead : Ahead tokens s.cursor rest

theorem exists_ending_of_error {e : ParseError} (h : s.Between tokens (t :: rest))
    (hread : Reader.statement (Program.endToken tokens) (t :: rest) = .error e) :
    ∃ s', Reaches tokens s s' ∧ s'.ending? = some ⟨s.records.reverse, .error e⟩ := by
  have hcall := statement_follows tokens { s with rounds := s.rounds + 1 } (t :: rest) h.depth h.ahead
  rw [hread] at hcall
  obtain ⟨last, hlast, hdone, hrecords⟩ := hcall
  refine ⟨last, (reaches_of_step (step_round_of_cons h.control h.ahead)).trans hlast, ?_⟩
  rw [State.ending?, hdone, hrecords]

/-- A statement that can be read is one call of an expression, and the loop takes it up. -/
theorem exists_between_of_ok {r : Reading (t :: rest)} (h : s.Between tokens (t :: rest))
    (hread : Reader.statement (Program.endToken tokens) (t :: rest) = .ok r) :
    ∃ s', Reaches tokens s s' ∧ s'.Between tokens r.rest ∧ s'.cursor = s.cursor + r.used ∧
      s'.body = r.tree :: s.body ∧
      s'.records = ⟨s.body.length + 1, s.cursor + r.used⟩ :: s.records := by
  have hcall := statement_follows tokens { s with rounds := s.rounds + 1 } (t :: rest) h.depth h.ahead
  rw [hread] at hcall
  obtain ⟨hleave, hafter⟩ := hcall
  -- no other call waits for it
  let left : State := ({ s with rounds := s.rounds + 1 }.over r.used).leave r.tree
  have htaken : step tokens left = left.take r.tree := by
    have hstack : left.stack = [] := h.stack
    change left.resume tokens r.tree = _
    rw [State.resume, hstack]
  have hround := reaches_of_step (step_round_of_cons h.control h.ahead)
  exact ⟨left.take r.tree, hround.trans (hleave.trans (reaches_of_step htaken)),
    ⟨rfl, h.stack, h.depth, hafter⟩, rfl, rfl, rfl⟩

/-- By induction on the tokens that are left: each round of the readers is a round of the loop. -/
theorem readStatements_follows (h : s.Between tokens rest) :
    ∃ s', Reaches tokens s s' ∧ s'.ending? =
      some (Program.readStatements (Program.endToken tokens) s.body s.records
        ⟨s.body.length, s.cursor⟩ rest) := by
  induction hlength : rest.length using Nat.strongRecOn generalizing s rest with
  | ind n ih =>
    rcases rest with _ | ⟨t, rest⟩
    · refine ⟨_, reaches_of_step (step_round_of_nil h.control h.ahead), ?_⟩
      rw [Program.readStatements_nil]
      rfl
    cases hread : Reader.statement (Program.endToken tokens) (t :: rest) with
    | error e =>
      rw [Program.readStatements, hread]
      exact exists_ending_of_error h hread
    | ok r =>
      obtain ⟨s', hreaches, hbetween, hcursor, hbody, hrecords⟩ := exists_between_of_ok h hread
      have hshorter : r.rest.length < n := hlength ▸ r.length_rest_lt
      obtain ⟨last, hlast, hending⟩ := ih _ hshorter hbetween rfl
      rw [hcursor, hbody, hrecords, List.length_cons] at hending
      rw [Program.readStatements_of_ok hread]
      exact ⟨last, hreaches.trans hlast, hending⟩

end Statement

/-- The descent comes to an end on all tokens, and to the same one as the readers. -/
theorem exists_ending (tokens : List Token) :
    ∃ n, (run tokens n).ending? = some (Program.ofTokens tokens) := by
  have hstart : start.Between tokens (tokens.takeWhile fun t => !t.isEnd) :=
    ⟨rfl, rfl, rfl, ahead_start tokens⟩
  obtain ⟨s', ⟨n, rfl⟩, hending⟩ := readStatements_follows hstart
  exact ⟨n, hending⟩

end Abacus.Descent
