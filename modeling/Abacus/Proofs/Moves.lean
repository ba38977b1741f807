import Abacus.Proofs.Descent

/-!
# What a step of the descent can do

1. `Move` says once what a step can do, and every step is a move (`move_step`).  What the moves keep
   is said here, quantity by quantity.
2. The calls that wait fit to the call that runs (`Callers`, `State.Placed`).  So the count of open
   groupings is the number of groupings that wait, and there is one more expression than groupings
   (`Callers.groups_eq`, `Callers.expressions_eq`).
3. Climbing from level to level goes over nothing, so the cursor alone measures no progress.
   `State.reach` does: no call ends before it has gone over a token (`reach_le_after`).
4. The count goes with the parentheses that the cursor goes over (`Move.balanced`).
-/

namespace Abacus.Descent

/-! ## Moves -/

/-- What one step can do. -/
inductive Move (tokens : List Token) (s : State) : State → Prop
  | begin (control : s.control = .round) (more : (s.peek tokens).isEnd = false) :
    Move tokens s ({ s with rounds := s.rounds + 1 }.enter .expression)
  | expression (control : s.control = .enter .expression) :
    Move tokens s ((s.push .expression).enter (.level .sum))
  | first (tier : Tier) (control : s.control = .enter (.level tier.level)) :
    Move tokens s ((s.push (.first tier)).enter (.level tier.level.tighter))
  | single (control : s.control = .enter (.level .factor)) :
    Move tokens s ((s.push .single).enter .primary)
  | leaf (e : Expr) (control : s.control = .enter .primary)
    (kind : (s.peek tokens).kind = .identifier ∨ (s.peek tokens).kind = .number) :
    Move tokens s ((s.over 1).leave e)
  | opening (control : s.control = .enter .primary) (kind : (s.peek tokens).kind = .openParen)
    (room : s.depth < maxNesting) :
    Move tokens s (({ s.over 1 with depth := s.depth + 1 }.push .group).enter .expression)
  | operator (tier : Tier) (op : Op) (left : Expr) (control : s.control = .operators tier left)
    (kind : (s.peek tokens).kind = .operator) :
    Move tokens s (((s.over 1).push (.second tier op left)).enter (.level tier.level.tighter))
  | last (tier : Tier) (left : Expr) (control : s.control = .operators tier left) :
    Move tokens s (s.leave left)
  | pass (frame : Frame) (stack : List Frame) (e : Expr) (control : s.control = .leave e)
    (waiting : s.stack = frame :: stack) (frame_eq : frame = .expression ∨ frame = .single) :
    Move tokens s ({ s with stack := stack }.leave e)
  | extend (frame : Frame) (stack : List Frame) (tier : Tier) (e left : Expr)
    (control : s.control = .leave e) (waiting : s.stack = frame :: stack)
    (frame_eq : frame = .first tier ∨ ∃ op before, frame = .second tier op before) :
    Move tokens s ({ s with stack := stack }.extend tier left)
  | closing (stack : List Frame) (e : Expr) (control : s.control = .leave e)
    (waiting : s.stack = .group :: stack) (kind : (s.peek tokens).kind = .closeParen) :
    Move tokens s ({ s.over 1 with stack := stack, depth := s.depth - 1 }.leave e)
  | statement (e : Expr) (control : s.control = .leave e) (waiting : s.stack = []) :
    Move tokens s (s.take e)
  | finish (before : State) (result : Except ParseError Program)
    (cursor : before.cursor = s.cursor ∨
      (s.peek tokens).isEnd = false ∧ before.cursor = s.cursor + 1)
    (depth : before.depth ≤ s.depth) (rounds : before.rounds = s.rounds) :
    Move tokens s (before.finish result)
  | stay (result : Except ParseError Program) (control : s.control = .done result) :
    Move tokens s s

section Move

variable {tokens : List Token} {s : State}

theorem isEnd_eq_false_of_kind {t : Token} {kind : Token.Kind} (h : t.kind = kind)
    (hne : kind ≠ .endOfFile) : t.isEnd = false := by
  simp [Token.isEnd, h, hne]

theorem advance_of_kind {kind : Token.Kind} (h : (s.peek tokens).kind = kind)
    (hne : kind ≠ .endOfFile) : s.advance tokens = s.over 1 := by
  rw [State.advance, isEnd_eq_false_of_kind h hne]
  rfl

theorem move_round (hcontrol : s.control = .round) : Move tokens s (s.round tokens) := by
  rw [State.round]
  cases hend : (s.peek tokens).isEnd with
  | true => exact .finish s _ (.inl rfl) (Nat.le_refl _) rfl
  | false => exact .begin hcontrol hend

theorem move_primary (hcontrol : s.control = .enter .primary) :
    Move tokens s (s.primary tokens) := by
  rw [State.primary]
  split
  · next hkind =>
    rw [advance_of_kind hkind (by decide)]
    exact .leaf _ hcontrol (.inl hkind)
  · next hkind =>
    rw [advance_of_kind hkind (by decide)]
    split
    · exact .leaf _ hcontrol (.inr hkind)
    · exact .finish (s.over 1) _ (.inr ⟨isEnd_eq_false_of_kind hkind (by decide), rfl⟩)
        (Nat.le_refl _) rfl
  · next hkind =>
    rw [advance_of_kind hkind (by decide)]
    split
    · exact .finish s _ (.inl rfl) (Nat.le_refl _) rfl
    · next hroom => exact .opening hcontrol hkind (Nat.not_le.mp hroom)
  · exact .finish s _ (.inl rfl) (Nat.le_refl _) rfl

theorem move_operators {tier : Tier} {left : Expr} (hcontrol : s.control = .operators tier left) :
    Move tokens s (s.operators tokens tier left) := by
  rw [State.operators]
  cases hop : (s.peek tokens).operator? tier with
  | none => exact .last tier left hcontrol
  | some op =>
    have hkind : (s.peek tokens).kind = .operator :=
      (Token.operator?_eq_some_iff.mp hop).1.1
    simp only
    rw [advance_of_kind hkind (by decide)]
    exact .operator tier op left hcontrol hkind

theorem move_resume {e : Expr} (hcontrol : s.control = .leave e) :
    Move tokens s (s.resume tokens e) := by
  rw [State.resume]
  split
  · next hstack => exact .statement e hcontrol hstack
  · next stack hstack => exact .pass _ stack e hcontrol hstack (.inl rfl)
  · next stack hstack => exact .pass _ stack e hcontrol hstack (.inr rfl)
  · next tier stack hstack => exact .extend _ stack tier e e hcontrol hstack (.inl rfl)
  · next tier op left stack hstack =>
    exact .extend _ stack tier e _ hcontrol hstack (.inr ⟨op, left, rfl⟩)
  · next stack hstack =>
    rw [State.close]
    have hpeek : ({ s with stack := stack } : State).peek tokens = s.peek tokens := rfl
    simp only [hpeek]
    split
    · next hkind =>
      rw [advance_of_kind (s := { s with stack := stack }) hkind (by decide)]
      exact .closing stack e hcontrol hstack hkind
    · exact .finish _ _ (.inl rfl) (Nat.sub_le _ _) rfl

/-- Every step is one of the moves. -/
theorem move_step (tokens : List Token) (s : State) : Move tokens s (step tokens s) := by
  rw [step]
  split
  · next h => exact move_round h
  · next h => exact .expression h
  · next h => exact .first .sum h
  · next h => exact .first .product h
  · next h => exact .single h
  · next h => exact move_primary h
  · next h => exact move_operators h
  · next h => exact move_resume h
  · next result h => exact .stay result h

end Move

/-! ## The calls that wait -/

/-- The calls in `stack` can wait for `call` while `depth` groupings are open. -/
inductive Callers : (depth : Nat) → Call → List Frame → Prop
  | statement : Callers 0 .expression []
  | group {depth : Nat} {stack : List Frame} (outer : Callers depth .primary stack) :
    Callers (depth + 1) .expression (.group :: stack)
  | expression {depth : Nat} {stack : List Frame} (outer : Callers depth .expression stack) :
    Callers depth (.level .sum) (.expression :: stack)
  | first {depth : Nat} {stack : List Frame} (tier : Tier)
    (outer : Callers depth (.level tier.level) stack) :
    Callers depth (.level tier.level.tighter) (.first tier :: stack)
  | second {depth : Nat} {stack : List Frame} (tier : Tier) (op : Op) (left : Expr)
    (outer : Callers depth (.level tier.level) stack) :
    Callers depth (.level tier.level.tighter) (.second tier op left :: stack)
  | single {depth : Nat} {stack : List Frame} (outer : Callers depth (.level .factor) stack) :
    Callers depth .primary (.single :: stack)

section Callers

variable {depth : Nat} {call : Call} {stack : List Frame}

/-- The count of open groupings is the number of groupings that wait. -/
theorem Callers.groups_eq (h : Callers depth call stack) :
    stack.countP Frame.isGroup = depth := by
  induction h with
  | statement => rfl
  | group _ ih => rw [List.countP_cons_of_pos rfl, ih]
  | expression _ ih => simp [Frame.isGroup, ih]
  | first _ _ ih => simp [Frame.isGroup, ih]
  | second _ _ _ _ ih => simp [Frame.isGroup, ih]
  | single _ ih => simp [Frame.isGroup, ih]

/-- Between two groupings that wait there is one expression that waits, or that is being called. -/
theorem Callers.expressions_eq (h : Callers depth call stack) :
    stack.countP Frame.isExpression + (Control.enter call).entersExpression.toNat = depth + 1 := by
  induction h with
  | statement => rfl
  | group _ ih =>
    rw [List.countP_cons_of_neg (by simp [Frame.isExpression])]
    exact congrArg (· + 1) ih
  | expression _ ih =>
    -- the expression was being called, and now it waits
    rw [List.countP_cons_of_pos rfl]
    exact ih
  | first _ _ ih =>
    rw [List.countP_cons_of_neg (by simp [Frame.isExpression])]
    exact ih
  | second _ _ _ _ ih =>
    rw [List.countP_cons_of_neg (by simp [Frame.isExpression])]
    exact ih
  | single _ ih =>
    rw [List.countP_cons_of_neg (by simp [Frame.isExpression])]
    exact ih

/-- What waits below a call that passes on what it gets. -/
theorem Callers.of_pass {frame : Frame} (h : Callers depth call (frame :: stack))
    (hframe : frame = .expression ∨ frame = .single) : ∃ caller, Callers depth caller stack := by
  rcases hframe with rfl | rfl
  · cases h with
    | expression outer => exact ⟨_, outer⟩
  · cases h with
    | single outer => exact ⟨_, outer⟩

/-- What waits below the level of a tier. -/
theorem Callers.of_tier {frame : Frame} {tier : Tier} (h : Callers depth call (frame :: stack))
    (hframe : frame = .first tier ∨ ∃ op left, frame = .second tier op left) :
    Callers depth (.level tier.level) stack := by
  rcases hframe with rfl | ⟨op, left, rfl⟩
  · cases h with
    | first _ outer => exact outer
  · cases h with
    | second _ _ _ outer => exact outer

/-- What waits below a grouping is there with one grouping less. -/
theorem Callers.of_group (h : Callers depth call (.group :: stack)) :
    Callers (depth - 1) .primary stack := by
  cases h with
  | group outer => exact outer

end Callers

/-- The calls that wait are those that wait for what is done next. -/
def State.Placed (s : State) : Prop :=
  match s.control with
  | .round => s.stack = [] ∧ s.depth = 0
  | .enter call => Callers s.depth call s.stack
  | .operators tier _ => Callers s.depth (.level tier.level) s.stack
  | .leave _ => ∃ call, Callers s.depth call s.stack
  | .done _ => s.stack = []

namespace State.Placed

variable {tokens : List Token} {s s' : State}

theorem of_enter {call : Call} (h : s.Placed) (hcontrol : s.control = .enter call) :
    Callers s.depth call s.stack := by
  simpa only [State.Placed, hcontrol] using h

theorem of_operators {tier : Tier} {left : Expr} (h : s.Placed)
    (hcontrol : s.control = .operators tier left) :
    Callers s.depth (.level tier.level) s.stack := by
  simpa only [State.Placed, hcontrol] using h

theorem of_leave {e : Expr} (h : s.Placed) (hcontrol : s.control = .leave e) :
    ∃ call, Callers s.depth call s.stack := by
  simpa only [State.Placed, hcontrol] using h

theorem move (h : s.Placed) (hmove : Move tokens s s') : s'.Placed := by
  cases hmove with
  | begin hcontrol _ =>
    have hround : s.stack = [] ∧ s.depth = 0 := by
      simpa only [State.Placed, hcontrol] using h
    change Callers s.depth .expression s.stack
    rw [hround.1, hround.2]
    exact .statement
  | expression hcontrol => exact .expression (h.of_enter hcontrol)
  | first tier hcontrol => exact .first tier (h.of_enter hcontrol)
  | single hcontrol => exact .single (h.of_enter hcontrol)
  | leaf e hcontrol _ => exact ⟨.primary, h.of_enter hcontrol⟩
  | opening hcontrol _ _ => exact .group (h.of_enter hcontrol)
  | operator tier op left hcontrol _ => exact .second tier op left (h.of_operators hcontrol)
  | last tier left hcontrol => exact ⟨.level tier.level, h.of_operators hcontrol⟩
  | pass frame stack e hcontrol hwaiting hframe =>
    obtain ⟨call, hcallers⟩ := h.of_leave hcontrol
    rw [hwaiting] at hcallers
    exact hcallers.of_pass hframe
  | extend frame stack tier e left hcontrol hwaiting hframe =>
    obtain ⟨call, hcallers⟩ := h.of_leave hcontrol
    rw [hwaiting] at hcallers
    exact hcallers.of_tier hframe
  | closing stack e hcontrol hwaiting _ =>
    obtain ⟨call, hcallers⟩ := h.of_leave hcontrol
    rw [hwaiting] at hcallers
    exact ⟨.primary, hcallers.of_group⟩
  | statement e hcontrol hwaiting =>
    obtain ⟨call, hcallers⟩ := h.of_leave hcontrol
    rw [hwaiting] at hcallers
    -- nothing waits, so no grouping is open
    exact ⟨hwaiting, hcallers.groups_eq.symm⟩
  | finish before result _ _ _ => exact rfl
  | stay result hcontrol => exact h

/-- One more expression is active than groupings are open, or fewer. -/
theorem active_le (h : s.Placed) : s.active ≤ s.depth + 1 := by
  rw [State.active]
  cases hcontrol : s.control with
  | round =>
    have hround : s.stack = [] ∧ s.depth = 0 := by
      simpa only [State.Placed, hcontrol] using h
    rw [hround.1]
    simp [Control.entersExpression]
  | enter call =>
    have hcallers := h.of_enter hcontrol
    exact hcallers.expressions_eq.le
  | operators tier left =>
    have hcallers := h.of_operators hcontrol
    exact hcallers.expressions_eq.le
  | leave e =>
    obtain ⟨call, hcallers⟩ := h.of_leave hcontrol
    have hcount := hcallers.expressions_eq
    simp only [Control.entersExpression, Bool.toNat_false]
    omega
  | done result =>
    have hdone : s.stack = [] := by
      simpa only [State.Placed, hcontrol] using h
    rw [hdone]
    simp [Control.entersExpression]

end State.Placed

/-! ## Progress -/

/-- Where the cursor stands at least when the call that runs ends: a call that has just begun has
still to go over a token. -/
def State.reach (s : State) : Nat :=
  match s.control with
  | .enter _ | .done _ => s.cursor + 1
  | _ => s.cursor

section Progress

variable {tokens : List Token} {s s' : State}

theorem reach_of_round (h : s.control = .round) : s.reach = s.cursor := by
  simp only [State.reach, h]

theorem reach_of_enter {call : Call} (h : s.control = .enter call) :
    s.reach = s.cursor + 1 := by
  simp only [State.reach, h]

theorem reach_of_operators {tier : Tier} {left : Expr} (h : s.control = .operators tier left) :
    s.reach = s.cursor := by
  simp only [State.reach, h]

theorem reach_of_leave {e : Expr} (h : s.control = .leave e) : s.reach = s.cursor := by
  simp only [State.reach, h]

theorem reach_le : s.reach ≤ s.cursor + 1 := by
  rw [State.reach]
  split <;> omega

/-- No move takes back what has been gone over, and none ends a call for nothing. -/
theorem Move.reach_le (h : Move tokens s s') : s.reach ≤ s'.reach := by
  cases h with
  | begin hcontrol _ =>
    rw [reach_of_round hcontrol]
    exact Nat.le_succ _
  | expression hcontrol => exact (reach_of_enter hcontrol).le
  | first tier hcontrol => exact (reach_of_enter hcontrol).le
  | single hcontrol => exact (reach_of_enter hcontrol).le
  | leaf e hcontrol _ => exact (reach_of_enter hcontrol).le
  | opening hcontrol _ _ =>
    rw [reach_of_enter hcontrol]
    exact Nat.le_succ _
  | operator tier op left hcontrol _ =>
    rw [reach_of_operators hcontrol]
    exact Nat.le_add_right _ 2
  | last tier left hcontrol => exact (reach_of_operators hcontrol).le
  | pass frame stack e hcontrol _ _ => exact (reach_of_leave hcontrol).le
  | extend frame stack tier e left hcontrol _ _ => exact (reach_of_leave hcontrol).le
  | closing stack e hcontrol _ _ =>
    rw [reach_of_leave hcontrol]
    exact Nat.le_succ _
  | statement e hcontrol _ => exact (reach_of_leave hcontrol).le
  | finish before result hcursor _ _ =>
    have hreach := Descent.reach_le (s := s)
    change s.reach ≤ before.cursor + 1
    omega
  | stay result hcontrol => exact Nat.le_refl _

theorem reach_le_after (tokens : List Token) (s : State) (n : Nat) :
    s.reach ≤ (s.after tokens n).reach := by
  induction n with
  | zero => exact Nat.le_refl _
  | succ n ih => exact ih.trans (move_step tokens _).reach_le

end Progress

/-! ## The tokens before the cursor -/

section Front

variable {tokens : List Token} {s s' : State}

theorem cursor_lt_length (h : (s.peek tokens).isEnd = false) : s.cursor < tokens.length := by
  by_contra hge
  -- behind the last token stands the end of file that is supplied
  rw [State.peek, List.getElem?_eq_none (Nat.le_of_not_lt hge)] at h
  exact absurd h (by simp [Program.suppliedEnd, Token.endOfFile, Token.isEnd])

/-- Going over a token puts it behind those that are before the cursor. -/
theorem take_succ_cursor (h : (s.peek tokens).isEnd = false) :
    tokens.take (s.cursor + 1) = tokens.take s.cursor ++ [s.peek tokens] := by
  have hlt := cursor_lt_length h
  rw [List.take_succ_eq_append_getElem hlt, State.peek, List.getElem?_eq_getElem hlt,
    Option.getD_some]

/-- The cursor never goes over the first end of file. -/
theorem cursor_lt_findIdx (hle : s.cursor ≤ tokens.findIdx Token.isEnd)
    (h : (s.peek tokens).isEnd = false) : s.cursor < tokens.findIdx Token.isEnd := by
  have hlt := cursor_lt_length h
  rw [State.peek, List.getElem?_eq_getElem hlt, Option.getD_some] at h
  refine Nat.lt_of_le_of_ne hle ?_
  intro heq
  have hend : (tokens[s.cursor]).isEnd = true := by
    simp only [heq]
    exact List.findIdx_getElem
  rw [h] at hend
  exact absurd hend (by decide)

theorem openings_append (front rest : List Token) :
    openings (front ++ rest) = openings front + openings rest := List.countP_append

theorem closings_append (front rest : List Token) :
    closings (front ++ rest) = closings front + closings rest := List.countP_append

/-- The groupings that the tokens before the cursor have opened and not closed. -/
def State.Balanced (tokens : List Token) (s : State) : Prop :=
  openings (tokens.take s.cursor) = closings (tokens.take s.cursor) + s.depth

/-- Going over a token keeps the balance if the count goes with it. -/
theorem State.Balanced.over {depth : Nat} (h : s.Balanced tokens)
    (hend : (s.peek tokens).isEnd = false)
    (hdepth : openings [s.peek tokens] + s.depth = closings [s.peek tokens] + depth) :
    openings (tokens.take (s.cursor + 1)) = closings (tokens.take (s.cursor + 1)) + depth := by
  rw [State.Balanced] at h
  rw [take_succ_cursor hend, openings_append, closings_append]
  omega

/-- A token that is no parenthesis changes nothing. -/
theorem State.Balanced.over_of_kind {kind : Token.Kind} (h : s.Balanced tokens)
    (hkind : (s.peek tokens).kind = kind) (hend : kind ≠ .endOfFile) (hopen : kind ≠ .openParen)
    (hclose : kind ≠ .closeParen) : (s.over 1).Balanced tokens := by
  have hsame : openings [s.peek tokens] + s.depth = closings [s.peek tokens] + s.depth := by
    simp [openings, closings, hkind, hopen, hclose]
  exact h.over (isEnd_eq_false_of_kind hkind hend) hsame

theorem Move.balanced (hmove : Move tokens s s') (hplaced : s.Placed) (h : s.Balanced tokens)
    (hrunning : ∀ result, s'.control ≠ .done result) : s'.Balanced tokens := by
  cases hmove with
  | begin _ _ => exact h
  | expression _ => exact h
  | first _ _ => exact h
  | single _ => exact h
  | leaf e _ hkind =>
    rcases hkind with hkind | hkind
    · exact h.over_of_kind hkind (by decide) (by decide) (by decide)
    · exact h.over_of_kind hkind (by decide) (by decide) (by decide)
  | opening _ hkind _ =>
    have hmore : openings [s.peek tokens] + s.depth =
        closings [s.peek tokens] + (s.depth + 1) := by
      simp [openings, closings, hkind, Nat.add_comm]
    exact h.over (isEnd_eq_false_of_kind hkind (by decide)) hmore
  | operator tier op left _ hkind =>
    exact h.over_of_kind hkind (by decide) (by decide) (by decide)
  | last _ _ _ => exact h
  | pass _ _ _ _ _ _ => exact h
  | extend _ _ _ _ _ _ _ _ => exact h
  | closing stack e hcontrol hwaiting hkind =>
    -- the grouping that waits is one of those that are counted
    obtain ⟨call, hcallers⟩ := hplaced.of_leave hcontrol
    have hgroups := hcallers.groups_eq
    rw [hwaiting, List.countP_cons_of_pos rfl] at hgroups
    have hopenings : openings [s.peek tokens] = 0 := by simp [openings, hkind]
    have hclosings : closings [s.peek tokens] = 1 := by simp [closings, hkind]
    have hless : openings [s.peek tokens] + s.depth =
        closings [s.peek tokens] + (s.depth - 1) := by omega
    exact h.over (isEnd_eq_false_of_kind hkind (by decide)) hless
  | statement _ _ _ => exact h
  | finish before result _ _ _ => exact absurd rfl (hrunning result)
  | stay _ _ => exact h

/-- The cursor moves by one token at most, and never over an end of file. -/
theorem Move.cursor_eq (h : Move tokens s s') :
    s'.cursor = s.cursor ∨ (s.peek tokens).isEnd = false ∧ s'.cursor = s.cursor + 1 := by
  cases h with
  | leaf e _ hkind =>
    rcases hkind with hkind | hkind
    · exact .inr ⟨isEnd_eq_false_of_kind hkind (by decide), rfl⟩
    · exact .inr ⟨isEnd_eq_false_of_kind hkind (by decide), rfl⟩
  | opening _ hkind _ => exact .inr ⟨isEnd_eq_false_of_kind hkind (by decide), rfl⟩
  | operator tier op left _ hkind => exact .inr ⟨isEnd_eq_false_of_kind hkind (by decide), rfl⟩
  | closing stack e _ _ hkind => exact .inr ⟨isEnd_eq_false_of_kind hkind (by decide), rfl⟩
  | finish before result hcursor _ _ => exact hcursor
  | _ => exact .inl rfl

/-- The count grows only below the limit. -/
theorem Move.depth_le (h : Move tokens s s') : s'.depth ≤ s.depth ∨ s'.depth ≤ maxNesting := by
  cases h with
  | opening _ _ hroom => exact .inr hroom
  | closing _ _ _ _ _ => exact .inl (Nat.sub_le _ _)
  | finish before result _ hdepth _ => exact .inl hdepth
  | _ => exact .inl (Nat.le_refl _)

/-- A round begins only in front of a token. -/
theorem Move.rounds_eq (h : Move tokens s s') :
    s'.rounds = s.rounds ∨ (s.peek tokens).isEnd = false ∧ s.reach = s.cursor ∧
      s'.reach = s.cursor + 1 ∧ s'.rounds = s.rounds + 1 := by
  cases h with
  | begin hcontrol hmore => exact .inr ⟨hmore, reach_of_round hcontrol, rfl, rfl⟩
  | finish before result _ _ hrounds => exact .inl hrounds
  | _ => exact .inl rfl

end Front

end Abacus.Descent
